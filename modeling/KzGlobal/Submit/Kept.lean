import KzGlobal.Replay.Capture
import KzGlobal.Submit.Custody

/-! # A submitted run is never forgotten

Every step of every thread keeps the invariant of `Custody`, where the uids of runs are new segments
without dots and every reply answers a message (`Faithful`). So in every state of every such run,
each submitted run that was not answered has its file, and a row of its ADD_RECORD or of its upload
(`submitted_kept`). -/

namespace KzGlobal.Submit.Kept

open KzGlobal.Lib.Packed KzGlobal.Lib.Stdio KzGlobal.Lib.Runs KzGlobal.Krp.Format
open KzGlobal.Replay.Text KzGlobal.Replay.Writer KzGlobal.Replay.Capture KzGlobal.Replay.Paths
open KzGlobal.Replay.Saves KzGlobal.Storage.Queue KzGlobal.Storage.Ledger
open KzGlobal.Submit.System KzGlobal.Submit.Custody

/-! ### What is required of the runs and of the server -/

/-- A reply may answer a message: a RECORD_ACK of an ADD_RECORD names its uid, and apart from it
only an error answers one. (A FILE_ACK answers an upload, whose id is 0.) -/
def Answers (text : Text) : Reply → Prop
  | .recordAck localUid => ∀ r, text = .addRecord r → localUid = some r.localUid
  | .error _ => True
  | _ => ∀ r, text ≠ .addRecord r

/-- An accepted upload is that of a run. -/
def NamesRun : Reply → Prop
  | .fileAck (some uid) true => RunUid uid
  | _ => True

/-- The uid of a saved run is a new segment without dots, and a reply's id is 0 or that of a message
it answers. -/
def Faithful (dataDir : Bytes) (s : Sys) : Event → Prop
  | .signal player i _ => ∀ uid path, .saved uid path ∈ (step dataDir (s.slot player) i).2 →
      kzWsValidReplaySegment uid = true ∧ (46 : UInt8) ∉ uid ∧ uid ∉ s.finished
  | .receive reply msgId _ _ => NamesRun reply ∧ (msgId = 0 ∨
      ∃ m ∈ s.saved, m.table = .outgoingQueue ∧ m.id = msgId ∧ Answers m.text reply)
  | _ => True

/-! ### What deletes files -/

section Disks
variable {dataDir : Bytes} {E : Set Bytes} {d d' : Disk Bytes UInt8} {uid : Bytes}

theorem keepsRuns_prune (mapname : Bytes) : ∀ (names : List Bytes) (d : Disk Bytes UInt8),
    KeepsRuns dataDir E d (kzRpPruneReplays dataDir mapname names d)
  | [], _ => .refl
  | name :: names, d => by
    refine KeepsRuns.trans ?_ (keepsRuns_prune mapname names _)
    dsimp only
    split_ifs with h
    · exact keepsRuns_unlink (apart_of_extension h dataDir)
    · exact .refl

theorem keepsRuns_delete (h : RunUid uid) :
    KeepsRuns dataDir {uid} d (kzWsDeleteReplayFiles dataDir uid none d) := by
  unfold kzWsDeleteReplayFiles
  split_ifs
  · exact .refl
  · exact (keepsRuns_unlink_run h).trans (keepsRuns_unlink (apart_krpz dataDir _))

theorem keepsRuns_deleteRecord (mapname : Bytes) :
    KeepsRuns dataDir E d (kzWsDeleteRecordReplay dataDir mapname uid d) := by
  unfold kzWsDeleteRecordReplay
  split_ifs with hv
  · exact .refl
  · rw [not_or, not_not, not_not] at hv
    have hp (ext : Bytes) := (nested_mapReplayPath dataDir ext hv.1 hv.2).apart
    unfold kzWsDeleteReplayFiles
    split_ifs
    · exact .refl
    · exact (keepsRuns_unlink (hp _)).trans (keepsRuns_unlink (hp _))

theorem keepsRuns_moveAccepted (h : RunUid uid) {names : List Bytes}
    (hm : moveAccepted dataDir uid names d = some d') : KeepsRuns dataDir {uid} d d' := by
  unfold moveAccepted at hm
  obtain ⟨b, -, hm⟩ := Option.bind_eq_some_iff.mp hm
  dsimp only at hm
  split_ifs at hm
  obtain ⟨moved, hren, hm⟩ := Option.bind_eq_some_iff.mp hm
  rw [← Option.some.inj hm]
  exact ((keepsRuns_rename (apart_krpz dataDir _) hren).trans (keepsRuns_unlink_run h)).trans
    (keepsRuns_prune _ names _)

theorem keepsRuns_compressFile {zstd : Bytes → Option Bytes} {file : Bytes}
    (hc : kzRpCompressFile zstd file d = some d') : KeepsRuns dataDir E d d' := by
  unfold kzRpCompressFile at hc
  obtain ⟨src, -, hc⟩ := Option.bind_eq_some_iff.mp hc
  split_ifs at hc
  obtain ⟨dst, -, hc⟩ := Option.bind_eq_some_iff.mp hc
  rw [← Option.some.inj hc]
  exact keepsRuns_store dst

theorem keepsRuns_openUpload {zstd : Bytes → Option Bytes} {pathname : Bytes}
    (ho : openUpload zstd pathname d = some d') : KeepsRuns dataDir E d d' := by
  unfold openUpload at ho
  split_ifs at ho
  · obtain ⟨b, -, he⟩ := Option.map_eq_some_iff.mp ho
    rw [← he]
    exact .refl
  · exact keepsRuns_compressFile ho

theorem keepsRuns_compressThread (h : RunUid uid) (zstd : Bytes → Option Bytes) :
    KeepsRuns dataDir {uid} d
      (kzRpCompressThread dataDir zstd (replayPath dataDir uid (str ".krpr")) d) := by
  unfold kzRpCompressThread
  split
  · exact .refl
  · rename_i d₁ hc
    have h₁ : KeepsRuns dataDir {uid} d d₁ := keepsRuns_compressFile hc
    split
    · exact h₁
    · dsimp only
      split_ifs
      · exact h₁
      · split
        · exact h₁
        · rename_i hren
          exact (h₁.trans (keepsRuns_rename (apart_krpz dataDir _) hren)).trans
            (keepsRuns_unlink_run h)

end Disks

/-! ### The threads -/

section Threads
variable {dataDir : Bytes} {s : Sys} (h : Inv dataDir s)
include h

/-- **A signal of the writer.** -/
theorem inv_signal (hd : ShortDir dataDir) {player : ℕ} {i : Input} {now : ℤ}
    (hC : Faithful dataDir s (.signal player i now)) :
    Inv dataDir (onSignal dataDir player i now s) := by
  have hk := step_keeps (s := s.slot player) (h.tidy player) hd i
  have htidy : ∀ p, Tidy dataDir
      (Function.update s.players player (step dataDir (s.slot player) i).1.toEntries p) := by
    intro p
    rcases eq_or_ne p player with rfl | hne
    · rw [Function.update_self]
      exact hk.tidy
    · rw [Function.update_of_ne hne]
      exact h.tidy p
  have hs : Inv dataDir { s with
      disk := (step dataDir (s.slot player) i).1.disk
      players := Function.update s.players player (step dataDir (s.slot player) i).1.toEntries } :=
    let hdisk := h.disk_keeps hk.runs
    ⟨hdisk.fits, hdisk.records, hdisk.unsubmitted, htidy, hdisk.discards, hdisk.handled, hdisk.kept⟩
  unfold onSignal
  dsimp only
  rcases step_saves dataDir (s.slot player) i with hout | ⟨uid, o, hl, ho, hout, hfile⟩
  · rw [hout]
    exact hs
  · obtain ⟨hv, hdot, hnew⟩ := hC uid _ (hout ▸ List.mem_cons_self)
    have hu : RunUid uid := ⟨hv, hdot, hl⟩
    rw [take_finishPath hd hu] at hfile
    rw [hout, List.foldl_cons, List.foldl_cons, List.foldl_nil]
    rcases ho with rfl | ⟨r, rfl, rfl⟩
    · unfold output
      dsimp only
      split_ifs
      · refine hs.finish hu hnew fun p hp => ?_
        rcases List.mem_append.mp hp with hp | hp
        · exact Or.inl hp
        · exact Or.inr (List.mem_singleton.mp hp)
      · exact hs.finish hu hnew fun p hp => Or.inl hp
    · exact hs.submit hu hnew hfile now

/-- **An accepted upload.** -/
theorem inv_cleanup {uid : Bytes} (ha : uid ∈ s.answered) : Inv dataDir (cleanup uid s) := by
  have hq := h.retry (h.fits.eraseUpload (.uid uid)) rfl
  exact (hq.deleteByValue ha).uploads (s.active.erase uid) s.uploadQueue s.uploading s.sent

theorem inv_fileAck {names : List Bytes} {localUid : Option Bytes} {status : Bool}
    (hn : NamesRun (.fileAck localUid status))
    (ha : ∀ uid ∈ localUid, status = true → uid ∈ s.answered) :
    Inv dataDir (kzWsAckFileAck dataDir names localUid status s).1 := by
  unfold kzWsAckFileAck
  rcases localUid with _ | uid
  · exact h
  · dsimp only
    split_ifs with hv hs
    · have hu : RunUid uid := by rwa [hs] at hn
      have ha := ha uid rfl hs
      rw [List.take_of_length_le hu.2.2]
      split
      · exact inv_cleanup h ha
      · rename_i disk hm
        exact inv_cleanup (h.disk_run (keepsRuns_moveAccepted hu hm) (Or.inl ha)) ha
    · exact h
    · exact h

theorem inv_recordAck {now : ℤ} {localUid : Option Bytes} :
    Inv dataDir (kzWsAckRecordAck dataDir now localUid s).1 := by
  unfold kzWsAckRecordAck
  rcases localUid with _ | uid
  · exact h
  · dsimp only
    split_ifs
    · exact (h.uploads (insert uid s.active) s.uploadQueue s.uploading s.sent).save now
        (.uid (uid.take 63)) (fun _ he => by cases he) 0 .uploadQueue
    · exact h
    · exact h

/-- **A RECORD_ACK hands its run on to the upload queue.** -/
theorem hasUpload_recordAck {m : Saved Text} (hm : m ∈ s.saved) {uid : Bytes} (hs : Submits m uid)
    (ha : uid ∉ s.answered) (now : ℤ) :
    HasUpload (kzWsAckRecordAck dataDir now (some uid) s).1.store uid := by
  have hu := (h.records m hm uid hs).2.2.1
  have hfile := (h.kept m hm uid hs ha).1
  unfold kzWsAckRecordAck
  dsimp only
  rw [if_neg (not_not.mpr hu.1), if_pos hfile, List.take_of_length_le hu.2.2]
  have hrow := row_save now (.uid uid) 0 .uploadQueue s.store
  exact ⟨_, _, _, hrow, rfl⟩

end Threads

/-! ### Replies -/

theorem mem_recordUids {saved : List (Saved Text)} {m : Saved Text} (hm : m ∈ saved)
    (ht : m.table = .outgoingQueue) {uid : Bytes} (hs : Submits m uid) :
    uid ∈ recordUids saved m.id := by
  obtain ⟨r, hr, rfl⟩ := hs
  refine List.mem_filterMap.mpr ⟨m, hm, ?_⟩
  obtain ⟨table, id, msgType, text⟩ := m
  cases ht
  cases hr
  exact if_pos rfl

/-- **An error discards the run of the ADD_RECORD that it answers.** -/
theorem discard_of_error {s : Sys} (hf : Fits s.saved s.store) {msgId : ℕ} {hasMessage : Bool}
    {uid : Bytes} (he : kzWsAckError msgId hasMessage s = some (.discard uid)) :
    uid ∈ recordUids s.saved msgId ∧ ∃ m ∈ s.saved, Submits m uid := by
  unfold kzWsAckError at he
  split_ifs at he
  split at he
  · rename_i msgType r createdAt hrow
    split_ifs at he
    cases he
    obtain ⟨row, hfind, hr⟩ := Option.map_eq_some_iff.mp hrow
    obtain ⟨m, hm, hme⟩ := hf.rows _ row (List.mem_of_find?_eq_some hfind)
    have hid : row.1 = msgId := by simpa using List.find?_some hfind
    rw [Saved.IsRow, hr, hid] at hme
    have hs : Submits m r.localUid := ⟨r, by rw [hme], rfl⟩
    have hmem := mem_recordUids hm (by rw [hme]) hs
    rw [hme] at hmem
    exact ⟨hmem, m, hm, hs⟩
  · cases he

theorem saved_handler (dataDir : Bytes) (now : ℤ) (names : List Bytes) (msgId : ℕ) (reply : Reply)
    (s : Sys) : (∀ m ∈ s.saved, m ∈ (handler dataDir now names msgId reply s).1.saved) ∧
      (handler dataDir now names msgId reply s).1.answered = s.answered := by
  cases reply with
  | recordAck localUid =>
    unfold handler kzWsAckRecordAck
    rcases localUid with _ | uid
    · exact ⟨fun _ hm => hm, rfl⟩
    · dsimp only
      split_ifs
      · exact ⟨fun _ hm => List.mem_append_left _ hm, rfl⟩
      · exact ⟨fun _ hm => hm, rfl⟩
      · exact ⟨fun _ hm => hm, rfl⟩
  | fileAck localUid status =>
    unfold handler kzWsAckFileAck
    rcases localUid with _ | uid
    · exact ⟨fun _ hm => hm, rfl⟩
    · dsimp only
      split_ifs
      · split <;> exact ⟨fun _ hm => hm, rfl⟩
      · exact ⟨fun _ hm => hm, rfl⟩
      · exact ⟨fun _ hm => hm, rfl⟩
  | error hasMessage => exact ⟨fun _ hm => hm, rfl⟩
  | delRecordNotify mapname localUid => exact ⟨fun _ hm => hm, rfl⟩
  | other hasCallback => exact ⟨fun _ hm => hm, rfl⟩

section Threads
variable {dataDir : Bytes} {s : Sys} (h : Inv dataDir s)
include h

section Handler
variable {reply : Reply} {msgId : ℕ} {now : ℤ} {names : List Bytes}
  (hset : ∀ uid ∈ settles s.saved msgId reply, uid ∈ s.answered)
include hset

theorem inv_handler (hn : NamesRun reply) :
    Inv dataDir (handler dataDir now names msgId reply s).1 := by
  cases reply with
  | recordAck localUid => exact inv_recordAck h
  | fileAck localUid status =>
    refine inv_fileAck h hn fun uid hu hs => hset uid ?_
    rw [Option.mem_def.mp hu, hs]
    exact List.mem_singleton_self uid
  | error hasMessage => exact h
  | delRecordNotify mapname localUid => exact h
  | other hasCallback => exact h

/-- **The run of a message that is answered is settled, or it has been handed on.** -/
theorem handedOn_handler {m : Saved Text} (hm : m ∈ s.saved) (ht : m.table = .outgoingQueue)
    (hid : m.id = msgId) (ha : Answers m.text reply) {uid : Bytes} (hs : Submits m uid) :
    uid ∈ s.answered ∨ HasUpload (handler dataDir now names msgId reply s).1.store uid := by
  obtain ⟨r, hr, hru⟩ := id hs
  cases reply with
  | recordAck localUid =>
    have hl : localUid = some uid := hru ▸ ha r hr
    by_cases hans : uid ∈ s.answered
    · exact Or.inl hans
    · rw [hl]
      exact Or.inr (hasUpload_recordAck h hm hs hans now)
  | fileAck localUid status => exact absurd hr (ha r)
  | error hasMessage => exact Or.inl (hset uid (hid ▸ mem_recordUids hm ht hs))
  | delRecordNotify mapname localUid => exact absurd hr (ha r)
  | other hasCallback => exact absurd hr (ha r)

theorem discard_of_handler {uid : Bytes}
    (hd : (handler dataDir now names msgId reply s).2 = some (.discard uid)) :
    RunUid uid ∧ uid ∈ s.answered := by
  cases reply with
  | recordAck localUid =>
    unfold handler kzWsAckRecordAck at hd
    rcases localUid with _ | uid'
    · cases hd
    · dsimp only at hd
      split_ifs at hd
      all_goals cases hd
  | fileAck localUid status =>
    unfold handler kzWsAckFileAck at hd
    rcases localUid with _ | uid'
    · cases hd
    · dsimp only at hd
      split_ifs at hd
      · split at hd <;> cases hd
      all_goals cases hd
  | error hasMessage =>
    obtain ⟨hmem, m, hm, hs⟩ := discard_of_error h.fits hd
    exact ⟨(h.records m hm uid hs).2.2.1, hset uid hmem⟩
  | delRecordNotify mapname localUid =>
    unfold handler kzWsAckDelRecordNotify at hd
    dsimp only at hd
    split at hd
    · split_ifs at hd
      cases hd
    · cases hd
  | other hasCallback =>
    unfold handler at hd
    dsimp only at hd
    split_ifs at hd
    cases hd

end Handler

/-- **The handling of a reply.** -/
theorem inv_receive {reply : Reply} {msgId : ℕ} {now : ℤ} {names : List Bytes}
    (hC : Faithful dataDir s (.receive reply msgId now names)) :
    Inv dataDir (receive dataDir reply msgId now names s) := by
  unfold receive
  split
  · exact h
  · obtain ⟨hn, hid⟩ := hC
    have h' : Inv dataDir { s with answered := settles s.saved msgId reply ++ s.answered } :=
      h.answer fun uid hu => List.mem_append_right _ hu
    have hset : ∀ uid ∈ settles s.saved msgId reply, uid ∈ settles s.saved msgId reply ++
        s.answered :=
      fun uid hu => List.mem_append_left _ hu
    obtain ⟨hsaved, hans⟩ := saved_handler dataDir now names msgId reply
      { s with answered := settles s.saved msgId reply ++ s.answered }
    refine (inv_handler h' hset hn).hold (hid.imp_right ?_) fun uid hd => ?_
    · rintro ⟨m, hm, ht, hmid, ha⟩
      refine ⟨m, hsaved m hm, ht, hmid, fun uid hs => ?_⟩
      rw [hans]
      exact handedOn_handler h' hset hm ht hmid ha hs
    · rw [hans]
      exact discard_of_handler h' hset hd

theorem inv_passesOn {incoming : List Callback} {handled : Option (Option Callback × ℕ)}
    (hp : PassesOn s incoming handled) : Inv dataDir { s with incoming, handled } :=
  h.callbacks (fun _ hd => hp.callbacks _ hd) hp.handled

theorem inv_downloaded (mapname uid body : Bytes) :
    Inv dataDir (downloaded mapname uid body s) := by
  unfold downloaded
  split_ifs
  · refine h.callbacks (fun uid' hd => ?_) fun fn id he => ⟨fn, he⟩
    rw [List.append_assoc, List.mem_append, List.mem_append] at hd
    rcases hd with hd | hd | hd
    · exact List.mem_append_left _ hd
    · cases List.mem_singleton.mp hd
    · exact List.mem_append_right _ hd
  · exact h

theorem inv_uploadOrRelease (upr : Upload) (uid : Bytes) :
    Inv dataDir (uploadOrRelease upr uid s) := by
  by_cases hroom : s.uploadQueue.length < uploadQueueSize
  · rw [uploadOrRelease_room hroom]
    exact h.uploads s.active (s.uploadQueue ++ [upr]) s.uploading s.sent
  · rw [uploadOrRelease_full hroom]
    exact h.uploads (s.active.erase uid) s.uploadQueue s.uploading s.sent

theorem inv_requeue (now : ℤ) (uid : Bytes) :
    Inv dataDir (kzWsRequeueReplayUpload dataDir now uid s) := by
  unfold kzWsRequeueReplayUpload
  dsimp only
  split_ifs
  · exact h
  · have hs := (h.uploads (insert uid s.active) s.uploadQueue s.uploading s.sent).save now
      (.uid uid) (fun _ he => by cases he) 0 .uploadQueue
    exact inv_uploadOrRelease hs _ uid

/-- **The callbacks of the main thread.** -/
theorem inv_runTask (now : ℤ) (current : Bytes) : Inv dataDir (runTask dataDir now current s) := by
  unfold runTask
  split
  · exact h
  · rename_i fn rest hin
    have hmem (uid : Bytes) (hd : .discard uid ∈ rest ++ (s.handled.bind Prod.fst).toList) :
        .discard uid ∈ callbacks s := by
      rw [callbacks, hin]
      exact List.mem_cons_of_mem _ hd
    have hs : Inv dataDir { s with incoming := rest } :=
      h.callbacks hmem fun fn id he => ⟨fn, he⟩
    cases fn with
    | upload metadata => exact inv_uploadOrRelease hs metadata _
    | requeue uid => exact inv_requeue hs now uid
    | discard uid =>
      obtain ⟨hu, ha⟩ := h.discards uid (by rw [callbacks, hin]; exact List.mem_cons_self)
      have hdisk := hs.disk_run (keepsRuns_delete hu) (Or.inl ha)
      exact (hdisk.deleteByValue ha).uploads (s.active.erase uid) s.uploadQueue s.uploading s.sent
    | deleteRecord mapname uid =>
      exact hs.disk_keeps (keepsRuns_deleteRecord mapname)
    | downloaded mapname uid body =>
      unfold runCallback
      dsimp only
      split_ifs
      · exact hs.disk_keeps (keepsRuns_store body)
      · exact hs
    | other => exact hs

theorem inv_retryPass (delay maxRetries : ℤ) (ts : ℤ) :
    Inv dataDir (runRetryPass dataDir delay maxRetries ts s) := by
  have hs := h.retry (h.fits.retry (retryPass_entries Text.isEmpty delay maxRetries ts _)) rfl
  unfold runRetryPass
  dsimp only
  split
  · unfold retryUpload
    dsimp only
    split_ifs
    · exact hs
    · exact inv_uploadOrRelease (hs.uploads _ s.uploadQueue s.uploading s.sent) _ _
  · exact hs

theorem inv_uploadSend (zstd : Bytes → Option Bytes) : Inv dataDir (uploadSend zstd s) := by
  unfold uploadSend
  split
  · exact h
  · rename_i item rest hq
    split_ifs
    · exact h
    · split
      · exact h.uploads (s.active.erase item.localUid) rest s.uploading s.sent
      · rename_i disk hopen
        have hdisk := h.disk_keeps (keepsRuns_openUpload hopen)
        exact hdisk.uploads s.active s.uploadQueue true (item.localUid :: s.sent)

theorem inv_uploadPop : Inv dataDir (uploadPop s) := by
  unfold uploadPop
  split_ifs
  · exact h.uploads s.active s.uploadQueue.tail false s.sent
  · exact h

theorem inv_compressNext (zstd : Bytes → Option Bytes) :
    Inv dataDir (compressNext dataDir zstd s) := by
  unfold compressNext
  split
  · exact h
  · rename_i src rest hq
    obtain ⟨uid, hu, -, rfl, hns⟩ := h.unsubmitted src (hq ▸ List.mem_cons_self)
    have hs := h.disk_run (keepsRuns_compressThread hu zstd) (Or.inr hns)
    exact ⟨hs.fits, hs.records, fun p hp => h.unsubmitted p (hq ▸ List.mem_cons_of_mem _ hp),
      hs.tidy, hs.discards, hs.handled, hs.kept⟩

theorem inv_restart : Inv dataDir (restart s) where
  fits := h.fits.load.weaken (fun _ => le_rfl) (fun _ _ hr => hr) h.fits.load.entries
  records := h.records
  unsubmitted _ hp := absurd hp List.not_mem_nil
  tidy _ := Tidy.init dataDir
  discards _ hd := absurd hd List.not_mem_nil
  handled _ _ he := by cases he
  kept := h.kept

/-- **One step keeps the invariant.** -/
theorem inv_next (hd : ShortDir dataDir) (zstd : Bytes → Option Bytes) {e : Event}
    (hC : Faithful dataDir s e) : Inv dataDir (next dataDir zstd s e) := by
  cases e with
  | signal player i now => exact inv_signal h hd hC
  | save m text now => exact h.save now (.json text) (fun _ he => by cases he) _ _
  | receive reply msgId now names => exact inv_receive h hC
  | push =>
    obtain ⟨incoming, handled, hp, he⟩ := push_passesOn s
    exact (he ▸ inv_passesOn h hp : Inv dataDir (push s))
  | giveUp =>
    obtain ⟨incoming, handled, hp, he⟩ := giveUp_passesOn s
    exact (he ▸ inv_passesOn h hp : Inv dataDir (giveUp s))
  | deleteMsg => exact h.deleteMsg
  | runTask now current => exact inv_runTask h now current
  | retryPass delay maxRetries ts => exact inv_retryPass h delay maxRetries ts
  | clear => exact h.clear
  | load => exact h.retry h.fits.load rfl
  | requeueAllPending => exact h.retry h.fits.requeueAllPending rfl
  | uploadSend => exact inv_uploadSend h zstd
  | uploadPop => exact inv_uploadPop h
  | compress => exact inv_compressNext h zstd
  | prune mapname names =>
    exact h.disk_keeps (keepsRuns_prune mapname names s.disk)
  | downloaded mapname uid body => exact inv_downloaded h mapname uid body
  | restart => exact inv_restart h

end Threads

/-- **A submitted run is never forgotten.** In every run of the module from an empty database, with
new segments without dots for uids and replies that answer messages: a run whose ADD_RECORD was
saved, and which no accepted upload and no error settled, has its file, and a row of its ADD_RECORD
or of its upload. -/
theorem submitted_kept (amxxDatadir : CString 127) (zstd : Bytes → Option Bytes)
    (disk : Disk Bytes UInt8) {es : List Event}
    (hC : Along (next (gDataDir amxxDatadir) zstd) (Faithful (gDataDir amxxDatadir))
      (.init disk) es) :
    let s := run (next (gDataDir amxxDatadir) zstd) (.init disk) es
    ∀ m ∈ s.saved, ∀ r, m.text = .addRecord r → r.localUid ∉ s.answered →
      (s.disk (replayPath (gDataDir amxxDatadir) r.localUid (str ".krpr"))).isSome ∧
      ((∃ id, HasRow s.store ⟨.outgoingQueue, id, msgAddRecord, .addRecord r⟩) ∨
        ∃ id msgType, HasRow s.store ⟨.uploadQueue, id, msgType, .uid r.localUid⟩) := by
  intro s m hm r hr ha
  have hd := shortDir_gDataDir amxxDatadir
  have h : Inv (gDataDir amxxDatadir) s :=
    Along.run (P := Inv (gDataDir amxxDatadir)) (fun _ _ hs hC => inv_next hs hd zstd hC) hC
      (Inv.init _ disk)
  have hs : Submits m r.localUid := ⟨r, hr, rfl⟩
  obtain ⟨ht, hty, -, -⟩ := h.records m hm _ hs
  obtain ⟨hfile, hrow⟩ := h.kept m hm _ hs ha
  refine ⟨hfile, hrow.imp_left fun hrow => ⟨m.id, ?_⟩⟩
  rw [← ht, ← hty, ← hr]
  exact hrow

/-- The directory that AMX Mod X takes by default. -/
def sampleDatadir : CString 127 := ⟨str "addons/amxmodx/data", by decide, by decide⟩

/-- The uid of the record. -/
def sampleUid : Bytes := str "0_00012345_0123_10"

/-- A record with that uid. -/
def sampleRecord : AddRecord := ⟨str "STEAM_0:1:23", str "a", 12345, 0, 0, sampleUid⟩

/-- A compression that stores its input: a `zstd` frame of one raw block, for at most 128 KiB. -/
def storedFrame (b : Bytes) : Option Bytes :=
  some ([0x28, 0xB5, 0x2F, 0xFD, 0xA0] ++ leBytes 4 b.length ++ leBytes 3 (8 * b.length + 1) ++ b)

/-- A run of one frame is submitted. -/
def sampleSubmission : List Event :=
  [.signal 1 sampleStart 100, .signal 1 (sampleInput (.frame (sampleFrame 1))) 100,
    .signal 1 sampleFinish 100]

/-- The server acknowledges the record, and the ADD_RECORD is deleted. -/
def sampleAck : List Event := [.receive (.recordAck (some sampleUid)) 1 101 [], .push, .deleteMsg]

/-- The module after some events on an empty disk. -/
def sampleRun (es : List Event) : Sys :=
  run (next (gDataDir sampleDatadir) storedFrame) (.init fun _ => none) es

theorem output_sample :
    (step (gDataDir sampleDatadir) ((sampleRun (sampleSubmission.take 2)).slot 1)
    sampleFinish).2 = [.saved sampleUid (finishPath (gDataDir sampleDatadir) sampleUid),
      .addRecord sampleRecord] := by
  decide +kernel

theorem saved_sample : (sampleRun sampleSubmission).saved =
    [⟨.outgoingQueue, 1, msgAddRecord, .addRecord sampleRecord⟩] := by
  decide +kernel

theorem faithful_of_no_output {dataDir : Bytes} {i : Input}
    (h : ∀ slot, (step dataDir slot i).2 = [])
    (s : Sys) (player : ℕ) (now : ℤ) : Faithful dataDir s (.signal player i now) := by
  intro uid path hs
  rw [h] at hs
  cases hs

theorem faithful_submission : Along (next (gDataDir sampleDatadir) storedFrame)
    (Faithful (gDataDir sampleDatadir)) (.init fun _ => none) sampleSubmission := by
  refine ⟨faithful_of_no_output (fun _ => rfl) _ _ _, faithful_of_no_output (fun _ => rfl) _ _ _,
    fun uid path hs => ?_, trivial⟩
  change .saved uid path ∈ (step (gDataDir sampleDatadir)
    ((sampleRun (sampleSubmission.take 2)).slot 1) sampleFinish).2 at hs
  rw [output_sample, List.mem_cons, Output.saved.injEq] at hs
  obtain ⟨rfl, -⟩ := hs.resolve_right (by simp)
  exact ⟨by decide, by decide, List.not_mem_nil⟩

theorem faithful_sample : Along (next (gDataDir sampleDatadir) storedFrame)
    (Faithful (gDataDir sampleDatadir)) (.init fun _ => none) (sampleSubmission ++ sampleAck) := by
  have hmem : ⟨.outgoingQueue, 1, msgAddRecord, .addRecord sampleRecord⟩ ∈
      (sampleRun sampleSubmission).saved := by
    rw [saved_sample]
    exact List.mem_cons_self
  refine along_append.mpr ⟨faithful_submission,
    ⟨trivial, Or.inr ⟨_, hmem, rfl, rfl, fun r hr => ?_⟩⟩, trivial, trivial, trivial⟩
  cases hr
  rfl

/-- The run of the sample has its file and a row of its upload. -/
theorem submitted_kept_sample :
    ((run (next (gDataDir sampleDatadir) storedFrame) (.init fun _ => none)
      (sampleSubmission ++ sampleAck)).disk
        (replayPath (gDataDir sampleDatadir) sampleRecord.localUid (str ".krpr"))).isSome ∧
    ((∃ id, HasRow (run (next (gDataDir sampleDatadir) storedFrame) (.init fun _ => none)
        (sampleSubmission ++ sampleAck)).store
          ⟨.outgoingQueue, id, msgAddRecord, .addRecord sampleRecord⟩) ∨
      ∃ id msgType, HasRow (run (next (gDataDir sampleDatadir) storedFrame) (.init fun _ => none)
        (sampleSubmission ++ sampleAck)).store
          ⟨.uploadQueue, id, msgType, .uid sampleRecord.localUid⟩) := by
  have hm : ⟨.outgoingQueue, 1, msgAddRecord, .addRecord sampleRecord⟩ ∈
      (sampleRun (sampleSubmission ++ sampleAck)).saved := by
    decide +kernel
  have ha : sampleRecord.localUid ∉ (sampleRun (sampleSubmission ++ sampleAck)).answered := by
    decide +kernel
  exact submitted_kept sampleDatadir storedFrame
    (fun _ => none) faithful_sample _ hm sampleRecord rfl ha

end KzGlobal.Submit.Kept
