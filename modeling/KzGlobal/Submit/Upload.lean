import KzGlobal.Submit.Kept

/-! # A rejected upload

An upload that was sent stays in `g_active_uploads`: only a failed one leaves it. The callback of a
rejected upload takes an active upload for one that is under way and does nothing. So for every uid
whose upload was sent, in every reachable state, the callback uploads the run again exactly when the
uid is not active (`rejected_requeued_iff`), and after the plain exchange of RECORD_ACK, upload and
FILE_ACK it is (`rejected_not_requeued`). -/

namespace KzGlobal.Submit.Upload

open KzGlobal.Lib.Stdio KzGlobal.Lib.Runs KzGlobal.Krp.Format
open KzGlobal.Replay.Text KzGlobal.Replay.Writer KzGlobal.Replay.Paths
open KzGlobal.Storage.Queue KzGlobal.Storage.Ledger KzGlobal.Submit.System KzGlobal.Submit.Custody
open KzGlobal.Submit.Kept

/-! ### The uids of uploads -/

/-- A segment that fits `local_uid`. -/
def FitsUid (uid : Bytes) : Prop := kzWsValidReplaySegment uid = true ∧ uid.length ≤ 63

theorem fitsUid_take {uid : Bytes} (h : kzWsValidReplaySegment uid = true) :
    FitsUid (uid.take 63) := by
  by_cases hl : uid.length ≤ 63
  · rw [List.take_of_length_le hl]
    exact ⟨h, hl⟩
  · have hlen : (uid.take 63).length = 63 := by
      rw [List.length_take]
      omega
    have hne {v : Bytes} (hv : v.length < 63) : (uid.take 63 != v) = true := by
      rw [bne_iff_ne]
      rintro rfl
      omega
    refine ⟨?_, hlen.le⟩
    unfold kzWsValidReplaySegment at h ⊢
    rw [Bool.and_eq_true] at h
    rw [hne (by decide), hne (by decide), hne (by decide)]
    exact List.all_eq_true.mpr fun b hb => List.all_eq_true.mp h.2 b (List.mem_of_mem_take hb)

/-- The uid that a callback uploads. -/
def uploadUid : Callback → Option Bytes
  | .upload metadata => some metadata.localUid
  | .requeue uid => some uid
  | _ => none

/-- **The invariant**: every upload, at any stage, has a uid that fits. -/
structure Inv (s : Sys) : Prop where
  fits : Fits s.saved s.store
  texts : ∀ m ∈ s.saved, ∀ uid, m.text = .uid uid → FitsUid uid
  queued : ∀ upr ∈ s.uploadQueue, FitsUid upr.localUid
  sent : ∀ uid ∈ s.sent, FitsUid uid
  waiting : ∀ fn ∈ callbacks s, ∀ uid, uploadUid fn = some uid → FitsUid uid

theorem Inv.init (disk : Disk Bytes UInt8) : Inv (.init disk) where
  fits := Fits.empty
  texts _ hm := absurd hm List.not_mem_nil
  queued _ hm := absurd hm List.not_mem_nil
  sent _ hm := absurd hm List.not_mem_nil
  waiting _ hm := absurd hm List.not_mem_nil

section Steps
variable {s : Sys} (h : Inv s)
include h

theorem Inv.save (now : ℤ) {text : Text} (ht : ∀ uid, text = .uid uid → FitsUid uid) (msgType : ℕ)
    (table : StorageTable) : Inv (s.save now text msgType table) where
  fits := h.fits.save now text msgType table
  texts m hm uid he := by
    rcases List.mem_append.mp hm with hm | hm
    · exact h.texts m hm uid he
    · rw [List.mem_singleton.mp hm] at he
      exact ht uid he
  queued := h.queued
  sent := h.sent
  waiting := h.waiting

theorem Inv.store {store : Store Text} (hf : Fits s.saved store) : Inv { s with store } :=
  ⟨hf, h.texts, h.queued, h.sent, h.waiting⟩

theorem Inv.callbacks {incoming : List Callback} {handled : Option (Option Callback × ℕ)}
    (hc : ∀ fn ∈ incoming ++ (handled.bind Prod.fst).toList, fn ∈ Custody.callbacks s ∨
      ∀ uid, uploadUid fn = some uid → FitsUid uid) : Inv { s with incoming, handled } where
  fits := h.fits
  texts := h.texts
  queued := h.queued
  sent := h.sent
  waiting fn hfn := by
    rcases hc fn hfn with hfn | hfn
    · exact h.waiting fn hfn
    · exact hfn

theorem Inv.uploadOrRelease {upr : Upload} (hu : FitsUid upr.localUid) (uid : Bytes) :
    Inv (uploadOrRelease upr uid s) := by
  by_cases hroom : s.uploadQueue.length < uploadQueueSize
  · rw [uploadOrRelease_room hroom]
    refine ⟨h.fits, h.texts, fun upr' hm => ?_, h.sent, h.waiting⟩
    rcases List.mem_append.mp hm with hm | hm
    · exact h.queued upr' hm
    · rw [List.mem_singleton.mp hm]
      exact hu
  · rw [uploadOrRelease_full hroom]
    exact ⟨h.fits, h.texts, h.queued, h.sent, h.waiting⟩

theorem Inv.deleteMsg : Inv (deleteMsg s) := by
  unfold System.deleteMsg
  split
  · rename_i id hh
    have hf : Fits s.saved (if 0 < id then kzStorageDelete id .outgoingQueue s.store
        else s.store) := by
      split_ifs
      · exact h.fits.delete id .outgoingQueue
      · exact h.fits
    refine (h.store hf).callbacks fun fn hfn => Or.inl (List.mem_append_left _ ?_)
    simpa using hfn
  · exact h

theorem Inv.fits_entry {retryCount msgType msgId : ℕ} {timestamp : ℤ} {table : StorageTable}
    {uid : Bytes} (hr : ⟨retryCount, msgType, msgId, timestamp, table,
      .uid uid⟩ ∈ s.store.retryQueue) :
    FitsUid uid := by
  obtain ⟨m, hm, he⟩ := h.fits.entries _ hr
  rw [Saved.IsEntry] at he
  exact h.texts m hm uid (by rw [he])

end Steps

/-! ### The threads -/

theorem inv_output (now : ℤ) : ∀ (os : List Output) {s : Sys}, Inv s → Inv (os.foldl (output now) s)
  | [], _, h => h
  | o :: os, s, h => by
    refine inv_output now os ?_
    cases o with
    | saved uid path => exact ⟨h.fits, h.texts, h.queued, h.sent, h.waiting⟩
    | compress path =>
      unfold output
      dsimp only
      split_ifs
      · exact ⟨h.fits, h.texts, h.queued, h.sent, h.waiting⟩
      · exact h
    | addRecord r => exact h.save now (fun _ he => by cases he) _ _

/-- **What a handler leaves to upload** has a uid that fits. -/
theorem fitsUid_handler {dataDir : Bytes} {now : ℤ} {names : List Bytes} {msgId : ℕ}
    {reply : Reply} {s : Sys}
    {fn : Callback} (hfn : (handler dataDir now names msgId reply s).2 = some fn) {uid : Bytes}
    (hup : uploadUid fn = some uid) : FitsUid uid := by
  cases reply with
  | recordAck localUid =>
    unfold handler kzWsAckRecordAck at hfn
    rcases localUid with _ | uid
    · cases hfn
    · dsimp only at hfn
      split_ifs at hfn with hv
      cases hfn
      cases hup
      exact fitsUid_take hv
  | fileAck localUid status =>
    unfold handler kzWsAckFileAck at hfn
    rcases localUid with _ | uid
    · cases hfn
    · dsimp only at hfn
      split_ifs at hfn with hv hs
      · split at hfn
        · cases hfn
        · cases hfn
          cases hup
      · cases hfn
        cases hup
        exact fitsUid_take hv
  | error hasMessage =>
    unfold handler kzWsAckError at hfn
    dsimp only at hfn
    split_ifs at hfn
    split at hfn
    · split_ifs at hfn
      cases hfn
      cases hup
    · cases hfn
  | delRecordNotify mapname localUid =>
    unfold handler kzWsAckDelRecordNotify at hfn
    dsimp only at hfn
    split at hfn
    · split_ifs at hfn
      cases hfn
      cases hup
    · cases hfn
  | other hasCallback =>
    unfold handler at hfn
    dsimp only at hfn
    split_ifs at hfn
    cases hfn
    cases hup

section Threads
variable {s : Sys} (h : Inv s) (dataDir : Bytes)
include h

theorem inv_handler (now : ℤ) (names : List Bytes) (msgId : ℕ) (reply : Reply) :
    Inv (handler dataDir now names msgId reply s).1 := by
  cases reply with
  | recordAck localUid =>
    unfold handler kzWsAckRecordAck
    rcases localUid with _ | uid
    · exact h
    · dsimp only
      split_ifs with hv
      · have hs : Inv { s with active := insert uid s.active } :=
          ⟨h.fits, h.texts, h.queued, h.sent, h.waiting⟩
        exact hs.save now (fun uid' he => Text.uid.inj he ▸ fitsUid_take hv) 0 .uploadQueue
      · exact h
      · exact h
  | fileAck localUid status =>
    have hclean (uid : Bytes) (disk : Disk Bytes UInt8) : Inv (cleanup uid { s with disk }) :=
      ⟨(h.fits.eraseUpload (.uid uid)).deleteByValue (.uid uid) .uploadQueue, h.texts, h.queued,
        h.sent, h.waiting⟩
    unfold handler kzWsAckFileAck
    rcases localUid with _ | uid
    · exact h
    · dsimp only
      split_ifs
      · split
        · exact hclean _ s.disk
        · exact hclean _ _
      · exact h
      · exact h
  | error hasMessage => exact h
  | delRecordNotify mapname localUid => exact h
  | other hasCallback => exact h

theorem inv_receive (reply : Reply) (msgId : ℕ) (now : ℤ) (names : List Bytes) :
    Inv (receive dataDir reply msgId now names s) := by
  unfold receive
  split
  · exact h
  · have hs : Inv { s with answered := settles s.saved msgId reply ++ s.answered } :=
      ⟨h.fits, h.texts, h.queued, h.sent, h.waiting⟩
    refine (inv_handler hs dataDir now names msgId reply).callbacks fun fn hmem => ?_
    rcases List.mem_append.mp hmem with hmem | hmem
    · exact Or.inl (List.mem_append_left _ hmem)
    · exact Or.inr fun uid hup => fitsUid_handler (Option.mem_toList.mp hmem) hup

theorem inv_runCallback (now : ℤ) (current : Bytes) {fn : Callback}
    (hfn : ∀ uid, uploadUid fn = some uid → FitsUid uid) :
    Inv (runCallback dataDir now current s fn) := by
  cases fn with
  | upload metadata => exact h.uploadOrRelease (hfn _ rfl) _
  | requeue uid =>
    have hu := hfn uid rfl
    unfold runCallback kzWsRequeueReplayUpload
    dsimp only
    split_ifs
    · exact h
    · have hs : Inv { s with active := insert uid s.active } :=
        ⟨h.fits, h.texts, h.queued, h.sent, h.waiting⟩
      exact (hs.save now (fun uid' he => Text.uid.inj he ▸ hu) 0 .uploadQueue).uploadOrRelease
        (fitsUid_take hu.1) uid
  | discard uid =>
    exact ⟨h.fits.deleteByValue (.uid uid) .uploadQueue, h.texts, h.queued, h.sent, h.waiting⟩
  | deleteRecord mapname uid => exact ⟨h.fits, h.texts, h.queued, h.sent, h.waiting⟩
  | downloaded mapname uid body =>
    unfold runCallback
    dsimp only
    split_ifs
    · exact ⟨h.fits, h.texts, h.queued, h.sent, h.waiting⟩
    · exact h
  | other => exact h

theorem inv_retryPass (delay maxRetries : ℤ) (ts : ℤ) :
    Inv (runRetryPass dataDir delay maxRetries ts s) := by
  have hs := h.store (h.fits.retry (retryPass_entries Text.isEmpty delay maxRetries ts _))
  unfold runRetryPass
  dsimp only
  split
  · rename_i uid hsent
    have hu := h.fits_entry (mem_of_retryPass _ _ _ _ _ hsent)
    unfold retryUpload
    dsimp only
    split_ifs
    · exact hs
    · refine Inv.uploadOrRelease ?_ (fitsUid_take hu.1) uid
      exact ⟨hs.fits, hs.texts, hs.queued, hs.sent, hs.waiting⟩
  · exact hs

theorem inv_uploadSend (zstd : Bytes → Option Bytes) : Inv (uploadSend zstd s) := by
  unfold uploadSend
  split
  · exact h
  · rename_i item rest hq
    have hmem {upr : Upload} (hm : upr ∈ item :: rest) : FitsUid upr.localUid :=
      h.queued upr (hq ▸ hm)
    split_ifs
    · exact h
    · split
      · exact ⟨h.fits, h.texts, fun upr hm => hmem (List.mem_cons_of_mem _ hm), h.sent, h.waiting⟩
      · refine ⟨h.fits, h.texts, h.queued, fun uid hm => ?_, h.waiting⟩
        rcases List.mem_cons.mp hm with rfl | hm
        · exact hmem List.mem_cons_self
        · exact h.sent uid hm

/-- **One step keeps the invariant.** -/
theorem inv_next (zstd : Bytes → Option Bytes) (e : Event) : Inv (next dataDir zstd s e) := by
  cases e with
  | signal player i now =>
    exact inv_output now _ ⟨h.fits, h.texts, h.queued, h.sent, h.waiting⟩
  | save m text now => exact h.save now (fun _ he => by cases he) _ _
  | receive reply msgId now names => exact inv_receive h dataDir reply msgId now names
  | push =>
    obtain ⟨incoming, handled, hp, he⟩ := push_passesOn s
    exact (he ▸ h.callbacks fun fn hfn => Or.inl (hp.callbacks fn hfn) : Inv (push s))
  | giveUp =>
    obtain ⟨incoming, handled, hp, he⟩ := giveUp_passesOn s
    exact (he ▸ h.callbacks fun fn hfn => Or.inl (hp.callbacks fn hfn) : Inv (giveUp s))
  | deleteMsg => exact h.deleteMsg
  | runTask now current =>
    unfold System.next runTask
    dsimp only
    split
    · exact h
    · rename_i fn rest hin
      refine inv_runCallback ?_ dataDir now current (h.waiting fn ?_)
      · refine h.callbacks fun fn' hfn => Or.inl ?_
        rw [Custody.callbacks, hin]
        exact List.mem_cons_of_mem _ hfn
      · rw [Custody.callbacks, hin]
        exact List.mem_cons_self
  | retryPass delay maxRetries ts => exact inv_retryPass h dataDir delay maxRetries ts
  | clear => exact h.store h.fits.clear
  | load => exact h.store h.fits.load
  | requeueAllPending => exact h.store h.fits.requeueAllPending
  | uploadSend => exact inv_uploadSend h zstd
  | uploadPop =>
    unfold System.next uploadPop
    dsimp only
    split_ifs
    · exact ⟨h.fits, h.texts, fun upr hm => h.queued upr (List.mem_of_mem_tail hm), h.sent,
        h.waiting⟩
    · exact h
  | compress =>
    unfold System.next compressNext
    dsimp only
    split
    · exact h
    · exact ⟨h.fits, h.texts, h.queued, h.sent, h.waiting⟩
  | prune mapname names => exact ⟨h.fits, h.texts, h.queued, h.sent, h.waiting⟩
  | downloaded mapname uid body =>
    unfold System.next downloaded
    dsimp only
    split_ifs
    · refine h.callbacks fun fn hfn => ?_
      rw [List.append_assoc, List.mem_append, List.mem_append] at hfn
      rcases hfn with hfn | hfn | hfn
      · exact Or.inl (List.mem_append_left _ hfn)
      · refine Or.inr fun uid' hup => ?_
        rw [List.mem_singleton.mp hfn] at hup
        cases hup
      · exact Or.inl (List.mem_append_right _ hfn)
    · exact h
  | restart =>
    exact ⟨h.fits.load.weaken (fun _ => le_rfl) (fun _ _ hr => hr) h.fits.load.entries, h.texts,
      fun _ hm => absurd hm List.not_mem_nil, h.sent, fun _ hm => absurd hm List.not_mem_nil⟩

end Threads

/-! ### The steps that leave the uploads alone -/

/-- The steps that put an upload into the queue or take one out, or change which uids are active. -/
def Moves : Event → Prop
  | .receive _ _ _ _ => True
  | .runTask _ _ => True
  | .retryPass _ _ _ => True
  | .uploadSend => True
  | .uploadPop => True
  | .restart => True
  | _ => False

theorem flight_output (now : ℤ) : ∀ (os : List Output) (s : Sys),
    (os.foldl (output now) s).uploadQueue = s.uploadQueue ∧
    (os.foldl (output now) s).active = s.active
  | [], _ => ⟨rfl, rfl⟩
  | o :: os, s => by
    rw [List.foldl_cons]
    obtain ⟨hq, ha⟩ := flight_output now os (output now s o)
    rw [hq, ha]
    cases o with
    | saved uid path => exact ⟨rfl, rfl⟩
    | compress path =>
      unfold output
      dsimp only
      split_ifs <;> exact ⟨rfl, rfl⟩
    | addRecord r => exact ⟨rfl, rfl⟩

/-- **The other steps** leave the queue of uploads and the active uids alone. -/
theorem flight_next (dataDir : Bytes) (zstd : Bytes → Option Bytes) (s : Sys) {e : Event}
    (he : ¬ Moves e) :
    (next dataDir zstd s e).uploadQueue = s.uploadQueue ∧
    (next dataDir zstd s e).active = s.active := by
  cases e with
  | signal player i now => exact flight_output now _ _
  | save m text now => exact ⟨rfl, rfl⟩
  | push =>
    obtain ⟨incoming, handled, -, hp⟩ := push_passesOn s
    change (push s).uploadQueue = _ ∧ (push s).active = _
    rw [hp]
    exact ⟨rfl, rfl⟩
  | giveUp =>
    obtain ⟨incoming, handled, -, hp⟩ := giveUp_passesOn s
    change (giveUp s).uploadQueue = _ ∧ (giveUp s).active = _
    rw [hp]
    exact ⟨rfl, rfl⟩
  | deleteMsg =>
    unfold System.next deleteMsg
    dsimp only
    split
    · exact ⟨rfl, rfl⟩
    · exact ⟨rfl, rfl⟩
  | clear => exact ⟨rfl, rfl⟩
  | load => exact ⟨rfl, rfl⟩
  | requeueAllPending => exact ⟨rfl, rfl⟩
  | compress =>
    unfold System.next compressNext
    dsimp only
    split
    · exact ⟨rfl, rfl⟩
    · exact ⟨rfl, rfl⟩
  | prune mapname names => exact ⟨rfl, rfl⟩
  | downloaded mapname uid body =>
    unfold System.next downloaded
    dsimp only
    split_ifs
    · exact ⟨rfl, rfl⟩
    · exact ⟨rfl, rfl⟩
  | _ => exact absurd trivial he

theorem fitsUid_of_sent {dataDir : Bytes} {zstd : Bytes → Option Bytes} {disk : Disk Bytes UInt8}
    {es : List Event} {uid : Bytes} (hs : uid ∈ (run (next dataDir zstd) (.init disk) es).sent) :
    FitsUid uid :=
  (run_invariant (P := Inv) (fun _ e h => inv_next h dataDir zstd e) (Inv.init disk) es).sent uid hs

/-! ### The callback of a rejected upload -/

/-- The file that is uploaded again exists where one of the two does. -/
theorem retryPath_ne_none {dataDir uid : Bytes} (h : kzWsValidReplaySegment uid = true)
    {disk : Disk Bytes UInt8} (hf : (disk (replayPath dataDir uid (str ".krpz"))).isSome ∨
      (disk (replayPath dataDir uid (str ".krpr"))).isSome) :
    disk (retryPath dataDir uid disk) ≠ none := by
  unfold retryPath
  dsimp only
  split_ifs with hz
  · exact Option.isSome_iff_ne_none.mp hz
  · rw [replaceExtension_krpz _ h]
    exact Option.isSome_iff_ne_none.mp (hf.resolve_left hz)

/-- **A rejected upload is retried exactly when it is not active.** The upload of `uid` was sent in
a reachable state. Then the handler of a FILE_ACK with status false leaves a callback, and this
callback, in any later state with a file of the run and room in the queue, puts an upload for `uid`
into the queue if and only if `uid` is not in `g_active_uploads`. -/
theorem rejected_requeued_iff (dataDir : Bytes) (zstd : Bytes → Option Bytes)
    (disk : Disk Bytes UInt8)
    (es : List Event) {uid : Bytes} (hs : uid ∈ (run (next dataDir zstd) (.init disk) es).sent) :
    (∀ names s, kzWsAckFileAck dataDir names (some uid) false s = (s, some (.requeue uid))) ∧
    ∀ s : Sys, (s.disk (replayPath dataDir uid (str ".krpz"))).isSome ∨
        (s.disk (replayPath dataDir uid (str ".krpr"))).isSome →
      s.uploadQueue.length < uploadQueueSize → ∀ now current,
        ((∃ path, (runCallback dataDir now current s (.requeue uid)).uploadQueue =
          s.uploadQueue ++ [⟨path, uid⟩]) ↔ uid ∉ s.active) := by
  obtain ⟨hv, hl⟩ := fitsUid_of_sent hs
  have htake : uid.take 63 = uid := List.take_of_length_le hl
  refine ⟨fun names s => ?_, fun s hf hroom now current => ?_⟩
  · unfold kzWsAckFileAck
    dsimp only
    rw [if_neg (not_not.mpr hv), htake]
    rfl
  · have hfile := retryPath_ne_none hv hf
    unfold runCallback kzWsRequeueReplayUpload
    dsimp only
    constructor
    · rintro ⟨path, he⟩ ha
      rw [if_pos (Or.inr (Or.inr ha))] at he
      have := congrArg List.length he
      rw [List.length_append, List.length_singleton] at this
      omega
    · intro ha
      rw [if_neg (by simp [segment_ne_nil hv, hfile, ha]), htake]
      refine ⟨(retryPath dataDir uid s.disk).take 254, ?_⟩
      rw [uploadOrRelease_room]
      · rfl
      · exact hroom

/-- The acknowledged run is uploaded. -/
def sampleUpload : List Event :=
  sampleSubmission ++ sampleAck ++ [.runTask 101 (str "a"), .uploadSend, .uploadPop]

/-- The server rejects the upload. -/
def sampleReject : List Event :=
  [.receive (.fileAck (some sampleUid) false) 0 102 [], .push, .runTask 102 (str "a")]

theorem sent_sample : sampleUid ∈ (sampleRun sampleUpload).sent := by
  decide +kernel

theorem rejected_requeued_iff_sample :
    (∀ names s, kzWsAckFileAck (gDataDir sampleDatadir) names (some sampleUid) false s =
      (s, some (.requeue sampleUid))) ∧
    ∀ s : Sys, (s.disk (replayPath (gDataDir sampleDatadir) sampleUid (str ".krpz"))).isSome ∨
        (s.disk (replayPath (gDataDir sampleDatadir) sampleUid (str ".krpr"))).isSome →
      s.uploadQueue.length < uploadQueueSize → ∀ now current,
        ((∃ path, (runCallback (gDataDir sampleDatadir) now current s
          (.requeue sampleUid)).uploadQueue = s.uploadQueue ++ [⟨path, sampleUid⟩]) ↔
            sampleUid ∉ s.active) :=
  rejected_requeued_iff _ storedFrame (fun _ => none) sampleUpload sent_sample

/-- The plain exchange: the upload was sent, the files are there, the queue is empty, the rejection
is handled and its callback run, and nothing is uploaded again. -/
theorem rejected_not_requeued :
    sampleUid ∈ (sampleRun sampleUpload).sent ∧
    ((sampleRun sampleUpload).disk
      (replayPath (gDataDir sampleDatadir) sampleUid (str ".krpz"))).isSome ∧
    ((sampleRun sampleUpload).disk
      (replayPath (gDataDir sampleDatadir) sampleUid (str ".krpr"))).isSome ∧
    (sampleRun (sampleUpload ++ sampleReject.take 2)).incoming = [.requeue sampleUid] ∧
    (sampleRun (sampleUpload ++ sampleReject.take 2)).uploadQueue = [] ∧
    (sampleRun (sampleUpload ++ sampleReject)).uploadQueue = [] := by
  decide +kernel

end KzGlobal.Submit.Upload
