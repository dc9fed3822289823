import KzGlobal.Submit.Upload

/-! # One upload for each run

The upload thread lets go of an upload whose file it cannot open in two steps: it releases the uid,
and then it pops the item; the machine here takes them apart. In every state of a run the queue of
uploads holds one item for a uid, and active uids only, exactly when three things never happen
(`one_upload_iff`): the callback of a RECORD_ACK pushes an upload that is in the queue or not active
any more, an upload is settled while it is in the queue, or the thread meets a file that it cannot
open. -/

namespace KzGlobal.Submit.Flight

open KzGlobal.Lib.Stdio KzGlobal.Lib.Runs KzGlobal.Krp.Format KzGlobal.Replay.Text
open KzGlobal.Replay.Paths
open KzGlobal.Replay.Writer KzGlobal.Storage.Queue KzGlobal.Storage.Ledger
open KzGlobal.Submit.System KzGlobal.Submit.Kept KzGlobal.Submit.Upload

/-- The module, and whether the upload thread has released the first item and is about to pop it. -/
structure State where
  sys : Sys
  released : Bool

/-- The system at the start; nothing was released. -/
def State.init (disk : Disk Bytes UInt8) : State := ⟨.init disk, false⟩

section Machine
variable (dataDir : Bytes) (zstd : Bytes → Option Bytes)

/-- `kz_rp_upload_thread` up to the last chunk of the first upload, or to the release of its uid. -/
def uploadSend (f : State) : State :=
  match f.sys.uploadQueue with
  | [] => f
  | item :: _ =>
    if f.released ∨ f.sys.uploading then f
    else
      match openUpload zstd item.filepath f.sys.disk with
      | none => ⟨kzWsReleaseActiveUpload item.localUid f.sys, true⟩
      | some _ => ⟨System.uploadSend zstd f.sys, false⟩

/-- `g_replay_upload_queue.pop()`. -/
def uploadPop (f : State) : State :=
  if f.released then ⟨{ f.sys with uploadQueue := f.sys.uploadQueue.tail }, false⟩
  else ⟨System.uploadPop f.sys, false⟩

/-- What an event makes of the system and of the note that the upload was released. -/
def next (f : State) : Event → State
  | .uploadSend => uploadSend zstd f
  | .uploadPop => uploadPop f
  | .restart => ⟨restart f.sys, false⟩
  | e => ⟨System.next dataDir zstd f.sys e, f.released⟩

/-- **The release and the pop are the step of the module.** -/
theorem release_pop {s : Sys} {item : Upload} {rest : List Upload}
    (hq : s.uploadQueue = item :: rest)
    (hu : s.uploading = false) (ho : openUpload zstd item.filepath s.disk = none) :
    uploadPop (uploadSend zstd ⟨s, false⟩) = ⟨System.uploadSend zstd s, false⟩ := by
  cases s
  dsimp only at hq hu ho
  subst hq hu
  have hsend (s : Sys) (hs : s.uploadQueue = item :: rest) (hu : s.uploading = false)
      (ho : openUpload zstd item.filepath s.disk = none) :
      uploadSend zstd ⟨s, false⟩ = ⟨kzWsReleaseActiveUpload item.localUid s, true⟩ := by
    unfold uploadSend
    dsimp only
    rw [hs, hu]
    dsimp only
    rw [ho]
    rfl
  rw [hsend _ rfl rfl ho, System.uploadSend]
  dsimp only
  rw [ho]
  rfl

end Machine

/-! ### What is in flight -/

/-- The uids of the uploads that wait or are sent. -/
def queued (s : Sys) : List Bytes := s.uploadQueue.map Upload.localUid

/-- **One upload for a uid, which is active.** -/
def OneEach (s : Sys) : Prop := (queued s).Nodup ∧ ∀ uid ∈ queued s, uid ∈ s.active

/-- A run whose upload is accepted does not wait for another one. -/
def GuardedReply (s : Sys) : Reply → Prop
  | .fileAck (some uid) true =>
    s.handled = none → kzWsValidReplaySegment uid = true → uid.take 63 ∉ queued s
  | _ => True

/-- An upload that is pushed is active and not in the queue, and one that is discarded is not in
it. -/
def GuardedCallback (s : Sys) : Callback → Prop
  | .upload metadata => metadata.localUid ∉ queued s ∧
      (s.uploadQueue.length < uploadQueueSize → metadata.localUid ∈ s.active)
  | .discard uid => uid ∉ queued s
  | _ => True

/-- The steps that keep the uploads apart. -/
def Guarded (zstd : Bytes → Option Bytes) (f : State) : Event → Prop
  | .receive reply _ _ _ => GuardedReply f.sys reply
  | .runTask _ _ => ∀ fn ∈ f.sys.incoming.head?, GuardedCallback f.sys fn
  | .uploadSend => ∀ item ∈ f.sys.uploadQueue.head?, ¬ f.released → ¬ f.sys.uploading →
      openUpload zstd item.filepath f.sys.disk ≠ none
  | _ => True

section Moves
variable {s s' : Sys} (h : OneEach s)
include h

theorem OneEach.congr (hq : s'.uploadQueue = s.uploadQueue) (ha : s'.active = s.active) :
    OneEach s' := by
  unfold OneEach queued
  rw [hq, ha]
  exact h

theorem OneEach.insert (hq : s'.uploadQueue = s.uploadQueue) {uid : Bytes}
    (ha : s'.active = insert uid s.active) : OneEach s' := by
  unfold OneEach queued
  rw [hq, ha]
  exact ⟨h.1, fun uid' hm => Finset.mem_insert_of_mem (h.2 uid' hm)⟩

/-- **A uid is no longer active.** -/
theorem OneEach.erase_iff {uid : Bytes}
    (hs : s'.uploadQueue = s.uploadQueue ∧ s'.active = s.active.erase uid) :
    OneEach s' ↔ uid ∉ queued s := by
  unfold OneEach queued
  rw [hs.1, hs.2]
  constructor
  · rintro ⟨-, hmem⟩ hm
    exact (Finset.mem_erase.mp (hmem uid hm)).1 rfl
  · exact fun hn => ⟨h.1, fun uid' hm => Finset.mem_erase.mpr ⟨fun he => hn (he ▸ hm), h.2 uid' hm⟩⟩

/-- **An upload is pushed.** -/
theorem OneEach.push_iff {upr : Upload} (hq : s'.uploadQueue = s.uploadQueue ++ [upr])
    (ha : s'.active = s.active) :
    OneEach s' ↔ upr.localUid ∉ queued s ∧ upr.localUid ∈ s.active := by
  unfold OneEach queued
  rw [hq, ha, List.map_append, List.map_singleton]
  constructor
  · rintro ⟨hn, hmem⟩
    exact ⟨fun hm => List.disjoint_of_nodup_append hn hm (List.mem_singleton_self _),
      hmem _ (List.mem_append_right _ (List.mem_singleton_self _))⟩
  · rintro ⟨hnew, hact⟩
    refine ⟨h.1.append (List.nodup_singleton _) (List.disjoint_singleton.mpr hnew),
      fun uid hm => ?_⟩
    rcases List.mem_append.mp hm with hm | hm
    · exact h.2 uid hm
    · rwa [List.mem_singleton.mp hm]

theorem OneEach.tail (hq : s'.uploadQueue = s.uploadQueue.tail) (ha : s'.active = s.active) :
    OneEach s' := by
  unfold OneEach queued
  rw [hq, ha, List.map_tail]
  exact ⟨h.1.tail, fun uid hm => h.2 uid (List.mem_of_mem_tail hm)⟩

/-- **A push that gives the uid back where there is no room.** -/
theorem OneEach.uploadOrRelease_iff (upr : Upload) : OneEach (uploadOrRelease upr upr.localUid s) ↔
    upr.localUid ∉ queued s ∧
    (s.uploadQueue.length < uploadQueueSize → upr.localUid ∈ s.active) := by
  by_cases hroom : s.uploadQueue.length < uploadQueueSize
  · rw [uploadOrRelease_room hroom]
    refine Iff.trans (h.push_iff rfl rfl) ?_
    rw [forall_prop_of_true hroom]
  · rw [uploadOrRelease_full hroom]
    refine Iff.trans (h.erase_iff ⟨rfl, rfl⟩) ?_
    exact (and_iff_left fun hr => absurd hr hroom).symm

theorem OneEach.upload {uid : Bytes} (hn : uid ∉ s.active)
    (hs : s'.uploadQueue = s.uploadQueue ∧ s'.active = Insert.insert uid s.active) (path : Bytes) :
    OneEach (uploadOrRelease ⟨path, uid⟩ uid s') := by
  refine ((h.insert hs.1 hs.2).uploadOrRelease_iff ⟨path, uid⟩).mpr ⟨?_, fun _ => ?_⟩
  · rw [queued, hs.1]
    exact fun hm => hn (h.2 uid hm)
  · rw [hs.2]
    exact Finset.mem_insert_self uid _

end Moves

/-! ### The steps -/

section Steps
variable (dataDir : Bytes)

variable {s : Sys} (h : OneEach s)
include h

/-- **A reply**: an accepted upload is no longer active. -/
theorem oneEach_receive_iff (reply : Reply) (msgId : ℕ) (now : ℤ) (names : List Bytes) :
    OneEach (receive dataDir reply msgId now names s) ↔ GuardedReply s reply := by
  unfold receive
  split
  · rename_i held hh
    refine iff_of_true h ?_
    unfold GuardedReply
    split
    · exact fun hn => by rw [hh] at hn; cases hn
    · trivial
  · rename_i hh
    cases reply with
    | recordAck localUid =>
      refine iff_of_true ?_ trivial
      unfold handler kzWsAckRecordAck
      rcases localUid with _ | uid
      · exact h.congr rfl rfl
      · dsimp only
        split_ifs
        · exact h.insert rfl rfl
        · exact h.congr rfl rfl
        · exact h.congr rfl rfl
    | fileAck localUid status =>
      unfold handler kzWsAckFileAck
      rcases localUid with _ | uid
      · exact iff_of_true (h.congr rfl rfl) trivial
      · cases status with
        | false =>
          refine iff_of_true ?_ trivial
          dsimp only
          rw [if_neg Bool.false_ne_true]
          split_ifs <;> exact h.congr rfl rfl
        | true =>
          unfold GuardedReply
          dsimp only
          rw [if_pos rfl]
          split_ifs with hv
          · rw [forall_prop_of_true hh, forall_prop_of_true hv]
            split
            · exact h.erase_iff ⟨rfl, rfl⟩
            · exact h.erase_iff ⟨rfl, rfl⟩
          · exact iff_of_true (h.congr rfl rfl) fun _ hv' => absurd hv' hv
    | error hasMessage => exact iff_of_true (h.congr rfl rfl) trivial
    | delRecordNotify mapname localUid => exact iff_of_true (h.congr rfl rfl) trivial
    | other hasCallback => exact iff_of_true (h.congr rfl rfl) trivial

/-- **A callback.** -/
theorem oneEach_runTask_iff (hi : Inv s) (now : ℤ) (current : Bytes) :
    OneEach (runTask dataDir now current s) ↔ ∀ fn ∈ s.incoming.head?, GuardedCallback s fn := by
  unfold runTask
  split
  · rename_i hin
    rw [hin]
    exact iff_of_true h fun _ hm => by cases hm
  · rename_i fn rest hin
    have hg : (∀ fn' ∈ s.incoming.head?, GuardedCallback s fn') ↔ GuardedCallback s fn := by
      rw [hin, List.head?_cons]
      exact ⟨fun hall => hall fn rfl, fun hfn fn' hm => Option.some.inj hm ▸ hfn⟩
    have hs : OneEach { s with incoming := rest } := h.congr rfl rfl
    rw [hg]
    cases fn with
    | upload metadata => exact hs.uploadOrRelease_iff metadata
    | requeue uid =>
      refine iff_of_true ?_ trivial
      have hu : FitsUid uid := hi.waiting (.requeue uid) (by
        rw [Custody.callbacks, hin]; exact List.mem_cons_self) uid rfl
      unfold runCallback kzWsRequeueReplayUpload
      dsimp only
      split_ifs with hn
      · exact hs
      · rw [List.take_of_length_le hu.2]
        refine h.upload ?_ ?_ _
        · exact fun ha => hn (Or.inr (Or.inr ha))
        · exact ⟨rfl, rfl⟩
    | discard uid => exact h.erase_iff ⟨rfl, rfl⟩
    | deleteRecord mapname uid => exact iff_of_true (h.congr rfl rfl) trivial
    | downloaded mapname uid body =>
      refine iff_of_true ?_ trivial
      unfold runCallback
      dsimp only
      split_ifs
      · exact h.congr rfl rfl
      · exact hs
    | other => exact iff_of_true hs trivial

theorem oneEach_retryPass (hi : Inv s) (delay maxRetries ts : ℤ) :
    OneEach (runRetryPass dataDir delay maxRetries ts s) := by
  unfold runRetryPass
  dsimp only
  split
  · rename_i uid hsent
    have hu := hi.fits_entry (mem_of_retryPass _ _ _ _ _ hsent)
    unfold retryUpload
    dsimp only
    split_ifs with hn
    · exact h.congr rfl rfl
    · rw [List.take_of_length_le hu.2]
      refine h.upload ?_ ?_ _
      · exact fun ha => hn (Or.inl ha)
      · exact ⟨rfl, rfl⟩
  · exact h.congr rfl rfl

end Steps

theorem oneEach_uploadSend_iff {f : State} (h : OneEach f.sys) (zstd : Bytes → Option Bytes) :
    OneEach (uploadSend zstd f).sys ↔ Guarded zstd f .uploadSend := by
  unfold uploadSend Guarded
  split
  · rename_i hq
    rw [hq]
    exact iff_of_true h fun _ hm => by cases hm
  · rename_i item rest hq
    rw [hq, List.head?_cons]
    split_ifs with hbusy
    · refine iff_of_true h fun _ _ hr hu => ?_
      exact absurd hbusy (not_or.mpr ⟨hr, hu⟩)
    · rw [not_or] at hbusy
      split
      · rename_i ho
        refine iff_of_false (fun hs => ?_) fun hall => hall item rfl hbusy.1 hbusy.2 ho
        have he : OneEach (kzWsReleaseActiveUpload item.localUid f.sys) ↔
            item.localUid ∉ queued f.sys := h.erase_iff ⟨rfl, rfl⟩
        refine he.mp hs ?_
        rw [queued, hq]
        exact List.mem_cons_self
      · rename_i disk ho
        refine iff_of_true ?_ fun item' hm _ _ => ?_
        · unfold System.uploadSend
          rw [hq]
          dsimp only
          rw [if_neg hbusy.2, ho]
          exact h.congr hq.symm rfl
        · rw [← Option.some.inj hm, ho]
          exact Option.some_ne_none disk

theorem oneEach_uploadPop {f : State} (h : OneEach f.sys) : OneEach (uploadPop f).sys := by
  unfold uploadPop
  split_ifs
  · exact h.tail rfl rfl
  · unfold System.uploadPop
    split_ifs
    · exact h.tail rfl rfl
    · exact h

/-! ### Runs -/

section Runs
variable (dataDir : Bytes) (zstd : Bytes → Option Bytes)

theorem inv_next (f : State) (e : Event) (h : Inv f.sys) : Inv (next dataDir zstd f e).sys := by
  have hs := Upload.inv_next h dataDir zstd e
  cases e with
  | uploadSend =>
    unfold next uploadSend
    dsimp only
    split
    · exact h
    · split_ifs
      · exact h
      · split
        · exact ⟨h.fits, h.texts, h.queued, h.sent, h.waiting⟩
        · exact hs
  | uploadPop =>
    unfold next uploadPop
    dsimp only
    split_ifs
    · exact ⟨h.fits, h.texts, fun upr hm => h.queued upr (List.mem_of_mem_tail hm), h.sent,
        h.waiting⟩
    · exact hs
  | _ => exact hs

/-- **One step** keeps the uploads apart exactly when it is guarded. -/
theorem oneEach_next_iff (f : State) (e : Event) (hi : Inv f.sys) (h : OneEach f.sys) :
    OneEach (next dataDir zstd f e).sys ↔ Guarded zstd f e := by
  have hrest (hm : ¬ Moves e) : OneEach (System.next dataDir zstd f.sys e) :=
    h.congr (flight_next dataDir zstd f.sys hm).1 (flight_next dataDir zstd f.sys hm).2
  cases e with
  | receive reply msgId now names => exact oneEach_receive_iff dataDir h reply msgId now names
  | runTask now current => exact oneEach_runTask_iff dataDir h hi now current
  | retryPass delay maxRetries ts =>
    exact iff_of_true (oneEach_retryPass dataDir h hi delay maxRetries ts) trivial
  | uploadSend => exact oneEach_uploadSend_iff h zstd
  | uploadPop => exact iff_of_true (oneEach_uploadPop h) trivial
  | restart =>
    refine iff_of_true ⟨List.nodup_nil, fun _ hm => ?_⟩ trivial
    cases hm
  | _ => exact iff_of_true (hrest id) trivial

/-- **One upload for each run, exactly under guard.** In every state of a run the queue of uploads,
with the one that is sent, holds one item for a uid and active uids only, exactly when at every step
of the run the upload that a callback of a RECORD_ACK pushes is active and not in the queue, no
upload that is accepted or discarded is in the queue, and the file of the upload that is taken on
opens. -/
theorem one_upload_iff (disk : Disk Bytes UInt8) (es : List Event) :
    (∀ es', es' <+: es → OneEach (run (next dataDir zstd) (.init disk) es').sys) ↔
      Along (next dataDir zstd) (Guarded zstd) (.init disk) es :=
  forall_prefix_iff (P := fun f : State => OneEach f.sys) (J := fun f : State => Inv f.sys)
    (inv_next dataDir zstd) (oneEach_next_iff dataDir zstd) (Inv.init disk)
    ⟨List.nodup_nil, fun _ hm => absurd hm List.not_mem_nil⟩

end Runs

/-- The server acknowledges the record again, and both callbacks run. -/
def sampleTwice : List Event := sampleSubmission ++ sampleAck ++ sampleAck ++
  [.runTask 102 (str "a"), .runTask 102 (str "a")]

/-- Two acknowledgements of one record put two uploads of it into the queue. -/
theorem two_uploads :
    queued (run (next (gDataDir sampleDatadir) storedFrame) (.init fun _ => none) sampleTwice).sys =
      [sampleUid, sampleUid] ∧
    ¬ OneEach (run (next (gDataDir sampleDatadir) storedFrame) (.init fun _ => none)
      sampleTwice).sys := by
  have hq : queued (run (next (gDataDir sampleDatadir) storedFrame) (.init fun _ => none)
      sampleTwice).sys = [sampleUid, sampleUid] := by
    decide +kernel
  refine ⟨hq, fun h => ?_⟩
  have hn := h.1
  rw [hq] at hn
  exact (List.nodup_cons.mp hn).1 (List.mem_singleton_self _)

end KzGlobal.Submit.Flight
