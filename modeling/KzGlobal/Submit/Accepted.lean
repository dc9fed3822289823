import KzGlobal.Submit.Edits

/-! # An accepted upload

The handler of an accepted upload erases one entry of its uid from the retry queue, all rows, and
the uid from the active ones. What is left after it is a second entry, where an acknowledgement came
twice or an upload was rejected before, and a uid that is too long for its buffer
(`accepted_no_trace_iff`). -/

namespace KzGlobal.Submit.Accepted

open KzGlobal.Replay KzGlobal.Lib.Stdio KzGlobal.Lib.Runs KzGlobal.Krp.Format
open KzGlobal.Replay.Text KzGlobal.Replay.Paths KzGlobal.Storage.Queue KzGlobal.Storage.Ledger
open KzGlobal.Submit.System KzGlobal.Submit.Kept KzGlobal.Submit.Upload KzGlobal.Submit.Edits

/-- An entry for the upload of a uid. -/
def isUploadOf (uid : Bytes) (r : RetryMsg Text) : Bool :=
  r.table = .uploadQueue ∧ r.message = .uid uid

/-- The uid is in none of the places that a retry comes from. -/
structure Clean (uid : Bytes) (s : Store Text) : Prop where
  entries : ∀ r ∈ s.retryQueue, isUploadOf uid r = false
  rows : ∀ row ∈ (s.tables .uploadQueue).rows, row.2.text ≠ .uid uid

/-- **No trace of a uid**: no entry, no row, and it is not active. -/
structure NoTrace (uid : Bytes) (s : Sys) : Prop extends Clean uid s.store where
  active : uid ∉ s.active

/-! ### What the handler leaves -/

theorem eraseP_clean_iff {α : Type*} (p : α → Bool) : ∀ l : List α,
    (∀ a ∈ l.eraseP p, p a = false) ↔ (l.filter p).length ≤ 1
  | [] => by simp
  | a :: l => by
    cases ha : p a with
    | true =>
      rw [List.eraseP_cons_of_pos ha, List.filter_cons_of_pos ha, List.length_cons,
        Nat.succ_le_succ_iff, Nat.le_zero, List.length_eq_zero_iff, List.filter_eq_nil_iff]
      exact forall₂_congr fun b _ => (Bool.not_eq_true _).symm.to_iff
    | false =>
      rw [List.eraseP_cons_of_neg (by simp [ha]), List.filter_cons_of_neg (by simp [ha]),
        List.forall_mem_cons, eraseP_clean_iff p l]
      exact and_iff_right ha

theorem clean_cleanup_iff (uid : Bytes) (s : Store Text) :
    Clean uid (kzStorageDeleteByValue (.uid uid) .uploadQueue (eraseUpload (.uid uid) s)) ↔
      (s.retryQueue.filter (isUploadOf uid)).length ≤ 1 := by
  rw [← eraseP_clean_iff]
  refine ⟨fun h => h.entries, fun h => ⟨h, fun row hrow => ?_⟩⟩
  obtain ⟨-, hne⟩ := (mem_rows_deleteRows rfl).mp hrow
  exact of_decide_eq_false (hne rfl)

section Reachable
variable {s : Sys} (h : Inv s)
include h

theorem clean_of_unfit {uid : Bytes} (hu : ¬ FitsUid uid) : Clean uid s.store where
  entries r hr := by
    rw [isUploadOf, decide_eq_false_iff_not]
    rintro ⟨-, hmsg⟩
    obtain ⟨m, hm, he⟩ := h.fits.entries r hr
    exact hu (h.texts m hm uid (by rw [he]; exact hmsg))
  rows row hrow ht := by
    obtain ⟨m, hm, he⟩ := h.fits.rows _ row hrow
    exact hu (h.texts m hm uid (by rw [he]; exact ht))

end Reachable

/-! ### Active uids -/

theorem active_uploadOrRelease (upr : Upload) (uid : Bytes) (s : Sys) :
    (uploadOrRelease upr uid s).active ⊆ s.active := by
  by_cases hroom : s.uploadQueue.length < uploadQueueSize
  · rw [uploadOrRelease_room hroom]
  · rw [uploadOrRelease_full hroom]
    exact Finset.erase_subset _ _

/-- Only segments are active. -/
def Segments (active : Finset Bytes) : Prop := ∀ uid ∈ active, kzWsValidReplaySegment uid = true

section Segments
variable {a a' : Finset Bytes} (h : Segments a)
include h

theorem Segments.sub (hs : a' ⊆ a) : Segments a' := fun uid hm => h uid (hs hm)

theorem Segments.insert {uid : Bytes} (hu : kzWsValidReplaySegment uid = true) :
    Segments (Insert.insert uid a) := by
  intro uid' hm
  rcases Finset.mem_insert.mp hm with rfl | hm
  · exact hu
  · exact h uid' hm

end Segments

section Steps
variable {s : Sys} (h : Segments s.active) (dataDir : Bytes)
include h

theorem segments_handler (now : ℤ) (names : List Bytes) (msgId : ℕ) (reply : Reply) :
    Segments (handler dataDir now names msgId reply s).1.active := by
  cases reply with
  | recordAck localUid =>
    unfold handler kzWsAckRecordAck
    rcases localUid with _ | uid
    · exact h
    · dsimp only
      split_ifs with hv
      · exact h.insert hv
      · exact h
      · exact h
  | fileAck localUid status =>
    unfold handler kzWsAckFileAck
    rcases localUid with _ | uid
    · exact h
    · dsimp only
      split_ifs
      · split <;> exact h.sub (Finset.erase_subset _ _)
      · exact h
      · exact h
  | error hasMessage => exact h
  | delRecordNotify mapname localUid => exact h
  | other hasCallback => exact h

theorem segments_runCallback (now : ℤ) (current : Bytes) {fn : Callback}
    (hfn : ∀ uid, uploadUid fn = some uid → FitsUid uid) :
    Segments (runCallback dataDir now current s fn).active := by
  cases fn with
  | upload metadata => exact h.sub (active_uploadOrRelease ..)
  | requeue uid =>
    unfold runCallback kzWsRequeueReplayUpload
    dsimp only
    split_ifs
    · exact h
    · exact (h.insert (hfn uid rfl).1).sub (active_uploadOrRelease ..)
  | discard uid => exact h.sub (Finset.erase_subset _ _)
  | deleteRecord mapname uid => exact h
  | downloaded mapname uid body =>
    unfold runCallback
    dsimp only
    split_ifs <;> exact h
  | other => exact h

theorem segments_retryPass (hi : Inv s) (delay maxRetries ts : ℤ) :
    Segments (runRetryPass dataDir delay maxRetries ts s).active := by
  unfold runRetryPass
  dsimp only
  split
  · rename_i uid hsent
    have hu := hi.fits_entry (mem_of_retryPass _ _ _ _ _ hsent)
    unfold retryUpload
    dsimp only
    split_ifs
    · exact h
    · exact (h.insert hu.1).sub (active_uploadOrRelease ..)
  · exact h

theorem segments_uploadSend (zstd : Bytes → Option Bytes) :
    Segments (uploadSend zstd s).active := by
  unfold uploadSend
  split
  · exact h
  · split_ifs
    · exact h
    · split
      · exact h.sub (Finset.erase_subset _ _)
      · exact h

/-- **One step makes only segments active.** -/
theorem segments_next (hi : Inv s) (zstd : Bytes → Option Bytes) (e : Event) :
    Segments (next dataDir zstd s e).active := by
  have hrest (hm : ¬ Moves e) : Segments (next dataDir zstd s e).active := by
    rw [(flight_next dataDir zstd s hm).2]
    exact h
  cases e with
  | receive reply msgId now names =>
    unfold System.next receive
    dsimp only
    split
    · exact h
    · exact segments_handler
        (s := { s with answered := settles s.saved msgId reply ++ s.answered })
        h dataDir now names msgId reply
  | runTask now current =>
    unfold System.next runTask
    dsimp only
    split
    · exact h
    · rename_i fn rest hin
      refine segments_runCallback (s := { s with incoming := rest }) h dataDir now current
        (hi.waiting fn ?_)
      rw [Custody.callbacks, hin]
      exact List.mem_cons_self
  | retryPass delay maxRetries ts => exact segments_retryPass h dataDir hi delay maxRetries ts
  | uploadSend => exact segments_uploadSend h zstd
  | uploadPop =>
    unfold System.next uploadPop
    dsimp only
    split_ifs <;> exact h
  | restart => exact fun _ hm => absurd hm (Finset.notMem_empty _)
  | _ => exact hrest id

end Steps

theorem inv_run (dataDir : Bytes) (zstd : Bytes → Option Bytes) (disk : Disk Bytes UInt8)
    (es : List Event) : Inv (run (next dataDir zstd) (.init disk) es) ∧
      Segments (run (next dataDir zstd) (.init disk) es).active :=
  run_invariant (P := fun s : Sys => Inv s ∧ Segments s.active)
    (fun _ e h => ⟨inv_next h.1 dataDir zstd e, segments_next h.2 dataDir h.1 zstd e⟩)
    ⟨Inv.init disk, fun _ hm => absurd hm (Finset.notMem_empty _)⟩ es

/-! ### What the handler promises -/

/-- **What an accepted upload leaves.** -/
theorem noTrace_fileAck_iff {s : Sys} (hi : Inv s) (ha : Segments s.active) (dataDir : Bytes)
    (names : List Bytes) (uid : Bytes) :
    NoTrace uid (kzWsAckFileAck dataDir names (some uid) true s).1 ↔
      (s.store.retryQueue.filter (isUploadOf uid)).length ≤ 1 ∧
      (uid.length ≤ 63 ∨ uid ∉ s.active) := by
  have hclean (hu : ¬ FitsUid uid) : (s.store.retryQueue.filter (isUploadOf uid)).length ≤ 1 := by
    rw [List.filter_eq_nil_iff.mpr fun r hr => by rw [(clean_of_unfit hi hu).entries r hr]; decide]
    exact Nat.zero_le _
  by_cases hv : kzWsValidReplaySegment uid = true
  · -- the handler cleans up for the uid that its buffer holds
    have hr : NoTrace uid (kzWsAckFileAck dataDir names (some uid) true s).1 ↔
        NoTrace uid (cleanup (uid.take 63) s) := by
      unfold kzWsAckFileAck
      dsimp only
      rw [if_neg (not_not.mpr hv), if_pos rfl]
      split
      · exact Iff.rfl
      · exact ⟨fun h => ⟨h.1, h.2⟩, fun h => ⟨h.1, h.2⟩⟩
    rw [hr]
    by_cases hl : uid.length ≤ 63
    · rw [List.take_of_length_le hl, and_iff_left (Or.inl hl), ← clean_cleanup_iff]
      exact ⟨fun h => h.1, fun h => ⟨h, Finset.notMem_erase uid s.active⟩⟩
    · have hu : ¬ FitsUid uid := fun hu => hl hu.2
      have hne : uid ≠ uid.take 63 := fun he => hl (by rw [he, List.length_take]; omega)
      rw [and_iff_right (hclean hu), or_iff_right hl]
      constructor
      · exact fun h hm => h.active (Finset.mem_erase.mpr ⟨hne, hm⟩)
      · intro hn
        have hc := clean_of_unfit hi hu
        refine ⟨⟨fun r hr => hc.entries r (List.mem_of_mem_eraseP hr), fun row hrow => ?_⟩,
          fun hm => ?_⟩
        · exact hc.rows row ((mem_rows_deleteRows rfl).mp hrow).1
        · exact hn (Finset.mem_erase.mp hm).2
  · have hu : ¬ FitsUid uid := fun hu => hv hu.1
    have hn : uid ∉ s.active := fun hm => hv (ha uid hm)
    have hr : (kzWsAckFileAck dataDir names (some uid) true s).1 = s := by
      unfold kzWsAckFileAck
      dsimp only
      rw [if_pos hv]
    rw [hr]
    exact iff_of_true ⟨clean_of_unfit hi hu, hn⟩ ⟨hclean hu, Or.inr hn⟩

/-! ### No later upload -/

theorem Clean.edit {uid : Bytes} {s s' : Store Text} {T : Text → ℕ → StorageTable → Prop}
    (h : Clean uid s) (hT : ∀ msgType table, ¬ T (.uid uid) msgType table) (he : Edit T s s') :
    Clean uid s' := by
  have hrows {s' : Store Text} {table : StorageTable} {p : ℕ × Stored Text → Bool}
      (hs : s'.tables = s.tables) : ∀ row ∈ ((s'.mapTable table fun t => t.deleteWhere p).tables
        .uploadQueue).rows, row.2.text ≠ .uid uid := fun row hrow =>
    h.rows row ((mem_rows_deleteRows hs).mp hrow).1
  cases he with
  | keep => exact h
  | save now ht =>
    refine ⟨fun r hr => ?_, fun row hrow => ?_⟩
    · rcases List.mem_append.mp hr with hr | hr
      · exact h.entries r hr
      · rw [List.mem_singleton.mp hr, isUploadOf, decide_eq_false_iff_not]
        rintro ⟨-, rfl⟩
        exact hT _ _ ht
    · rcases mem_rows_of_save hrow with hrow | ⟨-, rfl⟩
      · exact h.rows row hrow
      · rintro rfl
        exact hT _ _ ht
  | delete id => exact ⟨fun r hr => h.entries r (List.mem_of_mem_filter hr), hrows rfl⟩
  | accept uid' => exact ⟨fun r hr => h.entries r (List.mem_of_mem_eraseP hr), hrows rfl⟩
  | discard uid' => exact ⟨h.entries, hrows rfl⟩
  | clear => exact ⟨fun r hr => h.entries r (List.mem_of_mem_filter hr), hrows rfl⟩
  | requeueAllPending =>
    refine ⟨fun r hr => ?_, h.rows⟩
    obtain ⟨r', hr', rfl⟩ := List.mem_map.mp hr
    exact h.entries r' hr'

theorem Clean.load {uid : Bytes} {s : Store Text} (h : Clean uid s) :
    Clean uid (kzStorageLoad s) := by
  refine ⟨fun r hr => ?_, h.rows⟩
  rw [isUploadOf, decide_eq_false_iff_not]
  rcases List.mem_append.mp hr with hr | hr <;> obtain ⟨row, hrow, rfl⟩ := List.mem_map.mp hr
  · exact fun hu => by cases hu.1
  · exact fun hu => h.rows row hrow hu.2

/-- **No step brings a uid back** but one that saves an upload of it. -/
theorem clean_next {uid : Bytes} {s : Sys} (h : Clean uid s.store) (dataDir : Bytes)
    (zstd : Bytes → Option Bytes) {e : Event}
    (hs : ∀ msgType table, ¬ Saves s e (.uid uid) msgType table) :
    Clean uid (next dataDir zstd s e).store := by
  by_cases he : Renews e
  · unfold Renews at he
    split at he
    · rename_i delay maxRetries ts
      rw [next, store_runRetryPass]
      refine ⟨fun r hr => ?_, h.rows⟩
      obtain ⟨r', hr', hre⟩ := retryPass_entries _ _ _ _ _ r hr
      rw [hre]
      exact h.entries r' hr'
    · exact h.load
    · exact ⟨h.load.entries, h.load.rows⟩
    · exact absurd he id
  · exact h.edit hs (edit_next dataDir s zstd he)

/-- **An accepted upload leaves no trace, exactly when it has one entry.** An upload of `uid` is
accepted in any reachable state. Then on every exit of the handler no entry, no row and no active
uid of it is left exactly when the retry queue held at most one entry for its upload, and the uid
fits its buffer or was not active. And as long as no upload of `uid` is saved again, no later retry
pass uploads it. -/
theorem accepted_no_trace_iff (dataDir : Bytes) (zstd : Bytes → Option Bytes)
    (disk : Disk Bytes UInt8) (es : List Event) (names : List Bytes) (uid : Bytes) :
    let s := run (next dataDir zstd) (.init disk) es
    let s' := (kzWsAckFileAck dataDir names (some uid) true s).1
    (NoTrace uid s' ↔ (s.store.retryQueue.filter (isUploadOf uid)).length ≤ 1 ∧
      (uid.length ≤ 63 ∨ uid ∉ s.active)) ∧
    (NoTrace uid s' → ∀ es',
      Along (next dataDir zstd)
        (fun s e => ∀ msgType table, ¬ Saves s e (.uid uid) msgType table) s' es' →
      ∀ delay maxRetries ts, ∀ r ∈ (retryPass Text.isEmpty delay maxRetries ts
        (run (next dataDir zstd) s' es').store.retryQueue).2, isUploadOf uid r = false) := by
  intro s s'
  obtain ⟨hi, ha⟩ := inv_run dataDir zstd disk es
  refine ⟨noTrace_fileAck_iff hi ha dataDir names uid, fun h es' hC delay maxRetries ts r hr => ?_⟩
  have hrun := hC.run (P := fun s : Sys => Clean uid s.store)
    (fun _ _ h hs => clean_next h dataDir zstd hs) h.1
  exact hrun.entries r (mem_of_retryPass _ _ _ _ _ hr)

/-- The record is acknowledged twice, and its run is uploaded. -/
def sampleTwice : List Event := sampleSubmission ++ sampleAck ++ sampleAck ++
  [.runTask 102 (str "a"), .uploadSend, .uploadPop]

/-- The accepted upload of a record that was acknowledged twice leaves an entry. -/
theorem accepted_leaves_entry :
    (kzWsAckFileAck (gDataDir sampleDatadir) [] (some sampleUid) true
      (sampleRun sampleTwice)).1.store.retryQueue = [⟨0, 0, 2, 106, .uploadQueue, .uid sampleUid⟩] ∧
    ¬ NoTrace sampleUid (kzWsAckFileAck (gDataDir sampleDatadir) [] (some sampleUid) true
      (sampleRun sampleTwice)).1 := by
  have hq : (kzWsAckFileAck (gDataDir sampleDatadir) [] (some sampleUid) true
      (sampleRun sampleTwice)).1.store.retryQueue =
        [⟨0, 0, 2, 106, .uploadQueue, .uid sampleUid⟩] := by
    decide +kernel
  refine ⟨hq, fun h => ?_⟩
  have he := h.entries ⟨0, 0, 2, 106, .uploadQueue, .uid sampleUid⟩ (hq ▸ List.mem_singleton_self _)
  exact absurd he (by decide)

end KzGlobal.Submit.Accepted
