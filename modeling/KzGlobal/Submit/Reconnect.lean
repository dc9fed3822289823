import KzGlobal.Storage.Pending
import KzGlobal.Submit.Edits

/-! # What a reconnect makes due

When a connection opens, every entry of the retry queue becomes due. What is pending is more: a pass
drops the entry of a message that was sent too often, whose row stays, and an upload that was under
way when the connection was lost is still active. So a row has an entry that is due exactly when no
pass dropped it since the queue was built, and the entry of an upload makes the pass upload it
exactly when its uid is not active (`reconnect_due_iff`). -/

namespace KzGlobal.Submit.Reconnect

open KzGlobal.Lib.Stdio KzGlobal.Lib.Runs KzGlobal.Krp.Format
open KzGlobal.Replay.Text KzGlobal.Replay.Paths
open KzGlobal.Storage.Queue KzGlobal.Storage.Ledger KzGlobal.Storage.Pending
open KzGlobal.Submit.System KzGlobal.Submit.Kept KzGlobal.Submit.Upload KzGlobal.Submit.Edits

/-! ### What was dropped -/

/-- The entries that were dropped since the queue was last built. -/
def tick (dropped : List (StorageTable × ℕ)) (s : Sys) : Event → List (StorageTable × ℕ)
  | .retryPass delay maxRetries ts =>
    dropped ++ (retryDrops Text.isEmpty delay maxRetries ts s.store.retryQueue).map key
  | .load => []
  | .restart => []
  | _ => dropped

/-- Table and id of the entries that the retry passes of a run dropped since its last load. -/
def dropped (dataDir : Bytes) (zstd : Bytes → Option Bytes) (disk : Disk Bytes UInt8)
    (es : List Event) : List (StorageTable × ℕ) :=
  (run (withGhost (next dataDir zstd) tick) ([], .init disk) es).1

/-! ### The invariant -/

/-- A text that is saved with its type in its table: an upload is that of a uid that fits, and has
type 0. -/
def Proper (text : Text) (msgType : ℕ) (table : StorageTable) : Prop :=
  (table = .uploadQueue → msgType = 0 ∧ ∃ uid, text = .uid uid ∧ FitsUid uid) ∧
    (msgType = msgAddRecord → ∃ r, text = .addRecord r)

/-- **The invariant**: every pending message has its entry, or a pass dropped it. -/
def Pends (dropped : List (StorageTable × ℕ)) (s : Store Text) : Prop :=
  ∃ log, Covered log dropped s ∧ ∀ m ∈ log, Proper m.text m.msgType m.table

theorem Pends.edit {dropped : List (StorageTable × ℕ)} {s s' : Store Text}
    {T : Text → ℕ → StorageTable → Prop} (h : Pends dropped s)
    (hT : ∀ {text msgType table}, T text msgType table → Proper text msgType table)
    (he : Edit T s s') : Pends dropped s' := by
  obtain ⟨log, hc, hlog⟩ := h
  cases he with
  | keep => exact ⟨log, hc, hlog⟩
  | save now ht =>
    refine ⟨_, hc.save now _ fun hup => ((hT ht).1 hup).1, fun m hm => ?_⟩
    rcases List.mem_append.mp hm with hm | hm
    · exact hlog m hm
    · rw [List.mem_singleton.mp hm]
      exact hT ht
  | delete id => exact ⟨log, hc.delete id _, hlog⟩
  | accept uid => exact ⟨log, hc.accept _, hlog⟩
  | discard uid => exact ⟨log, hc.discard _, hlog⟩
  | clear => exact ⟨log, hc.clear, hlog⟩
  | requeueAllPending => exact ⟨log, hc.requeueAllPending, hlog⟩

theorem msgType_ne (m : OtherMsg) : m.msgType ≠ msgAddRecord := by
  cases m <;> decide

theorem proper_saves {s : Sys} (h : Inv s) {e : Event} {text : Text} {msgType : ℕ}
    {table : StorageTable} (hs : Saves s e text msgType table) : Proper text msgType table := by
  unfold Saves at hs
  split at hs
  · obtain ⟨hr, rfl, rfl⟩ := hs
    exact ⟨fun ht => (by cases ht), fun _ => hr⟩
  · obtain ⟨-, rfl, rfl⟩ := hs
    exact ⟨fun ht => (by cases ht), fun ht => absurd ht (msgType_ne _)⟩
  · obtain ⟨⟨hv, rfl⟩, rfl, rfl⟩ := hs
    exact ⟨fun _ => ⟨rfl, _, rfl, fitsUid_take hv⟩, fun ht => (by cases ht)⟩
  · obtain ⟨⟨uid, rest, hin, rfl⟩, rfl, rfl⟩ := hs
    refine ⟨fun _ => ⟨rfl, _, rfl, h.waiting (.requeue uid) ?_ uid rfl⟩, fun ht => (by cases ht)⟩
    rw [Custody.callbacks, hin]
    exact List.mem_cons_self
  · exact absurd hs id

theorem pends_next {dataDir : Bytes} {zstd : Bytes → Option Bytes}
    {dropped : List (StorageTable × ℕ)}
    {s : Sys} (hi : Inv s) (h : Pends dropped s.store) (e : Event) :
    Pends (tick dropped s e) (next dataDir zstd s e).store := by
  by_cases he : Renews e
  · obtain ⟨log, hc, hlog⟩ := h
    unfold Renews at he
    split at he
    · rename_i delay maxRetries ts
      refine ⟨log, ?_, hlog⟩
      rw [next, store_runRetryPass]
      exact hc.pass Text.isEmpty delay maxRetries ts
    · exact ⟨log, hc.load, hlog⟩
    · have hl := hc.load
      exact ⟨log, ⟨hl.fits.weaken (fun _ => le_rfl) (fun _ _ hr => hr) hl.fits.entries, hl.uploads,
        hl.keys, hl.bound, hl.gone, hl.covered⟩, hlog⟩
    · exact absurd he id
  · have htick : tick dropped s e = dropped := by
      unfold tick
      unfold Renews at he
      split <;> first | rfl | exact absurd trivial he
    rw [htick]
    exact h.edit (fun hs => proper_saves hi hs) (edit_next dataDir s zstd he)

theorem pends_run (dataDir : Bytes) (zstd : Bytes → Option Bytes) (disk : Disk Bytes UInt8)
    (es : List Event) : Inv (run (next dataDir zstd) (.init disk) es) ∧
      Pends (dropped dataDir zstd disk es) (run (next dataDir zstd) (.init disk) es).store := by
  have hstep (gs : List (StorageTable × ℕ) × Sys) (e : Event)
      (h : Inv gs.2 ∧ Pends gs.1 gs.2.store) :
      Inv (withGhost (next dataDir zstd) tick gs e).2 ∧
        Pends (withGhost (next dataDir zstd) tick gs e).1
          (withGhost (next dataDir zstd) tick gs e).2.store :=
    ⟨inv_next h.1 dataDir zstd e, pends_next h.1 h.2 e⟩
  have h0 : Inv (.init disk) ∧ Pends [] (Sys.init disk).store :=
    ⟨Inv.init disk, [], Covered.empty, fun _ hm => absurd hm List.not_mem_nil⟩
  have h := run_invariant hstep (s := ([], .init disk)) h0 es
  rwa [run_withGhost] at h

/-! ### After a reconnect -/

/-- The entry of a row that is due at once. -/
def dueEntry (table : StorageTable) (row : ℕ × Stored Text) : RetryMsg Text :=
  ⟨0, row.2.msgType, row.1, 0, table, row.2.text⟩

/-- **A row has an entry that is due unless a pass dropped it.** -/
theorem due_iff {dropped : List (StorageTable × ℕ)} {s : Store Text} (h : Pends dropped s)
    {table : StorageTable} {row : ℕ × Stored Text} (hrow : row ∈ (s.tables table).rows)
    (hp : IsPending table row) :
    dueEntry table row ∈ (kzStorageRequeueAllPending s).retryQueue ↔ (table, row.1) ∉ dropped := by
  obtain ⟨log, hc, -⟩ := h
  constructor
  · intro hmem hd
    obtain ⟨r, hr, he⟩ := List.mem_map.mp hmem
    have hk : key r = (table, row.1) := congrArg key he
    exact hc.gone _ hd (hk ▸ List.mem_map_of_mem hr)
  · intro hd
    obtain ⟨r, hr, hk⟩ := List.mem_map.mp ((hc.covered table row hrow hp).resolve_right hd)
    obtain ⟨hty, htext⟩ := hc.fits.agree hrow hr hk
    refine List.mem_map.mpr ⟨r, hr, ?_⟩
    rw [key, Prod.mk.injEq] at hk
    rw [dueEntry, ← hty, ← htext, ← hk.1, ← hk.2]

/-- **The upload of a retry pass.** -/
theorem retryUpload_iff {dataDir uid : Bytes} (hu : FitsUid uid) {s : Sys}
    (hf : (s.disk (replayPath dataDir uid (str ".krpz"))).isSome ∨
      (s.disk (replayPath dataDir uid (str ".krpr"))).isSome)
    (hroom : s.uploadQueue.length < uploadQueueSize) :
    (∃ path, (retryUpload dataDir uid s).uploadQueue = s.uploadQueue ++ [⟨path, uid⟩]) ↔
      uid ∉ s.active := by
  have hfile := retryPath_ne_none hu.1 hf
  have htake : uid.take 63 = uid := List.take_of_length_le hu.2
  unfold retryUpload
  dsimp only
  constructor
  · rintro ⟨path, he⟩ ha
    rw [if_pos (Or.inl ha)] at he
    have := congrArg List.length he
    rw [List.length_append, List.length_singleton] at this
    omega
  · intro ha
    rw [if_neg (not_or.mpr ⟨ha, hfile⟩), htake]
    refine ⟨(retryPath dataDir uid s.disk).take 254, ?_⟩
    rw [uploadOrRelease_room]
    exact hroom

theorem dueEntry_sendable {text : Text} {msgType : ℕ} {table : StorageTable}
    (h : Proper text msgType table) (hp : table = .uploadQueue ∨ msgType = msgAddRecord) :
    text.isEmpty = false ∧ ¬ (msgType = msgPlayerLeave ∨ msgType = msgMapChange) := by
  rcases hp with hp | rfl
  · obtain ⟨rfl, uid, rfl, hu⟩ := h.1 hp
    refine ⟨?_, by decide⟩
    rw [Text.isEmpty, List.isEmpty_eq_false_iff]
    exact segment_ne_nil hu.1
  · obtain ⟨r, rfl⟩ := h.2 rfl
    exact ⟨rfl, by decide⟩

theorem Pends.proper {dropped : List (StorageTable × ℕ)} {s : Store Text} (h : Pends dropped s)
    {r : RetryMsg Text} (hr : r ∈ s.retryQueue) : Proper r.message r.msgType r.table := by
  obtain ⟨log, hc, hlog⟩ := h
  obtain ⟨m, hm, hme⟩ := hc.fits.entries r hr
  have hproper := hlog m hm
  rwa [hme] at hproper

theorem Pends.notMem {dropped : List (StorageTable × ℕ)} {s : Store Text} (h : Pends dropped s)
    {r : RetryMsg Text} {pre post : List (RetryMsg Text)} (hq : s.retryQueue = pre ++ r :: post) :
    r ∉ post := by
  obtain ⟨log, hc, -⟩ := h
  have hkeys := hc.keys
  rw [hq, List.map_append, List.map_cons] at hkeys
  have hnot := (List.nodup_cons.mp hkeys.of_append_right).1
  exact fun hmem => hnot (List.mem_map_of_mem hmem)

theorem runRetryPass_upload (dataDir : Bytes) {delay maxRetries ts : ℤ} {s : Sys}
    {r : RetryMsg Text} {uid : Bytes}
    (hsent : (retryPass Text.isEmpty delay maxRetries ts s.store.retryQueue).2 = some r)
    (htable : r.table = .uploadQueue) (htext : r.message = .uid uid) :
    runRetryPass dataDir delay maxRetries ts s = retryUpload dataDir uid { s with
      store := { s.store with
        retryQueue := (retryPass Text.isEmpty delay maxRetries ts s.store.retryQueue).1 } } := by
  obtain ⟨retryCount, msgType, msgId, timestamp, table, message⟩ := r
  obtain rfl : table = .uploadQueue := htable
  obtain rfl : message = .uid uid := htext
  unfold runRetryPass
  dsimp only
  rw [hsent]

/-- **What a reconnect makes due.** The connection opens after any run. Then the row of a submission
or an upload has an entry that is due exactly when no retry pass dropped it since the queue was
built. When after any more steps a pass reaches such an entry, it sends the message exactly when the
time is past the delay and the maximum of retries is not negative; and with a file and room in the
queue it then uploads the run of an upload exactly when its uid is not active. -/
theorem reconnect_due_iff (dataDir : Bytes) (zstd : Bytes → Option Bytes) (disk : Disk Bytes UInt8)
    (es : List Event) :
    let s := run (next dataDir zstd) (.init disk) (es ++ [.requeueAllPending])
    (∀ table, ∀ row ∈ (s.store.tables table).rows, IsPending table row →
      (dueEntry table row ∈ s.store.retryQueue ↔ (table, row.1) ∉ dropped dataDir zstd disk es)) ∧
    ∀ es' delay maxRetries ts table row pre post, IsPending table row →
      let s' := run (next dataDir zstd) s es'
      s'.store.retryQueue = pre ++ dueEntry table row :: post →
      (retryPass Text.isEmpty delay maxRetries ts pre).2 = none →
      let sends := (retryPass Text.isEmpty delay maxRetries ts s'.store.retryQueue).2 =
        some (dueEntry table row)
      (sends ↔ delay < ts ∧ 0 ≤ maxRetries) ∧
      (sends → ∀ uid, table = .uploadQueue → row.2.text = .uid uid →
        (s'.disk (replayPath dataDir uid (str ".krpz"))).isSome ∨
          (s'.disk (replayPath dataDir uid (str ".krpr"))).isSome →
        s'.uploadQueue.length < uploadQueueSize →
        ((∃ path, (runRetryPass dataDir delay maxRetries ts s').uploadQueue =
          s'.uploadQueue ++ [⟨path, uid⟩]) ↔ uid ∉ s'.active)) := by
  intro s
  have hs : s = next dataDir zstd (run (next dataDir zstd) (.init disk) es) .requeueAllPending := by
    exact List.foldl_concat ..
  refine ⟨fun table row hrow hp => ?_, ?_⟩
  · rw [hs] at hrow ⊢
    exact due_iff (pends_run dataDir zstd disk es).2 hrow hp
  · intro es' delay maxRetries ts table row pre post hp s' hq hpre sends
    have hrun : s' = run (next dataDir zstd) (.init disk) (es ++ [.requeueAllPending] ++ es') := by
      exact (List.foldl_append ..).symm
    have hpends := (pends_run dataDir zstd disk (es ++ [.requeueAllPending] ++ es')).2
    rw [← hrun] at hpends
    have hmem : dueEntry table row ∈ s'.store.retryQueue := by
      rw [hq]
      exact List.mem_append_right _ List.mem_cons_self
    have hproper : Proper row.2.text row.2.msgType table := hpends.proper hmem
    obtain ⟨hempty, htype⟩ := dueEntry_sendable hproper hp
    refine ⟨?_, fun hsent uid ht htext hf hroom => ?_⟩
    · change (retryPass Text.isEmpty delay maxRetries ts s'.store.retryQueue).2 = _ ↔ _
      rw [hq, retryPass_reaches hempty htype (hpends.notMem hq) hpre, dueEntry, sub_zero]
      exact Iff.rfl
    · have hu : FitsUid uid := by
        obtain ⟨-, uid', he, hu⟩ := hproper.1 ht
        rw [htext] at he
        exact Text.uid.inj he ▸ hu
      rw [runRetryPass_upload dataDir hsent ht htext]
      exact retryUpload_iff hu hf hroom

/-- Six retry passes without an answer. -/
def samplePasses : List Event := [200, 300, 400, 500, 600, 700].map fun ts => .retryPass 5 4 ts

/-- A submission that was sent five times has its row and no entry when the connection opens; and an
upload that was sent before the connection was lost has its row, its files and its entry, and the
pass that sends the entry uploads nothing. -/
theorem reconnect_not_due :
    ((sampleRun (sampleSubmission ++ samplePasses ++ [.requeueAllPending])).store.tables
      .outgoingQueue).rows = [(1, ⟨msgAddRecord, .addRecord sampleRecord, 100⟩)] ∧
    (sampleRun (sampleSubmission ++ samplePasses ++ [.requeueAllPending])).store.retryQueue = [] ∧
    ((sampleRun (sampleUpload ++ [.requeueAllPending])).store.tables .uploadQueue).rows =
      [(1, ⟨0, .uid sampleUid, 101⟩)] ∧
    ((sampleRun (sampleUpload ++ [.requeueAllPending])).disk
      (replayPath (gDataDir sampleDatadir) sampleUid (str ".krpz"))).isSome ∧
    (retryPass Text.isEmpty 5 4 200
      (sampleRun (sampleUpload ++ [.requeueAllPending])).store.retryQueue).2 =
        some (dueEntry .uploadQueue (1, ⟨0, .uid sampleUid, 101⟩)) ∧
    (sampleRun (sampleUpload ++ [.requeueAllPending])).uploadQueue = [] ∧
    (sampleRun (sampleUpload ++ [.requeueAllPending, .retryPass 5 4 200])).uploadQueue = [] := by
  decide +kernel

end KzGlobal.Submit.Reconnect
