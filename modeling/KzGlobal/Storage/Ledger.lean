import KzGlobal.Storage.Queue

/-! # The ledger of saved messages

A ledger lists the messages that were saved, each under the id it was saved with. It fits a storage
(`Fits`) when the ids of a table are distinct and not above the largest one, and every row and every
entry of the retry queue is that of a message in the ledger. Every function of the storage keeps a
ledger, and a save under the next id adds to it (`Fits.save`). -/

namespace KzGlobal.Storage.Ledger

open KzGlobal.Lib.Autoincrement KzGlobal.Storage.Queue

/-- A saved message. -/
structure Saved (τ : Type) where
  table : StorageTable
  id : ℕ
  msgType : ℕ
  text : τ
  deriving DecidableEq

variable {τ : Type}

/-- The row of a message. -/
def Saved.IsRow (m : Saved τ) (table : StorageTable) (r : ℕ × Stored τ) : Prop :=
  m = ⟨table, r.1, r.2.msgType, r.2.text⟩

/-- An entry of the retry queue for a message. -/
def Saved.IsEntry (m : Saved τ) (r : RetryMsg τ) : Prop :=
  m = ⟨r.table, r.msgId, r.msgType, r.message⟩

/-- No two messages of a table have the same id. -/
def DistinctIds (log : List (Saved τ)) : Prop :=
  log.Pairwise fun m m' => m.table = m'.table → m.id ≠ m'.id

/-- A ledger that accounts for a storage. -/
structure Fits (log : List (Saved τ)) (s : Store τ) : Prop where
  ids : DistinctIds log
  bound : ∀ m ∈ log, m.id ≤ (s.tables m.table).seq
  rows : ∀ table, ∀ r ∈ (s.tables table).rows, ∃ m ∈ log, m.IsRow table r
  entries : ∀ r ∈ s.retryQueue, ∃ m ∈ log, m.IsEntry r

theorem DistinctIds.eq {log : List (Saved τ)} (h : DistinctIds log) {m m' : Saved τ} (hm : m ∈ log)
    (hm' : m' ∈ log) (ht : m.table = m'.table) (hid : m.id = m'.id) : m = m' := by
  by_contra hne
  have : Std.Symm fun m m' : Saved τ => m.table = m'.table → m.id ≠ m'.id :=
    ⟨fun _ _ h ht hid => h ht.symm hid.symm⟩
  exact List.Pairwise.forall h hm hm' hne ht hid

/-! ### The functions of the storage -/

section Functions
variable {log : List (Saved τ)} {s s' : Store τ}

theorem Fits.weaken (h : Fits log s) (hseq : ∀ table, (s.tables table).seq ≤ (s'.tables table).seq)
    (hrows : ∀ table, ∀ r ∈ (s'.tables table).rows, r ∈ (s.tables table).rows)
    (hentries : ∀ r ∈ s'.retryQueue, ∃ m ∈ log, m.IsEntry r) : Fits log s' where
  ids := h.ids
  bound m hm := (h.bound m hm).trans (hseq m.table)
  rows table r hr := h.rows table r (hrows table r hr)
  entries := hentries

theorem Fits.empty : Fits [] (.empty : Store τ) where
  ids := List.Pairwise.nil
  bound _ h := absurd h List.not_mem_nil
  rows _ _ h := absurd h List.not_mem_nil
  entries _ h := absurd h List.not_mem_nil

theorem exists_fits (tables : StorageTable → Table (Stored τ)) (lastTs : ℤ) :
    ∃ log, Fits log (⟨tables, [], lastTs⟩ : Store τ) := by
  let saved (table : StorageTable) (r : ℕ × Stored τ) : Saved τ :=
    ⟨table, r.1, r.2.msgType, r.2.text⟩
  let rows (table : StorageTable) : List (Saved τ) := (tables table).rows.map (saved table)
  have hrows : ∀ table, (rows table).Pairwise fun m m' => m.table = m'.table → m.id ≠ m'.id := by
    intro table
    refine List.pairwise_map.mpr ((List.pairwise_map.mp (tables table).nodup).imp ?_)
    intro r r' hne _
    exact hne
  have hmem : ∀ m ∈ rows .outgoingQueue ++ rows .uploadQueue, ∃ table, ∃ r ∈ (tables table).rows,
      m = saved table r := by
    intro m hm
    rcases List.mem_append.mp hm with hm | hm
    · obtain ⟨r, hr, rfl⟩ := List.mem_map.mp hm
      exact ⟨.outgoingQueue, r, hr, rfl⟩
    · obtain ⟨r, hr, rfl⟩ := List.mem_map.mp hm
      exact ⟨.uploadQueue, r, hr, rfl⟩
  refine ⟨rows .outgoingQueue ++ rows .uploadQueue, ?_, ?_, ?_, ?_⟩
  · refine List.pairwise_append.mpr ⟨hrows .outgoingQueue, hrows .uploadQueue, ?_⟩
    intro m hm m' hm' ht
    obtain ⟨r, -, rfl⟩ := List.mem_map.mp hm
    obtain ⟨r', -, rfl⟩ := List.mem_map.mp hm'
    cases ht
  · intro m hm
    obtain ⟨table, r, hr, rfl⟩ := hmem m hm
    exact (tables table).le_seq r hr
  · intro table r hr
    refine ⟨saved table r, ?_, rfl⟩
    cases table with
    | outgoingQueue => exact List.mem_append_left _ (List.mem_map_of_mem hr)
    | uploadQueue => exact List.mem_append_right _ (List.mem_map_of_mem hr)
  · intro r hr
    cases hr

theorem Fits.agree (h : Fits log s) {table : StorageTable} {row : ℕ × Stored τ}
    (hrow : row ∈ (s.tables table).rows) {r : RetryMsg τ} (hr : r ∈ s.retryQueue)
    (he : (r.table, r.msgId) = (table, row.1)) :
    r.msgType = row.2.msgType ∧ r.message = row.2.text := by
  obtain ⟨m, hm, hme⟩ := h.rows table row hrow
  obtain ⟨m', hm', hme'⟩ := h.entries r hr
  rw [Prod.mk.injEq] at he
  rw [Saved.IsRow] at hme
  rw [Saved.IsEntry] at hme'
  have hmm := h.ids.eq hm' hm (by rw [hme, hme', he.1]) (by rw [hme, hme', he.2])
  rw [hme, hme', Saved.mk.injEq] at hmm
  exact hmm.2.2

theorem Fits.key_new (h : Fits log s) (table : StorageTable) :
    (table, kzStorageGetNextId table s) ∉ s.retryQueue.map fun r => (r.table, r.msgId) := by
  intro hmem
  obtain ⟨r, hr, he⟩ := List.mem_map.mp hmem
  obtain ⟨m, hm, hme⟩ := h.entries r hr
  rw [Prod.mk.injEq] at he
  rw [Saved.IsEntry] at hme
  have hb := h.bound m hm
  rw [hme, he.1, he.2] at hb
  exact absurd hb (Nat.not_succ_le_self _)

theorem mem_rows_deleteRows {table table' : StorageTable} {p : ℕ × Stored τ → Bool}
    (hs : s'.tables = s.tables) {r : ℕ × Stored τ} :
    r ∈ ((s'.mapTable table fun t => t.deleteWhere p).tables table').rows ↔
      r ∈ (s.tables table').rows ∧ (table' = table → p r = false) := by
  rcases eq_or_ne table' table with rfl | hne
  · rw [tables_mapTable_self, hs, Table.mem_deleteWhere]
    exact and_congr_right fun _ => ⟨fun h _ => h, fun h => h rfl⟩
  · rw [tables_mapTable_of_ne _ hne, hs]
    exact (and_iff_left fun h => absurd h hne).symm

theorem seq_deleteRows (table : StorageTable) (p : ℕ × Stored τ → Bool) (hs : s'.tables = s.tables)
    (table' : StorageTable) :
    ((s'.mapTable table fun t => t.deleteWhere p).tables table').seq = (s.tables table').seq := by
  rcases eq_or_ne table' table with rfl | hne
  · rw [tables_mapTable_self, hs]; rfl
  · rw [tables_mapTable_of_ne _ hne, hs]

theorem Fits.deleteRows (h : Fits log s) (table : StorageTable) (p : ℕ × Stored τ → Bool)
    (hentries : ∀ r ∈ s'.retryQueue, ∃ m ∈ log, m.IsEntry r)
    (hs : s'.tables = s.tables) : Fits log (s'.mapTable table fun t => t.deleteWhere p) :=
  h.weaken (fun t => (seq_deleteRows table p hs t).ge)
    (fun _ _ hr => ((mem_rows_deleteRows hs).mp hr).1)
    hentries

theorem Fits.delete (h : Fits log s) (msgId : ℕ) (table : StorageTable) :
    Fits log (kzStorageDelete msgId table s) :=
  h.deleteRows table _ (fun r hr => h.entries r (List.mem_of_mem_filter hr)) rfl

theorem Fits.deleteByValue [DecidableEq τ] (h : Fits log s) (value : τ) (table : StorageTable) :
    Fits log (kzStorageDeleteByValue value table s) := by
  cases table with
  | outgoingQueue => exact h
  | uploadQueue => exact h.deleteRows .uploadQueue _ h.entries rfl

theorem Fits.clear (h : Fits log s) : Fits log (kzStorageClear s) :=
  h.deleteRows .outgoingQueue _ (fun r hr => h.entries r (List.mem_of_mem_filter hr)) rfl

theorem Fits.deleteAll (h : Fits log s) (table : StorageTable) :
    Fits log (kzStorageDeleteAll table s) :=
  h.deleteRows table _ (fun r hr => h.entries r (List.mem_of_mem_filter hr)) rfl

theorem Fits.load (h : Fits log s) : Fits log (kzStorageLoad s) := by
  refine h.weaken (fun _ => le_rfl) (fun _ _ hr => hr) fun r hr => ?_
  rcases List.mem_append.mp hr with hr | hr <;> obtain ⟨row, hrow, rfl⟩ := List.mem_map.mp hr
  · exact h.rows .outgoingQueue row hrow
  · exact h.rows .uploadQueue row hrow

/-- The retry queue may lose entries, and its times and counts may change. -/
theorem Fits.retry (h : Fits log s) {q : List (RetryMsg τ)}
    (hq : ∀ r ∈ q, ∃ r' ∈ s.retryQueue, r =
      { r' with timestamp := r.timestamp, retryCount := r.retryCount }) :
    Fits log { s with retryQueue := q } := by
  refine h.weaken (fun _ => le_rfl) (fun _ _ hr => hr) fun r hr => ?_
  obtain ⟨r', hr', he⟩ := hq r hr
  obtain ⟨m, hm, hme⟩ := h.entries r' hr'
  rw [he]
  exact ⟨m, hm, hme⟩

theorem Fits.requeueAllPending (h : Fits log s) : Fits log (kzStorageRequeueAllPending s) := by
  refine h.retry fun r hr => ?_
  obtain ⟨r', hr', rfl⟩ := List.mem_map.mp hr
  exact ⟨r', hr', rfl⟩

theorem Fits.requeue (h : Fits log s) (msgId : Option ℕ) : Fits log (requeue msgId s) := by
  refine h.retry fun r hr => ?_
  obtain ⟨r', hr', rfl⟩ := List.mem_map.mp hr
  refine ⟨r', hr', ?_⟩
  split_ifs
  · rfl
  · rfl

theorem Fits.eraseUpload [DecidableEq τ] (h : Fits log s) (uid : τ) :
    Fits log (eraseUpload uid s) :=
  h.retry fun r hr => ⟨r, List.mem_of_mem_eraseP hr, rfl⟩

/-- **What a retry pass does to the queue**: entries are dropped, and one gets a new time and
count. -/
theorem retryPass_entries (isEmpty : τ → Bool) (delay maxRetries : ℤ) (ts : ℤ) :
    ∀ q : List (RetryMsg τ), ∀ r ∈ (retryPass isEmpty delay maxRetries ts q).1,
      ∃ r' ∈ q, r = { r' with timestamp := r.timestamp, retryCount := r.retryCount }
  | [], r, hr => absurd hr List.not_mem_nil
  | r₀ :: q, r, hr => by
    have ih := retryPass_entries isEmpty delay maxRetries ts q
    have drop (hr : r ∈ (retryPass isEmpty delay maxRetries ts q).1) : ∃ r' ∈ r₀ :: q,
        r = { r' with timestamp := r.timestamp, retryCount := r.retryCount } := by
      obtain ⟨r', hr', he⟩ := ih r hr
      exact ⟨r', List.mem_cons_of_mem _ hr', he⟩
    unfold retryPass at hr
    split_ifs at hr with h1 h2 h3
    · exact drop hr
    · exact drop hr
    · rcases List.mem_cons.mp hr with rfl | hr
      · exact ⟨r₀, List.mem_cons_self, rfl⟩
      · exact ⟨r, List.mem_cons_of_mem _ hr, rfl⟩
    · rcases List.mem_cons.mp hr with rfl | hr
      · exact ⟨r, List.mem_cons_self, rfl⟩
      · exact drop hr

theorem mem_of_retryPass (isEmpty : τ → Bool) (delay maxRetries : ℤ) (ts : ℤ) {r : RetryMsg τ} :
    ∀ q : List (RetryMsg τ), (retryPass isEmpty delay maxRetries ts q).2 = some r → r ∈ q
  | [], hr => by cases hr
  | r₀ :: q, hr => by
    have ih := mem_of_retryPass isEmpty delay maxRetries ts (r := r) q
    unfold retryPass at hr
    split_ifs at hr
    · exact List.mem_cons_of_mem _ (ih hr)
    · exact List.mem_cons_of_mem _ (ih hr)
    · rw [← Option.some.inj hr]
      exact List.mem_cons_self
    · exact List.mem_cons_of_mem _ (ih hr)

theorem tables_save_self (now : ℤ) (text : τ) (msgType msgId : ℕ) (table : StorageTable)
    (s : Store τ) :
    (kzStorageSave now text msgType msgId table s).tables table =
      (s.tables table).insert msgId ⟨msgType, text, now⟩ := by
  unfold kzStorageSave
  exact tables_mapTable_self ..

theorem tables_save_of_ne (now : ℤ) (text : τ) (msgType msgId : ℕ) {table table' : StorageTable}
    (h : table' ≠ table) (s : Store τ) :
    (kzStorageSave now text msgType msgId table s).tables table' = s.tables table' := by
  unfold kzStorageSave
  exact tables_mapTable_of_ne _ h _

theorem mem_rows_save {now : ℤ} {text : τ} {msgType msgId : ℕ} {table table' : StorageTable}
    {s : Store τ} {r : ℕ × Stored τ} (h : r ∈ (s.tables table').rows) :
    r ∈ ((kzStorageSave now text msgType msgId table s).tables table').rows := by
  rcases eq_or_ne table' table with rfl | hne
  · rw [tables_save_self]
    exact Table.mem_insert_of_mem h ..
  · rwa [tables_save_of_ne _ _ _ _ hne]

theorem seq_le_save (now : ℤ) (text : τ) (msgType msgId : ℕ) (table : StorageTable) (s : Store τ)
    (table' : StorageTable) : (s.tables table').seq ≤
      ((kzStorageSave now text msgType msgId table s).tables table').seq := by
  rcases eq_or_ne table' table with rfl | hne
  · rw [tables_save_self]
    exact Table.seq_insert_le ..
  · rw [tables_save_of_ne _ _ _ _ hne]

theorem mem_rows_of_save {now : ℤ} {text : τ} {msgType : ℕ} {table table' : StorageTable}
    {r : ℕ × Stored τ}
    (hr : r ∈ ((kzStorageSave now text msgType (kzStorageGetNextId table s) table s).tables
      table').rows) : r ∈ (s.tables table').rows ∨
        table' = table ∧ r = (kzStorageGetNextId table s, ⟨msgType, text, now⟩) := by
  rcases eq_or_ne table' table with rfl | hne
  · rw [tables_save_self, kzStorageGetNextId, ((s.tables table').insert_nextId _).1] at hr
    rcases List.mem_append.mp hr with hr | hr
    · exact Or.inl hr
    · exact Or.inr ⟨rfl, List.mem_singleton.mp hr⟩
  · rw [tables_save_of_ne _ _ _ _ hne] at hr
    exact Or.inl hr

/-- **A save under the next id adds to the ledger.** -/
theorem Fits.save (h : Fits log s) (now : ℤ) (text : τ) (msgType : ℕ) (table : StorageTable) :
    Fits (log ++ [⟨table, kzStorageGetNextId table s, msgType, text⟩])
      (kzStorageSave now text msgType (kzStorageGetNextId table s) table s) := by
  have old {m : Saved τ} (hm : m ∈ log) :
      m ∈ log ++ [⟨table, kzStorageGetNextId table s, msgType, text⟩] := List.mem_append_left _ hm
  refine ⟨?_, fun m hm => ?_, fun t r hr => ?_, fun r hr => ?_⟩
  · refine List.pairwise_append.mpr ⟨h.ids, List.pairwise_singleton .., fun m hm m' hm' ht => ?_⟩
    rw [List.mem_singleton.mp hm'] at ht ⊢
    have hb := h.bound m hm
    rw [ht] at hb
    exact (Nat.lt_succ_of_le hb).ne
  · rcases List.mem_append.mp hm with hm | hm
    · exact (h.bound m hm).trans (seq_le_save ..)
    · rw [List.mem_singleton.mp hm, tables_save_self]
      exact ((s.tables table).insert_nextId _).2.ge
  · rcases mem_rows_of_save hr with hr | ⟨rfl, rfl⟩
    · obtain ⟨m, hm, he⟩ := h.rows t r hr
      exact ⟨m, old hm, he⟩
    · exact ⟨_, List.mem_append_right _ (List.mem_singleton_self _), rfl⟩
  · rcases List.mem_append.mp hr with hr | hr
    · obtain ⟨m, hm, he⟩ := h.entries r hr
      exact ⟨m, old hm, he⟩
    · rw [List.mem_singleton.mp hr]
      exact ⟨_, List.mem_append_right _ (List.mem_singleton_self _), rfl⟩

theorem row_save (now : ℤ) (text : τ) (msgType : ℕ) (table : StorageTable) (s : Store τ) :
    (kzStorageGetNextId table s, (⟨msgType, text, now⟩ : Stored τ)) ∈
      ((kzStorageSave now text msgType (kzStorageGetNextId table s) table s).tables
        table).rows := by
  rw [tables_save_self, kzStorageGetNextId, ((s.tables table).insert_nextId _).1]
  exact List.mem_append_right _ (List.mem_singleton_self _)

theorem getNextId_deleteRows (table : StorageTable) (p : ℕ × Stored τ → Bool)
    (hs : s'.tables = s.tables)
    (table' : StorageTable) :
    kzStorageGetNextId table' (s'.mapTable table fun t => t.deleteWhere p) =
      kzStorageGetNextId table' s :=
  congrArg Nat.succ (seq_deleteRows table p hs table')

/-! ### Rows that stay -/

/-- A message has its row. -/
def HasRow (s : Store τ) (m : Saved τ) : Prop := ∃ r ∈ (s.tables m.table).rows, m.IsRow m.table r

variable {m : Saved τ}

theorem HasRow.deleteRows (h : HasRow s m) {table : StorageTable} {p : ℕ × Stored τ → Bool}
    (hp : m.table = table → ∀ r, m.IsRow table r → p r = false) (hs : s'.tables = s.tables) :
    HasRow (s'.mapTable table fun t => t.deleteWhere p) m := by
  obtain ⟨r, hr, he⟩ := h
  exact ⟨r, (mem_rows_deleteRows hs).mpr ⟨hr, fun ht => hp ht r (ht ▸ he)⟩, he⟩

theorem Saved.IsRow.fields {table : StorageTable} {r : ℕ × Stored τ} (h : m.IsRow table r) :
    r.1 = m.id ∧ r.2.text = m.text := by
  rw [Saved.IsRow] at h
  rw [h]
  exact ⟨rfl, rfl⟩

theorem HasRow.delete (h : HasRow s m) {msgId : ℕ} {table : StorageTable}
    (hne : ¬ (m.table = table ∧ m.id = msgId)) : HasRow (kzStorageDelete msgId table s) m := by
  refine h.deleteRows (fun ht r he => ?_) rfl
  rw [decide_eq_false_iff_not, he.fields.1]
  exact fun hr => hne ⟨ht, hr⟩

theorem HasRow.deleteByValue [DecidableEq τ] (h : HasRow s m) {value : τ} {table : StorageTable}
    (hne : ¬ (m.table = .uploadQueue ∧ m.text = value)) :
    HasRow (kzStorageDeleteByValue value table s) m := by
  cases table with
  | outgoingQueue => exact h
  | uploadQueue =>
    refine h.deleteRows (fun ht r he => ?_) rfl
    rw [decide_eq_false_iff_not, he.fields.2]
    exact fun hr => hne ⟨ht, hr⟩

theorem HasRow.clear (h : HasRow s m) (hne : ¬ (m.table = .outgoingQueue ∧ m.id ∈ deleteList s)) :
    HasRow (kzStorageClear s) m := by
  refine h.deleteRows (fun ht r he => ?_) rfl
  rw [decide_eq_false_iff_not, he.fields.1]
  exact fun hr => hne ⟨ht, hr⟩

theorem HasRow.save (h : HasRow s m) (now : ℤ) (text : τ) (msgType msgId : ℕ)
    (table : StorageTable) :
    HasRow (kzStorageSave now text msgType msgId table s) m := by
  obtain ⟨r, hr, he⟩ := h
  exact ⟨r, mem_rows_save hr, he⟩

end Functions

end KzGlobal.Storage.Ledger
