import KzGlobal.Storage.Ledger

/-! # Which messages have an entry

Submissions and uploads are pending as long as they have a row. A pending message has its entry in
the retry queue unless a retry pass dropped the entry since the queue was built (`Covered`): no
other function takes an entry and leaves the row of a pending message. And an entry that was dropped
does not come back before the queue is built anew. -/

namespace KzGlobal.Storage.Pending

open KzGlobal.Lib.Autoincrement KzGlobal.Storage.Queue KzGlobal.Storage.Ledger

variable {τ : Type}

/-- Table and id of an entry. -/
def key (r : RetryMsg τ) : StorageTable × ℕ := (r.table, r.msgId)

/-- The rows of submissions and uploads. -/
def IsPending (table : StorageTable) (row : ℕ × Stored τ) : Prop :=
  table = .uploadQueue ∨ row.2.msgType = msgAddRecord

/-! ### Keys -/

section Keys
variable {log : List (Saved τ)} {s : Store τ}

theorem nodup_keys_save (hfits : Fits log s) (h : (s.retryQueue.map key).Nodup) (now : ℤ) (text : τ)
    (msgType : ℕ) (table : StorageTable) :
    ((kzStorageSave now text msgType (kzStorageGetNextId table s) table s).retryQueue.map
      key).Nodup := by
  refine (List.map_append ..).symm ▸ h.append (List.nodup_singleton _) ?_
  rw [List.map_singleton, List.disjoint_singleton]
  exact hfits.key_new table

theorem keys_requeueAllPending (s : Store τ) :
    (kzStorageRequeueAllPending s).retryQueue.map key = s.retryQueue.map key := by
  rw [kzStorageRequeueAllPending, List.map_map]
  rfl

theorem keys_load (s : Store τ) : (kzStorageLoad s).retryQueue.map key =
    (s.tables .outgoingQueue).rows.map (fun row => (.outgoingQueue, row.1)) ++
      (s.tables .uploadQueue).rows.map fun row => (.uploadQueue, row.1) := by
  rw [kzStorageLoad, List.map_append, List.map_map, List.map_map]
  rfl

theorem nodup_keys_load (s : Store τ) : ((kzStorageLoad s).retryQueue.map key).Nodup := by
  have hnodup (table : StorageTable) :
      ((s.tables table).rows.map fun row => (table, row.1)).Nodup := by
    have := (s.tables table).nodup.map (Prod.mk_right_injective table)
    rwa [List.map_map] at this
  rw [keys_load]
  refine (hnodup _).append (hnodup _) fun k hk hk' => ?_
  obtain ⟨row, -, rfl⟩ := List.mem_map.mp hk
  obtain ⟨row', -, he⟩ := List.mem_map.mp hk'
  cases he

theorem key_mem_load {table : StorageTable} {row : ℕ × Stored τ} (h : row ∈ (s.tables table).rows) :
    (table, row.1) ∈ (kzStorageLoad s).retryQueue.map key := by
  rw [keys_load]
  cases table with
  | outgoingQueue => exact List.mem_append_left _ (List.mem_map.mpr ⟨row, h, rfl⟩)
  | uploadQueue => exact List.mem_append_right _ (List.mem_map.mpr ⟨row, h, rfl⟩)

end Keys

/-! ### What a pass drops -/

/-- The entries that a retry pass drops. -/
def retryDrops (isEmpty : τ → Bool) (delay maxRetries : ℤ) (ts : ℤ) :
    List (RetryMsg τ) → List (RetryMsg τ)
  | [] => []
  | r :: rs =>
    if ts - r.timestamp > delay then
      if isEmpty r.message ∨ r.retryCount > maxRetries then
        r :: retryDrops isEmpty delay maxRetries ts rs
      else if r.msgType = msgPlayerLeave ∨ r.msgType = msgMapChange then
        r :: retryDrops isEmpty delay maxRetries ts rs
      else []
    else retryDrops isEmpty delay maxRetries ts rs

/-- **An entry stays or is dropped.** -/
theorem perm_retryPass (isEmpty : τ → Bool) (delay maxRetries ts : ℤ) : ∀ q : List (RetryMsg τ),
    (((retryPass isEmpty delay maxRetries ts q).1.map key) ++
      (retryDrops isEmpty delay maxRetries ts q).map key).Perm (q.map key)
  | [] => .nil
  | r :: rs => by
    have ih := perm_retryPass isEmpty delay maxRetries ts rs
    unfold retryPass retryDrops
    split_ifs
    · exact List.perm_middle.trans (ih.cons _)
    · exact List.perm_middle.trans (ih.cons _)
    · rw [List.map_nil, List.append_nil]
      exact List.Perm.refl _
    · exact ih.cons _

/-- **The entry that a pass reaches**: the pass sends it where it is due and was not sent too
often. -/
theorem retryPass_reaches {isEmpty : τ → Bool} {delay maxRetries ts : ℤ} {e : RetryMsg τ}
    (he : isEmpty e.message = false)
    (ht : ¬ (e.msgType = msgPlayerLeave ∨ e.msgType = msgMapChange))
    {post : List (RetryMsg τ)} (hpost : e ∉ post) : ∀ {pre : List (RetryMsg τ)},
      (retryPass isEmpty delay maxRetries ts pre).2 = none →
      ((retryPass isEmpty delay maxRetries ts (pre ++ e :: post)).2 = some e ↔
        ts - e.timestamp > delay ∧ e.retryCount ≤ maxRetries)
  | [], _ => by
    have hnot : (retryPass isEmpty delay maxRetries ts post).2 ≠ some e := fun h =>
      hpost (mem_of_retryPass _ _ _ _ _ h)
    rw [List.nil_append]
    unfold retryPass
    split_ifs with h1 h2
    · rcases h2 with h2 | h2
      · rw [he] at h2; cases h2
      · exact iff_of_false hnot fun h => by omega
    · refine iff_of_true rfl ⟨h1, ?_⟩
      rw [not_or] at h2
      omega
    · exact iff_of_false hnot fun h => h1 h.1
  | r :: pre, hpre => by
    unfold retryPass at hpre
    rw [List.cons_append]
    unfold retryPass
    split_ifs at hpre ⊢ with h1 h2 h3
    · exact retryPass_reaches he ht hpost hpre
    · exact retryPass_reaches he ht hpost hpre
    · exact retryPass_reaches he ht hpost hpre

/-! ### The invariant -/

/-- **Every pending message has an entry or lost it to a pass**, never both. -/
structure Covered (log : List (Saved τ)) (dropped : List (StorageTable × ℕ)) (s : Store τ) :
  Prop where
  fits : Fits log s
  uploads : ∀ m ∈ log, m.table = .uploadQueue → m.msgType = 0
  keys : (s.retryQueue.map key).Nodup
  bound : ∀ k ∈ dropped, k.2 ≤ (s.tables k.1).seq
  gone : ∀ k ∈ dropped, k ∉ s.retryQueue.map key
  covered : ∀ table, ∀ row ∈ (s.tables table).rows, IsPending table row →
    (table, row.1) ∈ s.retryQueue.map key ∨ (table, row.1) ∈ dropped

section Functions
variable {log : List (Saved τ)} {dropped : List (StorageTable × ℕ)} {s s' : Store τ}

theorem Covered.empty : Covered [] [] (.empty : Store τ) where
  fits := Fits.empty
  uploads _ h := absurd h List.not_mem_nil
  keys := List.nodup_nil
  bound _ h := absurd h List.not_mem_nil
  gone _ h := absurd h List.not_mem_nil
  covered _ _ h := absurd h List.not_mem_nil

/-- The keys of the entries that stay are still distinct and not dropped. -/
theorem Covered.shrink (h : Covered log dropped s) (hf : Fits log s')
    (hq : s'.retryQueue.Sublist s.retryQueue)
    (hseq : ∀ table, (s.tables table).seq ≤ (s'.tables table).seq)
    (hrows : ∀ table, ∀ row ∈ (s'.tables table).rows, row ∈ (s.tables table).rows)
    (hstay : ∀ table, ∀ row ∈ (s'.tables table).rows, IsPending table row →
      ∀ r ∈ s.retryQueue, key r = (table, row.1) → r.msgType = row.2.msgType →
        r.message = row.2.text → r ∈ s'.retryQueue) : Covered log dropped s' where
  fits := hf
  uploads := h.uploads
  keys := h.keys.sublist (hq.map key)
  bound k hk := (h.bound k hk).trans (hseq k.1)
  gone k hk hmem := h.gone k hk ((hq.map key).subset hmem)
  covered table row hrow hp := by
    refine (h.covered table row (hrows table row hrow) hp).imp_left fun hmem => ?_
    obtain ⟨r, hr, he⟩ := List.mem_map.mp hmem
    obtain ⟨hty, htext⟩ := h.fits.agree (hrows table row hrow) hr he
    exact List.mem_map.mpr ⟨r, hstay table row hrow hp r hr he hty htext, he⟩

/-- **A message is saved.** -/
theorem Covered.save (h : Covered log dropped s) (now : ℤ) (text : τ) {msgType : ℕ}
    {table : StorageTable} (hty : table = .uploadQueue → msgType = 0) :
    Covered (log ++ [⟨table, kzStorageGetNextId table s, msgType, text⟩]) dropped
      (kzStorageSave now text msgType (kzStorageGetNextId table s) table s) where
  fits := h.fits.save now text msgType table
  uploads m hm ht := by
    rcases List.mem_append.mp hm with hm | hm
    · exact h.uploads m hm ht
    · rw [List.mem_singleton.mp hm] at ht ⊢
      exact hty ht
  keys := nodup_keys_save h.fits h.keys now text msgType table
  bound k hk := (h.bound k hk).trans (seq_le_save ..)
  gone k hk hmem := by
    rw [kzStorageSave, Store.mapTable, List.map_append, List.mem_append] at hmem
    rcases hmem with hmem | hmem
    · exact h.gone k hk hmem
    · rw [List.map_singleton, List.mem_singleton] at hmem
      have hb := h.bound k hk
      rw [hmem] at hb
      exact absurd hb (Nat.not_succ_le_self _)
  covered table' row hrow hp := by
    rcases mem_rows_of_save hrow with hrow | ⟨rfl, rfl⟩
    · refine (h.covered table' row hrow hp).imp_left fun hmem => ?_
      exact (List.map_append ..).symm ▸ List.mem_append_left _ hmem
    · refine Or.inl ((List.map_append ..).symm ▸ List.mem_append_right _ ?_)
      exact List.mem_singleton_self _

theorem Covered.deleteRows (h : Covered log dropped s) {table : StorageTable}
    {p : ℕ × Stored τ → Bool}
    (hf : Fits log (s'.mapTable table fun t => t.deleteWhere p)) (hs : s'.tables = s.tables)
    (hq : s'.retryQueue.Sublist s.retryQueue)
    (hstay : ∀ t, ∀ row ∈ (s.tables t).rows, IsPending t row → (t = table → p row = false) →
      ∀ r ∈ s.retryQueue, key r = (t, row.1) → r.msgType = row.2.msgType →
        r.message = row.2.text → r ∈ s'.retryQueue) :
    Covered log dropped (s'.mapTable table fun t => t.deleteWhere p) := by
  refine h.shrink hf hq (fun t => (seq_deleteRows table p hs t).ge)
    (fun t row hrow => ((mem_rows_deleteRows hs).mp hrow).1) fun t row hrow hp => ?_
  obtain ⟨hrow, hkeep⟩ := (mem_rows_deleteRows hs).mp hrow
  exact hstay t row hrow hp hkeep

theorem Covered.delete (h : Covered log dropped s) (id : ℕ) (table : StorageTable) :
    Covered log dropped (kzStorageDelete id table s) := by
  refine h.deleteRows (h.fits.delete id table) rfl List.filter_sublist ?_
  intro t row hrow hp hkeep r hr he _ _
  refine List.mem_filter.mpr ⟨hr, ?_⟩
  rw [Bool.not_eq_true', decide_eq_false_iff_not]
  rintro ⟨hid, ht⟩
  rw [key, Prod.mk.injEq, ht, hid] at he
  exact absurd he.2.symm (of_decide_eq_false (hkeep he.1.symm))

/-- **An accepted upload goes with its rows.** -/
theorem Covered.accept [DecidableEq τ] (h : Covered log dropped s) (uid : τ) :
    Covered log dropped (kzStorageDeleteByValue uid .uploadQueue (eraseUpload uid s)) := by
  refine h.deleteRows ((h.fits.eraseUpload uid).deleteByValue uid .uploadQueue) rfl
    List.eraseP_sublist ?_
  intro t row hrow hp hkeep r hr he _ htext
  refine (List.mem_eraseP_of_neg ?_).mpr hr
  rw [decide_eq_true_eq]
  rintro ⟨ht, hmsg⟩
  rw [key, Prod.mk.injEq, ht] at he
  rw [htext] at hmsg
  exact of_decide_eq_false (hkeep he.1.symm) hmsg

theorem Covered.discard [DecidableEq τ] (h : Covered log dropped s) (uid : τ) :
    Covered log dropped (kzStorageDeleteByValue uid .uploadQueue s) :=
  h.deleteRows (h.fits.deleteByValue uid .uploadQueue) rfl (List.Sublist.refl _)
    fun _ _ _ _ _ _ hr _ _ _ => hr

/-- **A map change drops no pending message.** -/
theorem Covered.clear (h : Covered log dropped s) : Covered log dropped (kzStorageClear s) := by
  refine h.deleteRows h.fits.clear rfl List.filter_sublist ?_
  intro t row hrow hp _ r hr he hty _
  refine List.mem_filter.mpr ⟨hr, ?_⟩
  have htype : r.msgType = 0 ∨ r.msgType = msgAddRecord := by
    rcases hp with rfl | hp
    · obtain ⟨m, hm, hme⟩ := h.fits.rows _ row hrow
      have := h.uploads m hm (by rw [hme])
      rw [hme] at this
      exact Or.inl (hty.trans this)
    · exact Or.inr (hty.trans hp)
  rcases htype with htype | htype <;> rw [dropsOnClear, htype] <;> decide

/-- **All times are reset.** -/
theorem Covered.requeueAllPending (h : Covered log dropped s) :
    Covered log dropped (kzStorageRequeueAllPending s) := by
  have hkeys := keys_requeueAllPending s
  exact ⟨h.fits.requeueAllPending, h.uploads, hkeys ▸ h.keys, h.bound,
    fun k hk => hkeys ▸ h.gone k hk, fun table row hrow hp => hkeys ▸ h.covered table row hrow hp⟩

/-- **A load gives every message an entry.** -/
theorem Covered.load (h : Covered log dropped s) : Covered log [] (kzStorageLoad s) where
  fits := h.fits.load
  uploads := h.uploads
  keys := nodup_keys_load s
  bound _ hk := absurd hk List.not_mem_nil
  gone _ hk := absurd hk List.not_mem_nil
  covered _ _ hrow _ := Or.inl (key_mem_load hrow)

/-- **A retry pass drops entries.** -/
theorem Covered.pass (h : Covered log dropped s) (isEmpty : τ → Bool) (delay maxRetries ts : ℤ) :
    Covered log (dropped ++ (retryDrops isEmpty delay maxRetries ts s.retryQueue).map key)
      { s with retryQueue := (retryPass isEmpty delay maxRetries ts s.retryQueue).1 } := by
  have hperm := perm_retryPass isEmpty delay maxRetries ts s.retryQueue
  have hnodup := hperm.nodup_iff.mpr h.keys
  refine ⟨h.fits.retry (retryPass_entries isEmpty delay maxRetries ts _), h.uploads,
    hnodup.of_append_left, fun k hk => ?_, fun k hk hmem => ?_, fun table row hrow hp => ?_⟩
  · rcases List.mem_append.mp hk with hk | hk
    · exact h.bound k hk
    · obtain ⟨r, hr, rfl⟩ := List.mem_map.mp (hperm.subset (List.mem_append_right _ hk))
      obtain ⟨m, hm, hme⟩ := h.fits.entries r hr
      have := h.fits.bound m hm
      rwa [hme] at this
  · rcases List.mem_append.mp hk with hk | hk
    · exact h.gone k hk (hperm.subset (List.mem_append_left _ hmem))
    · exact List.disjoint_of_nodup_append hnodup hmem hk
  · rcases h.covered table row hrow hp with hmem | hmem
    · rcases List.mem_append.mp (hperm.mem_iff.mpr hmem) with hmem | hmem
      · exact Or.inl hmem
      · exact Or.inr (List.mem_append_right _ hmem)
    · exact Or.inr (List.mem_append_left _ hmem)

end Functions

end KzGlobal.Storage.Pending
