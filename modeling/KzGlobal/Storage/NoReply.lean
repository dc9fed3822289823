import KzGlobal.Storage.Pending

/-! # Messages that need no reply

PLAYER_LEAVE and MAP_CHANGE are not answered, so nothing but the program itself can delete their
rows. A retry pass that reaches such a message drops its entry of the retry queue and leaves the
row. As long as no pass reaches one, every such row has its entry (`rows_have_entries_iff`). -/

namespace KzGlobal.Storage.NoReply

open KzGlobal.Lib.Autoincrement KzGlobal.Lib.Runs KzGlobal.Storage.Queue KzGlobal.Storage.Ledger
  KzGlobal.Storage.Pending

variable {τ : Type}

/-- The messages that are not answered. -/
def NeedsNoReply (msgType : ℕ) : Prop := msgType = msgPlayerLeave ∨ msgType = msgMapChange

/-- **The rows of messages that need no reply have an entry in the retry queue.** -/
def RowsHaveEntries (s : Store τ) : Prop :=
  ∀ row ∈ (s.tables .outgoingQueue).rows, NeedsNoReply row.2.msgType →
    ∃ r ∈ s.retryQueue, r.table = .outgoingQueue ∧ r.msgId = row.1

/-! ### The machine -/

/-- What happens to the storage. A message or an upload is saved, the retry queue is gone through, a
message or an upload is acknowledged, the connection opens, or the map changes, with
`kz_storage_clear` before and `kz_storage_load` after it. -/
inductive Event (τ : Type)
  | save (now : ℤ) (text : τ) (msgType : ℕ)
  | saveUpload (now : ℤ) (uid : τ)
  | retryPass (delay maxRetries ts : ℤ)
  | acknowledge (msgId : ℕ)
  | acceptUpload (uid : τ)
  | requeueAllPending
  | clear
  | load

/-- What an event makes of the store. -/
def next [DecidableEq τ] (isEmpty : τ → Bool) (s : Store τ) : Event τ → Store τ
  | .save now text msgType =>
    kzStorageSave now text msgType (kzStorageGetNextId .outgoingQueue s) .outgoingQueue s
  | .saveUpload now uid =>
    kzStorageSave now uid 0 (kzStorageGetNextId .uploadQueue s) .uploadQueue s
  | .retryPass delay maxRetries ts =>
    { s with retryQueue := (retryPass isEmpty delay maxRetries ts s.retryQueue).1 }
  | .acknowledge msgId => kzStorageDelete msgId .outgoingQueue s
  | .acceptUpload uid => kzStorageDeleteByValue uid .uploadQueue (eraseUpload uid s)
  | .requeueAllPending => kzStorageRequeueAllPending s
  | .clear => kzStorageClear s
  | .load => kzStorageLoad s

/-! ### What a pass reaches -/

section Pass
variable (isEmpty : τ → Bool) (delay maxRetries ts : ℤ)

/-- An entry whose time has come. -/
def Due (r : RetryMsg τ) : Prop := ts - r.timestamp > delay

/-- An entry that is due and sent, which ends the pass. -/
def Sent (r : RetryMsg τ) : Prop :=
  Due delay ts r ∧ ¬ (isEmpty r.message = true ∨ r.retryCount > maxRetries) ∧
    ¬ NeedsNoReply r.msgType

/-- The entries of a queue that a pass gets to while they are due. -/
def Reaches (q : List (RetryMsg τ)) (r : RetryMsg τ) : Prop :=
  ∃ pre post, q = pre ++ r :: post ∧ (∀ r' ∈ pre, ¬ Sent isEmpty delay maxRetries ts r') ∧
    Due delay ts r

variable {isEmpty delay maxRetries ts}

theorem reaches_cons {r r₀ : RetryMsg τ} {q : List (RetryMsg τ)} :
    Reaches isEmpty delay maxRetries ts (r₀ :: q) r ↔
      r = r₀ ∧ Due delay ts r ∨
      ¬ Sent isEmpty delay maxRetries ts r₀ ∧ Reaches isEmpty delay maxRetries ts q r := by
  constructor
  · rintro ⟨pre, post, hq, hpre, hdue⟩
    rcases pre with _ | ⟨r₁, pre⟩
    · rw [List.nil_append, List.cons.injEq] at hq
      exact Or.inl ⟨hq.1.symm, hdue⟩
    · rw [List.cons_append, List.cons.injEq] at hq
      rw [List.forall_mem_cons] at hpre
      exact Or.inr ⟨hq.1 ▸ hpre.1, pre, post, hq.2, hpre.2, hdue⟩
  · rintro (⟨rfl, hdue⟩ | ⟨hno, pre, post, rfl, hpre, hdue⟩)
    · exact ⟨[], q, rfl, fun _ h => absurd h List.not_mem_nil, hdue⟩
    · exact ⟨r₀ :: pre, post, rfl, List.forall_mem_cons.mpr ⟨hno, hpre⟩, hdue⟩

/-- **A pass drops the messages without reply that it reaches.** -/
theorem mem_retryDrops_iff {r : RetryMsg τ} (hr : NeedsNoReply r.msgType) : ∀ q : List (RetryMsg τ),
    r ∈ retryDrops isEmpty delay maxRetries ts q ↔ Reaches isEmpty delay maxRetries ts q r
  | [] => by
    refine iff_of_false List.not_mem_nil ?_
    rintro ⟨pre, post, hq, -⟩
    cases pre <;> cases hq
  | r₀ :: q => by
    have ih := mem_retryDrops_iff hr q
    rw [reaches_cons]
    unfold retryDrops
    by_cases hdue : ts - r₀.timestamp > delay
    · rw [if_pos hdue]
      by_cases hgive : isEmpty r₀.message = true ∨ r₀.retryCount > maxRetries
      · have hno : ¬ Sent isEmpty delay maxRetries ts r₀ := fun h => h.2.1 hgive
        rw [if_pos hgive, List.mem_cons, ih, and_iff_right hno]
        exact or_congr_left ⟨fun h => ⟨h, h ▸ hdue⟩, fun h => h.1⟩
      · rw [if_neg hgive]
        by_cases htype : r₀.msgType = msgPlayerLeave ∨ r₀.msgType = msgMapChange
        · have hno : ¬ Sent isEmpty delay maxRetries ts r₀ := fun h => h.2.2 htype
          rw [if_pos htype, List.mem_cons, ih, and_iff_right hno]
          exact or_congr_left ⟨fun h => ⟨h, h ▸ hdue⟩, fun h => h.1⟩
        · rw [if_neg htype]
          refine iff_of_false List.not_mem_nil ?_
          rintro (⟨rfl, -⟩ | ⟨hno, -⟩)
          · exact htype hr
          · exact hno ⟨hdue, hgive, htype⟩
    · have hno : ¬ Sent isEmpty delay maxRetries ts r₀ := fun h => hdue h.1
      rw [if_neg hdue, ih, and_iff_right hno]
      refine (or_iff_right ?_).symm
      rintro ⟨rfl, h⟩
      exact hdue h

end Pass

theorem sublist_retryDrops (isEmpty : τ → Bool) (delay maxRetries ts : ℤ) : ∀ q : List (RetryMsg τ),
    (retryDrops isEmpty delay maxRetries ts q).Sublist q
  | [] => .slnil
  | r :: q => by
    have ih := sublist_retryDrops isEmpty delay maxRetries ts q
    unfold retryDrops
    split_ifs
    · exact ih.cons_cons r
    · exact ih.cons_cons r
    · exact List.nil_sublist _
    · exact ih.cons r

/-! ### Entries and rows -/

/-- **What every reachable storage has**: a ledger, one entry for an id, and a row for every entry
that needs no reply. -/
structure Sound (s : Store τ) : Prop where
  fits : ∃ log, Fits log s
  keys : (s.retryQueue.map key).Nodup
  rows : ∀ r ∈ s.retryQueue, r.table = .outgoingQueue → NeedsNoReply r.msgType →
    ∃ row ∈ (s.tables .outgoingQueue).rows, row.1 = r.msgId

section Steps
variable {s s' : Store τ}

theorem exists_entry_iff {q : List (RetryMsg τ)} {id : ℕ} :
    (∃ r ∈ q, r.table = .outgoingQueue ∧ r.msgId = id) ↔
    (StorageTable.outgoingQueue, id) ∈ q.map key := by
  simp [key]

theorem Sound.agree (h : Sound s) {row : ℕ × Stored τ} (hrow : row ∈ (s.tables .outgoingQueue).rows)
    {r : RetryMsg τ} (hr : r ∈ s.retryQueue) (ht : r.table = .outgoingQueue)
    (hid : r.msgId = row.1) :
    r.msgType = row.2.msgType := by
  obtain ⟨log, hfits⟩ := h.fits
  exact (hfits.agree hrow hr (by rw [ht, hid])).1

/-! ### Saves and loads -/

theorem Sound.save (h : Sound s) (now : ℤ) (text : τ) (msgType : ℕ) (table : StorageTable) :
    Sound (kzStorageSave now text msgType (kzStorageGetNextId table s) table s) := by
  obtain ⟨log, hfits⟩ := h.fits
  refine ⟨⟨_, hfits.save now text msgType table⟩,
    nodup_keys_save hfits h.keys now text msgType table, fun r hr ht htype => ?_⟩
  rcases List.mem_append.mp hr with hr | hr
  · obtain ⟨row, hrow, hid⟩ := h.rows r hr ht htype
    exact ⟨row, mem_rows_save hrow, hid⟩
  · rw [List.mem_singleton.mp hr] at ht ⊢
    obtain rfl : table = .outgoingQueue := ht
    exact ⟨_, row_save now text msgType .outgoingQueue s, rfl⟩

theorem RowsHaveEntries.save (h : RowsHaveEntries s) (now : ℤ) (text : τ) (msgType : ℕ)
    (table : StorageTable) :
    RowsHaveEntries (kzStorageSave now text msgType (kzStorageGetNextId table s) table s) := by
  intro row hrow htype
  rcases mem_rows_of_save hrow with hrow | ⟨ht, rfl⟩
  · obtain ⟨r, hr, he⟩ := h row hrow htype
    exact ⟨r, List.mem_append_left _ hr, he⟩
  · exact ⟨_, List.mem_append_right _ (List.mem_singleton_self _), ht.symm, rfl⟩

/-- **A load gives every row its entry.** -/
theorem RowsHaveEntries.load (s : Store τ) : RowsHaveEntries (kzStorageLoad s) := by
  intro row hrow _
  exact exists_entry_iff.mpr (key_mem_load hrow)

theorem sound_load {log : List (Saved τ)} (hfits : Fits log s) : Sound (kzStorageLoad s) where
  fits := ⟨log, hfits.load⟩
  keys := nodup_keys_load s
  rows r hr ht htype := by
    rcases List.mem_append.mp hr with hr | hr
    · obtain ⟨row, hrow, rfl⟩ := List.mem_map.mp hr
      exact ⟨row, hrow, rfl⟩
    · obtain ⟨row, -, rfl⟩ := List.mem_map.mp hr
      cases ht

/-! ### Deletions -/

/-- Entries go, and rows that none of the entries left needs. -/
theorem Sound.shrink (h : Sound s) (hfits : ∃ log, Fits log s')
    (hq : s'.retryQueue.Sublist s.retryQueue)
    (hrows : ∀ r ∈ s'.retryQueue, ∀ row ∈ (s.tables .outgoingQueue).rows, r.table = .outgoingQueue →
      row.1 = r.msgId → row ∈ (s'.tables .outgoingQueue).rows) : Sound s' where
  fits := hfits
  keys := h.keys.sublist (hq.map key)
  rows r hr ht htype := by
    obtain ⟨row, hrow, hid⟩ := h.rows r (hq.subset hr) ht htype
    exact ⟨row, hrows r hr row hrow ht hid, hid⟩

/-- Rows go, and entries that none of the rows left needs. -/
theorem RowsHaveEntries.shrink (h : RowsHaveEntries s)
    (hrows : ∀ row ∈ (s'.tables .outgoingQueue).rows, row ∈ (s.tables .outgoingQueue).rows)
    (hstay : ∀ row ∈ (s'.tables .outgoingQueue).rows, ∀ r ∈ s.retryQueue, r.table = .outgoingQueue →
      r.msgId = row.1 → r ∈ s'.retryQueue) : RowsHaveEntries s' := by
  intro row hrow htype
  obtain ⟨r, hr, ht, hid⟩ := h row (hrows row hrow) htype
  exact ⟨r, hstay row hrow r hr ht hid, ht, hid⟩

theorem Sound.acknowledge (h : Sound s) (msgId : ℕ) :
    Sound (kzStorageDelete msgId .outgoingQueue s) := by
  obtain ⟨log, hfits⟩ := h.fits
  refine h.shrink ⟨log, hfits.delete msgId .outgoingQueue⟩ List.filter_sublist
    fun r hr row hrow ht hid => ?_
  have hne : ¬ (r.msgId = msgId ∧ r.table = .outgoingQueue) := by
    simpa only [Bool.not_eq_true', decide_eq_false_iff_not] using (List.mem_filter.mp hr).2
  refine (mem_rows_deleteRows rfl).mpr ⟨hrow, fun _ => ?_⟩
  rw [decide_eq_false_iff_not, hid]
  exact fun hid' => hne ⟨hid', ht⟩

theorem RowsHaveEntries.acknowledge (h : RowsHaveEntries s) (msgId : ℕ) :
    RowsHaveEntries (kzStorageDelete msgId .outgoingQueue s) := by
  refine h.shrink (fun row hrow => ((mem_rows_deleteRows rfl).mp hrow).1)
    fun row hrow r hr _ hid => ?_
  have hne : row.1 ≠ msgId := of_decide_eq_false (((mem_rows_deleteRows rfl).mp hrow).2 rfl)
  refine List.mem_filter.mpr ⟨hr, ?_⟩
  rw [Bool.not_eq_true', decide_eq_false_iff_not, hid]
  exact fun h' => hne h'.1

theorem mem_deleteList_iff (h : Sound s) {r : RetryMsg τ} (hr : r ∈ s.retryQueue)
    (ht : r.table = .outgoingQueue) : r.msgId ∈ deleteList s ↔ dropsOnClear r = true := by
  unfold deleteList
  rw [List.mem_map]
  constructor
  · rintro ⟨r', hr', hid⟩
    rw [List.mem_filter, Bool.and_eq_true, decide_eq_true_iff] at hr'
    obtain ⟨hr', hdrop, ht'⟩ := hr'
    have heq : r' = r := List.inj_on_of_nodup_map h.keys hr' hr (by rw [key, key, hid, ht, ht'])
    exact heq ▸ hdrop
  · intro hdrop
    exact ⟨r, List.mem_filter.mpr ⟨hr, by rw [hdrop, ht]; rfl⟩, rfl⟩

theorem Sound.clear (h : Sound s) : Sound (kzStorageClear s) := by
  obtain ⟨log, hfits⟩ := h.fits
  refine h.shrink ⟨log, hfits.clear⟩ List.filter_sublist fun r hr row hrow ht hid => ?_
  obtain ⟨hr, hkeep⟩ := List.mem_filter.mp hr
  refine (mem_rows_deleteRows rfl).mpr ⟨hrow, fun _ => ?_⟩
  rw [decide_eq_false_iff_not, hid, mem_deleteList_iff h hr ht]
  simpa using hkeep

theorem RowsHaveEntries.clear (h : RowsHaveEntries s) (hs : Sound s) :
    RowsHaveEntries (kzStorageClear s) := by
  refine h.shrink (fun row hrow => ((mem_rows_deleteRows rfl).mp hrow).1)
    fun row hrow r hr ht hid => ?_
  have hno : row.1 ∉ deleteList s := of_decide_eq_false (((mem_rows_deleteRows rfl).mp hrow).2 rfl)
  rw [← hid, mem_deleteList_iff hs hr ht] at hno
  exact List.mem_filter.mpr ⟨hr, by simpa using hno⟩

theorem rows_acceptUpload [DecidableEq τ] (uid : τ) (s : Store τ) :
    ((kzStorageDeleteByValue uid .uploadQueue (eraseUpload uid s)).tables .outgoingQueue).rows =
      (s.tables .outgoingQueue).rows := by
  unfold kzStorageDeleteByValue
  dsimp only
  rw [tables_mapTable_of_ne _ (by decide)]
  rfl

theorem Sound.acceptUpload [DecidableEq τ] (h : Sound s) (uid : τ) :
    Sound (kzStorageDeleteByValue uid .uploadQueue (eraseUpload uid s)) := by
  obtain ⟨log, hfits⟩ := h.fits
  refine h.shrink ⟨log, (hfits.eraseUpload uid).deleteByValue uid .uploadQueue⟩
    List.eraseP_sublist ?_
  intro r _ row hrow _ _
  rwa [rows_acceptUpload]

theorem RowsHaveEntries.acceptUpload [DecidableEq τ] (h : RowsHaveEntries s) (uid : τ) :
    RowsHaveEntries (kzStorageDeleteByValue uid .uploadQueue (eraseUpload uid s)) := by
  refine h.shrink (fun row hrow => ?_) fun row hrow r hr ht _ => ?_
  · rwa [rows_acceptUpload] at hrow
  · refine (List.mem_eraseP_of_neg ?_).mpr hr
    rw [decide_eq_true_eq, ht]
    rintro ⟨h', -⟩
    cases h'

/-! ### Times and counts -/

theorem Sound.retry (h : Sound s) {q : List (RetryMsg τ)} (hkeys : (q.map key).Nodup)
    (hq : ∀ r ∈ q, ∃ r' ∈ s.retryQueue, r =
      { r' with timestamp := r.timestamp, retryCount := r.retryCount }) :
    Sound { s with retryQueue := q } := by
  obtain ⟨log, hfits⟩ := h.fits
  refine ⟨⟨log, hfits.retry hq⟩, hkeys, fun r hr ht htype => ?_⟩
  obtain ⟨r', hr', he⟩ := hq r hr
  rw [he] at ht htype ⊢
  exact h.rows r' hr' ht htype

theorem Sound.requeueAllPending (h : Sound s) : Sound (kzStorageRequeueAllPending s) := by
  refine h.retry ((keys_requeueAllPending s).symm ▸ h.keys) fun r hr => ?_
  obtain ⟨r', hr', rfl⟩ := List.mem_map.mp hr
  exact ⟨r', hr', rfl⟩

theorem RowsHaveEntries.requeueAllPending (h : RowsHaveEntries s) :
    RowsHaveEntries (kzStorageRequeueAllPending s) := by
  intro row hrow htype
  rw [exists_entry_iff, keys_requeueAllPending]
  exact exists_entry_iff.mp (h row hrow htype)

section Pass
variable {isEmpty : τ → Bool} {delay maxRetries ts : ℤ}

theorem nodup_keys_pass (h : Sound s) :
    (((retryPass isEmpty delay maxRetries ts s.retryQueue).1.map key) ++
      (retryDrops isEmpty delay maxRetries ts s.retryQueue).map key).Nodup :=
  (perm_retryPass isEmpty delay maxRetries ts s.retryQueue).nodup_iff.mpr h.keys

theorem Sound.retryPass (h : Sound s) :
    Sound { s with retryQueue := (retryPass isEmpty delay maxRetries ts s.retryQueue).1 } :=
  h.retry (nodup_keys_pass h).of_append_left (retryPass_entries isEmpty delay maxRetries ts _)

/-- A message without reply that a pass reaches keeps its row. -/
def ReachesNoReply (isEmpty : τ → Bool) (delay maxRetries ts : ℤ) (s : Store τ) : Prop :=
  ∃ r, Reaches isEmpty delay maxRetries ts s.retryQueue r ∧ r.table = .outgoingQueue ∧
    NeedsNoReply r.msgType

/-- **A pass keeps the entries of all rows where it reaches no message without reply.** -/
theorem rowsHaveEntries_pass_iff (h : Sound s) (hp : RowsHaveEntries s) :
    RowsHaveEntries
        { s with retryQueue := (Queue.retryPass isEmpty delay maxRetries ts s.retryQueue).1 } ↔
      ¬ ReachesNoReply isEmpty delay maxRetries ts s := by
  have hperm := perm_retryPass isEmpty delay maxRetries ts s.retryQueue
  constructor
  · rintro hall ⟨r, hreach, ht, htype⟩
    have hdrop := (mem_retryDrops_iff htype s.retryQueue).mpr hreach
    obtain ⟨pre, post, hq, -⟩ := hreach
    have hr : r ∈ s.retryQueue := hq ▸ List.mem_append_right _ List.mem_cons_self
    obtain ⟨row, hrow, hid⟩ := h.rows r hr ht htype
    have hrowtype : NeedsNoReply row.2.msgType := h.agree hrow hr ht hid.symm ▸ htype
    have hkept := exists_entry_iff.mp (hall row hrow hrowtype)
    refine List.disjoint_of_nodup_append (nodup_keys_pass h) hkept (List.mem_map.mpr ⟨r, hdrop, ?_⟩)
    rw [key, ht, hid]
  · intro hno row hrow htype
    have hmem := hperm.mem_iff.mpr (exists_entry_iff.mp (hp row hrow htype))
    rcases List.mem_append.mp hmem with hmem | hmem
    · exact exists_entry_iff.mpr hmem
    · obtain ⟨r, hdrop, hkey⟩ := List.mem_map.mp hmem
      have hr : r ∈ s.retryQueue := (sublist_retryDrops ..).subset hdrop
      rw [key, Prod.mk.injEq] at hkey
      have hrtype : NeedsNoReply r.msgType := (h.agree hrow hr hkey.1 hkey.2).symm ▸ htype
      exact absurd ⟨r, (mem_retryDrops_iff hrtype _).mp hdrop, hkey.1, hrtype⟩ hno

end Pass

/-! ### Runs -/

section Runs
variable [DecidableEq τ] (isEmpty : τ → Bool)

/-- **The steps that leave no row behind**: no pass reaches a message without reply. -/
def PassesBefore (s : Store τ) : Event τ → Prop
  | .retryPass delay maxRetries ts => ¬ ReachesNoReply isEmpty delay maxRetries ts s
  | _ => True

theorem Sound.next (h : Sound s) (e : Event τ) : Sound (next isEmpty s e) := by
  cases e with
  | save now text msgType => exact h.save now text msgType .outgoingQueue
  | saveUpload now uid => exact h.save now uid 0 .uploadQueue
  | retryPass delay maxRetries ts => exact h.retryPass
  | acknowledge msgId => exact h.acknowledge msgId
  | acceptUpload uid => exact h.acceptUpload uid
  | requeueAllPending => exact h.requeueAllPending
  | clear => exact h.clear
  | load =>
    obtain ⟨log, hfits⟩ := h.fits
    exact sound_load hfits

theorem rowsHaveEntries_next_iff (s : Store τ) (e : Event τ) (h : Sound s)
    (hp : RowsHaveEntries s) :
    RowsHaveEntries (next isEmpty s e) ↔ PassesBefore isEmpty s e := by
  cases e with
  | save now text msgType => exact iff_of_true (hp.save now text msgType .outgoingQueue) trivial
  | saveUpload now uid => exact iff_of_true (hp.save now uid 0 .uploadQueue) trivial
  | retryPass delay maxRetries ts => exact rowsHaveEntries_pass_iff h hp
  | acknowledge msgId => exact iff_of_true (hp.acknowledge msgId) trivial
  | acceptUpload uid => exact iff_of_true (hp.acceptUpload uid) trivial
  | requeueAllPending => exact iff_of_true hp.requeueAllPending trivial
  | clear => exact iff_of_true (hp.clear h) trivial
  | load => exact iff_of_true (.load s) trivial

/-- **No row is left without its entry** in the states of a run, from the load at the start on,
exactly where no retry pass reaches a message without reply. -/
theorem rows_have_entries_iff (tables : StorageTable → Table (Stored τ)) (lastTs : ℤ)
    (es : List (Event τ)) :
    (∀ es', es' <+: es →
      RowsHaveEntries (run (next isEmpty) (kzStorageLoad ⟨tables, [], lastTs⟩) es')) ↔
      Along (next isEmpty) (PassesBefore isEmpty) (kzStorageLoad ⟨tables, [], lastTs⟩) es := by
  obtain ⟨log, hfits⟩ := exists_fits tables lastTs
  exact forall_prefix_iff (fun _ e hs => hs.next isEmpty e) (rowsHaveEntries_next_iff isEmpty)
    (sound_load hfits) (.load _)

end Runs

end Steps

/-! ### A row that stays -/

section Sample

/-- A map change is announced, and a retry pass comes later. -/
def sampleEvents : List (Event String) := [.save 0 "m" msgMapChange, .retryPass 5 4 100]

/-- **The row of a MAP_CHANGE stays** when a retry pass drops its entry. -/
theorem row_left : ¬ RowsHaveEntries
    (run (next String.isEmpty) (kzStorageLoad ⟨fun _ => .empty, [], 0⟩) sampleEvents) := by
  intro h
  obtain ⟨r, hr, -⟩ := h (1, ⟨msgMapChange, "m", 0⟩) (by decide) (Or.inr rfl)
  have hnil :
      (run (next String.isEmpty) (kzStorageLoad ⟨fun _ => .empty, [], 0⟩) sampleEvents).retryQueue =
      [] := by
    decide
  rw [hnil] at hr
  exact List.not_mem_nil hr

end Sample

end KzGlobal.Storage.NoReply
