import KzGlobal.Storage.Ledger

/-! # The ids of three threads

The main thread, the WebSocket thread and the replay writer thread each allocate an id and save a
message under it in two steps. Two threads that allocate from one table before either saves get the
same id: the second `INSERT` fails, and the deletion of one message removes the other from the retry
queue (`ids_shared`). Where no thread allocates from a table while another holds an unsaved id of
it, every saved message keeps an id, a row and retry-queue entries of its own (`ids_distinct`). -/

namespace KzGlobal.Storage.Ids

open KzGlobal.Lib.Autoincrement KzGlobal.Lib.Runs KzGlobal.Storage.Queue KzGlobal.Storage.Ledger

/-! ### The threads -/

/-- The threads that save messages. -/
inductive Thread
  | main
  | websocket
  | writer
  deriving DecidableEq

/-- The storage, the id that each thread has allocated and not yet saved, and what was saved and
deleted so far. -/
structure State (τ : Type) where
  store : Store τ
  pending : Thread → Option (StorageTable × ℕ)
  saved : List (Saved τ)
  deleted : List (StorageTable × ℕ)

/-- A step of a thread. Only the first two are steps of a particular one. -/
inductive Op (τ : Type)
  | getNextId (thread : Thread) (table : StorageTable)
  | save (thread : Thread) (now : ℤ) (text : τ) (msgType : ℕ)
  | delete (msgId : ℕ) (table : StorageTable)
  | deleteByValue (value : τ) (table : StorageTable)
  | eraseUpload (uid : τ)
  | load
  | clear
  | requeueAllPending
  | retryPass (isEmpty : τ → Bool) (delay maxRetries : ℤ) (ts : ℤ)
  | restart

variable {τ : Type}

/-- Nothing saved yet. -/
def State.init : State τ := ⟨.empty, fun _ => none, [], []⟩

/-- **One step.** A thread that holds an id saves it before it allocates again. -/
def next [DecidableEq τ] (s : State τ) : Op τ → State τ
  | .getNextId thread table =>
    match s.pending thread with
    | none => { s with pending :=
        Function.update s.pending thread (some (table, kzStorageGetNextId table s.store)) }
    | some _ => s
  | .save thread now text msgType =>
    match s.pending thread with
    | none => s
    | some (table, msgId) =>
      { store := kzStorageSave now text msgType msgId table s.store
        pending := Function.update s.pending thread none
        saved := s.saved ++ [⟨table, msgId, msgType, text⟩]
        deleted := s.deleted.filter (· ≠ (table, msgId)) }
  | .delete msgId table =>
    { s with store := kzStorageDelete msgId table s.store, deleted := (table, msgId) :: s.deleted }
  | .deleteByValue value table =>
    { s with
      store := kzStorageDeleteByValue value table s.store
      deleted := (s.saved.filter fun m => m.table = .uploadQueue ∧ m.text = value).map
        (fun m => (m.table, m.id)) ++ s.deleted }
  | .eraseUpload uid => { s with store := eraseUpload uid s.store }
  | .load => { s with store := kzStorageLoad s.store }
  | .clear =>
    { s with
      store := kzStorageClear s.store
      deleted := (deleteList s.store).map (fun id => (StorageTable.outgoingQueue, id)) ++
        s.deleted }
  | .requeueAllPending => { s with store := kzStorageRequeueAllPending s.store }
  | .retryPass isEmpty delay maxRetries ts =>
    { s with store := { s.store with
        retryQueue := (retryPass isEmpty delay maxRetries ts s.store.retryQueue).1 } }
  | .restart =>
    { s with store := { kzStorageLoad s.store with lastTs := 0 }, pending := fun _ => none }

/-- What the ids are for: no two saved messages of a table share one, a message has its row until it
is deleted, and a deletion removes no other message from the retry queue. -/
structure Sound (s : State τ) : Prop where
  ids : DistinctIds s.saved
  rows : ∀ m ∈ s.saved, (m.table, m.id) ∉ s.deleted → HasRow s.store m
  removes : ∀ m ∈ s.saved, ∀ r ∈ s.store.retryQueue,
    r ∉ (kzStorageDelete m.id m.table s.store).retryQueue → m.IsEntry r

/-- No thread allocates from a table while another holds an unsaved id of it. -/
def Exclusive (s : State τ) : Op τ → Prop
  | .getNextId thread table => ∀ th, th ≠ thread → ∀ id, s.pending th ≠ some (table, id)
  | _ => True

/-! ### The invariant -/

/-- The ledger fits, undeleted messages have rows, and an unsaved id is the next one of its table
and the only one. -/
structure Inv (s : State τ) : Prop where
  fits : Fits s.saved s.store
  rows : ∀ m ∈ s.saved, (m.table, m.id) ∉ s.deleted → HasRow s.store m
  next : ∀ th table id, s.pending th = some (table, id) → id = kzStorageGetNextId table s.store
  alone : ∀ th th' table id id', s.pending th = some (table, id) →
    s.pending th' = some (table, id') → th = th'

theorem Inv.sound {s : State τ} (h : Inv s) : Sound s where
  ids := h.fits.ids
  rows := h.rows
  removes m hm r hr hdel := by
    have hkey : r.msgId = m.id ∧ r.table = m.table := by
      by_contra hne
      refine hdel (List.mem_filter.mpr ⟨hr, ?_⟩)
      rw [decide_eq_false hne]; rfl
    obtain ⟨m', hm', he⟩ := h.fits.entries r hr
    rw [Saved.IsEntry] at he
    have : m' = m := h.fits.ids.eq hm' hm (by rw [he]; exact hkey.2) (by rw [he]; exact hkey.1)
    rw [← this]
    exact he

theorem Inv.init : Inv (.init : State τ) where
  fits := Fits.empty
  rows _ h := absurd h List.not_mem_nil
  next _ _ _ h := by cases h
  alone _ _ _ _ _ h := by cases h

theorem Inv.store {s : State τ} (h : Inv s) {store : Store τ} {deleted : List (StorageTable × ℕ)}
    (hfits : Fits s.saved store)
    (hseq : ∀ table, kzStorageGetNextId table store = kzStorageGetNextId table s.store)
    (hrows : ∀ m ∈ s.saved, (m.table, m.id) ∉ deleted → HasRow store m) :
    Inv { s with store, deleted } where
  fits := hfits
  rows := hrows
  next th table id hp := (h.next th table id hp).trans (hseq table).symm
  alone := h.alone

theorem Inv.getNextId {s : State τ} (h : Inv s) {thread : Thread} {table : StorageTable}
    (hC : ∀ th, th ≠ thread → ∀ id, s.pending th ≠ some (table, id)) :
    Inv { s with pending :=
      Function.update s.pending thread (some (table, kzStorageGetNextId table s.store)) } := by
  have held {th : Thread} {t : StorageTable} {id : ℕ} (hp : Function.update s.pending thread
      (some (table, kzStorageGetNextId table s.store)) th = some (t, id)) :
      (th = thread ∧ t = table ∧ id = kzStorageGetNextId table s.store) ∨
        (th ≠ thread ∧ s.pending th = some (t, id)) := by
    rcases eq_or_ne th thread with rfl | hne
    · rw [Function.update_self, Option.some.injEq, Prod.mk.injEq] at hp
      exact Or.inl ⟨rfl, hp.1.symm, hp.2.symm⟩
    · rw [Function.update_of_ne hne] at hp
      exact Or.inr ⟨hne, hp⟩
  refine ⟨h.fits, h.rows, fun th t id hp => ?_, fun th th' t id id' hp hp' => ?_⟩
  · rcases held hp with ⟨-, rfl, rfl⟩ | ⟨-, hp⟩
    · rfl
    · exact h.next th t id hp
  · rcases held hp with ⟨rfl, rfl, -⟩ | ⟨hne, hq⟩ <;>
      rcases held hp' with ⟨rfl, ht, -⟩ | ⟨hne', hq'⟩
    · rfl
    · exact absurd hq' (hC th' hne' id')
    · exact absurd (ht ▸ hq) (hC th hne id)
    · exact h.alone th th' t id id' hq hq'

theorem Inv.save {s : State τ} (h : Inv s) {thread : Thread} {table : StorageTable} {msgId : ℕ}
    (hp : s.pending thread = some (table, msgId)) (now : ℤ) (text : τ) (msgType : ℕ) :
    Inv
      { store := kzStorageSave now text msgType msgId table s.store
        pending := Function.update s.pending thread none
        saved := s.saved ++ [⟨table, msgId, msgType, text⟩]
        deleted := s.deleted.filter (· ≠ (table, msgId)) } := by
  have hid := h.next thread table msgId hp
  subst hid
  have hfits := h.fits.save now text msgType table
  refine ⟨hfits, fun m hm hd => ?_, fun th t id hq => ?_, fun th th' t id id' hq hq' => ?_⟩
  · rcases List.mem_append.mp hm with hm | hm
    · have hne : (m.table, m.id) ≠ (table, kzStorageGetNextId table s.store) := by
        intro he
        rw [Prod.mk.injEq] at he
        have hb := h.fits.bound m hm
        rw [he.1, he.2] at hb
        exact absurd hb (Nat.not_succ_le_self _)
      refine (h.rows m hm fun hmem => hd (List.mem_filter.mpr ⟨hmem, ?_⟩)).save ..
      exact decide_eq_true hne
    · rw [List.mem_singleton.mp hm]
      exact ⟨_, row_save now text msgType table s.store, rfl⟩
  · have hth : th ≠ thread := by
      rintro rfl
      simp only [Function.update_self] at hq
      cases hq
    simp only [Function.update_of_ne hth] at hq
    have ht : t ≠ table := by
      rintro rfl
      exact hth (h.alone th thread t _ _ hq hp)
    rw [h.next th t id hq, kzStorageGetNextId, kzStorageGetNextId, tables_save_of_ne _ _ _ _ ht]
  · have old {th : Thread} {x : StorageTable × ℕ}
        (hq : Function.update s.pending thread none th = some x) :
        s.pending th = some x := by
      rcases eq_or_ne th thread with rfl | hne
      · rw [Function.update_self] at hq; cases hq
      · rwa [Function.update_of_ne hne] at hq
    exact h.alone th th' t id id' (old hq) (old hq')

variable [DecidableEq τ]

/-- **One step keeps the invariant**, unless it allocates from a table beside another thread. -/
theorem Inv.step {s : State τ} (h : Inv s) {op : Op τ} (hC : Exclusive s op) :
    Inv (Ids.next s op) := by
  cases op with
  | getNextId thread table =>
    rcases hp : s.pending thread with _ | x
    · simp only [Ids.next, hp]
      exact h.getNextId hC
    · simp only [Ids.next, hp]
      exact h
  | save thread now text msgType =>
    rcases hp : s.pending thread with _ | ⟨table, msgId⟩
    · simp only [Ids.next, hp]
      exact h
    · simp only [Ids.next, hp]
      exact h.save hp now text msgType
  | delete msgId table =>
    refine h.store (h.fits.delete msgId table) (getNextId_deleteRows _ _ rfl) fun m hm hd => ?_
    rw [List.mem_cons, not_or] at hd
    exact (h.rows m hm hd.2).delete fun he => hd.1 (by rw [he.1, he.2])
  | deleteByValue value table =>
    refine h.store (h.fits.deleteByValue value table) (fun t => ?_) fun m hm hd => ?_
    · cases table with
      | outgoingQueue => rfl
      | uploadQueue => exact getNextId_deleteRows _ _ rfl t
    · rw [List.mem_append, not_or] at hd
      refine (h.rows m hm hd.2).deleteByValue fun he => hd.1 (List.mem_map.mpr ⟨m, ?_, rfl⟩)
      exact List.mem_filter.mpr ⟨hm, decide_eq_true he⟩
  | eraseUpload uid => exact h.store (h.fits.eraseUpload uid) (fun _ => rfl) h.rows
  | load => exact h.store h.fits.load (fun _ => rfl) h.rows
  | clear =>
    refine h.store h.fits.clear (getNextId_deleteRows _ _ rfl) fun m hm hd => ?_
    rw [List.mem_append, not_or] at hd
    refine (h.rows m hm hd.2).clear fun he => hd.1 (List.mem_map.mpr ⟨m.id, he.2, ?_⟩)
    rw [he.1]
  | requeueAllPending => exact h.store h.fits.requeueAllPending (fun _ => rfl) h.rows
  | retryPass isEmpty delay maxRetries ts =>
    exact h.store (h.fits.retry (retryPass_entries isEmpty delay maxRetries ts _))
      (fun _ => rfl) h.rows
  | restart =>
    have hl := h.fits.load
    exact ⟨hl.weaken (fun _ => le_rfl) (fun _ _ hr => hr) hl.entries, h.rows,
      fun _ _ _ hp => (by cases hp), fun _ _ _ _ _ hp => (by cases hp)⟩

/-- **Message ids are never shared**, in any interleaving in which no thread allocates from a table
while another holds an unsaved id of it. -/
theorem ids_distinct {ops : List (Op τ)} (hC : Along Ids.next Exclusive .init ops) :
    Sound (run Ids.next (.init : State τ) ops) :=
  (Along.run (fun _ _ h hC => h.step hC) hC Inv.init).sound

/-- A player joins and a run is submitted, one after the other; the join is then acknowledged. -/
def inTurn : List (Op ℕ) :=
  [.getNextId .main .outgoingQueue, .save .main 100 1 msgPlayerJoin,
    .getNextId .writer .outgoingQueue, .save .writer 100 2 msgAddRecord, .delete 1 .outgoingQueue]

theorem ids_distinct_inTurn : Sound (run Ids.next (.init : State ℕ) inTurn) :=
  ids_distinct ⟨fun _ _ _ h => (by cases h), trivial,
    fun th _ _ h => (by cases th <;> cases h), trivial, trivial, trivial⟩

/-- A player joins while a run is submitted. -/
def atOnce : List (Op ℕ) :=
  [.getNextId .main .outgoingQueue, .getNextId .writer .outgoingQueue,
    .save .main 100 1 msgPlayerJoin, .save .writer 100 2 msgAddRecord]

/-- Two saved messages with one id: the submission has no row, and the deletion of the other message
removes it from the retry queue. -/
theorem ids_shared :
    (run Ids.next (.init : State ℕ) atOnce).saved =
      [⟨.outgoingQueue, 1, msgPlayerJoin, 1⟩, ⟨.outgoingQueue, 1, msgAddRecord, 2⟩] ∧
    (run Ids.next (.init : State ℕ) atOnce).deleted = [] ∧
    ¬ HasRow (run Ids.next (.init : State ℕ) atOnce).store ⟨.outgoingQueue, 1, msgAddRecord, 2⟩ ∧
    (run Ids.next (.init : State ℕ) atOnce).store.retryQueue.map RetryMsg.message = [1, 2] ∧
    (kzStorageDelete 1 .outgoingQueue
      (run Ids.next (.init : State ℕ) atOnce).store).retryQueue = [] ∧
    ¬ Sound (run Ids.next (.init : State ℕ) atOnce) := by
  refine ⟨by decide, by decide, ?_, by decide, by decide, fun h => ?_⟩
  · rintro ⟨r, hr, he⟩
    have hrows : ((run Ids.next (.init : State ℕ) atOnce).store.tables .outgoingQueue).rows =
        [(1, ⟨msgPlayerJoin, 1, 100⟩)] := by decide
    rw [hrows, List.mem_singleton] at hr
    rw [hr] at he
    cases he
  · have hids := h.ids
    have hsaved : (run Ids.next (.init : State ℕ) atOnce).saved =
      [⟨.outgoingQueue, 1, msgPlayerJoin, 1⟩, ⟨.outgoingQueue, 1, msgAddRecord, 2⟩] := by decide
    rw [hsaved] at hids
    exact (List.pairwise_cons.mp hids).1 _ (List.mem_singleton_self _) rfl rfl

end KzGlobal.Storage.Ids
