import Mathlib.Computability.Language
import KzGlobal.Lib.Runs

/-! # Threads that lock mutexes and wait for room

A thread runs one section of its code after the other. A section is a word of operations: it locks
and unlocks mutexes, puts something into a queue, which blocks while the queue is full, takes from a
queue, or waits until another thread is idle. Where the sections are well nested and the mutexes and
queues are ranked such that a thread only waits for what ranks above all that it holds (`Nested`),
mutexes alone never block for good: if there is room for what is still put (`finishes_of_room`), or
the main thread is idle and may take from the queues (`finishes_of_idle`), then every section can
end. A thread that waits for a full queue blocks a main thread that waits for it (`stays_blocked`).
-/

namespace KzGlobal.Lib.Locks

open KzGlobal.Lib.Runs

variable {τ μ κ : Type*}

/-! ### Sections -/

/-- What a thread `τ` does with the mutexes `μ` and the queues `κ`. -/
inductive Op (τ μ κ : Type*)
  | lock (m : μ)
  | unlock (m : μ)
  | put (q : κ)
  | take (q : κ)
  | join (t : τ)
  deriving DecidableEq

/-- **A well nested word** of a thread that holds mutexes of ranks below `n` only: what it waits for
ranks from `n` on, and it waits for a thread only while it holds nothing. -/
inductive Nested (rank : μ → ℕ) (queueRank : κ → ℕ) : ℕ → List (Op τ μ κ) → Prop
  | nil {n : ℕ} : Nested rank queueRank n []
  | put {n : ℕ} {q : κ} {w : List (Op τ μ κ)} (hq : n ≤ queueRank q)
      (hw : Nested rank queueRank n w) : Nested rank queueRank n (.put q :: w)
  | take {n : ℕ} {q : κ} {w : List (Op τ μ κ)} (hw : Nested rank queueRank n w) :
      Nested rank queueRank n (.take q :: w)
  | join {t : τ} {w : List (Op τ μ κ)} (hw : Nested rank queueRank 0 w) :
      Nested rank queueRank 0 (.join t :: w)
  | lock {n : ℕ} {m : μ} {v w : List (Op τ μ κ)} (hm : n ≤ rank m)
      (hv : Nested rank queueRank (rank m + 1) v) (hw : Nested rank queueRank n w) :
      Nested rank queueRank n (.lock m :: (v ++ .unlock m :: w))

section Words
variable {rank : μ → ℕ} {queueRank : κ → ℕ} {n : ℕ}

theorem Nested.append {v w : List (Op τ μ κ)} (hv : Nested rank queueRank n v)
    (hw : Nested rank queueRank n w) : Nested rank queueRank n (v ++ w) := by
  induction hv with
  | nil => exact hw
  | put hq _ ih => exact .put hq (ih hw)
  | take _ ih => exact .take (ih hw)
  | join _ ih => exact .join (ih hw)
  | lock hm hv _ _ ih =>
    rw [List.cons_append, List.append_assoc, List.cons_append]
    exact .lock hm hv (ih hw)

/-- What only the main thread does: take from a queue and wait for another thread. -/
def Proper (main t : τ) : Op τ μ κ → Prop
  | .take _ => t = main
  | .join t' => t = main ∧ t' ≠ main
  | _ => True

/-- **The words of a language** are well nested, and thread `t` may do what they say. -/
def NestedIn (rank : μ → ℕ) (queueRank : κ → ℕ) (main t : τ) (n : ℕ)
    (l : Language (Op τ μ κ)) : Prop :=
  ∀ w ∈ l, Nested rank queueRank n w ∧ ∀ op ∈ w, Proper main t op

variable {main t : τ} {l l' : Language (Op τ μ κ)}

theorem nestedIn_one :
    NestedIn rank queueRank main t n (1 : Language (Op τ μ κ)) := by
  rintro _ rfl
  exact ⟨.nil, by simp⟩

theorem nestedIn_put {q : κ} (hq : n ≤ queueRank q) :
    NestedIn rank queueRank main t n ({[.put q]} : Language (Op τ μ κ)) := by
  rintro _ rfl
  exact ⟨.put hq .nil, by simp [Proper]⟩

theorem nestedIn_take :
    NestedIn rank queueRank main main n ({w | ∃ q, w = [.take q]} : Language (Op τ μ κ)) := by
  rintro _ ⟨q, rfl⟩
  exact ⟨.take .nil, by simp [Proper]⟩

theorem nestedIn_join (ht : t ≠ main) :
    NestedIn rank queueRank main main 0 ({[.join t]} : Language (Op τ μ κ)) := by
  rintro _ rfl
  exact ⟨.join .nil, by simp [Proper, ht]⟩

theorem NestedIn.add (h : NestedIn rank queueRank main t n l)
    (h' : NestedIn rank queueRank main t n l') : NestedIn rank queueRank main t n (l + l') :=
  fun w hw => hw.elim (h w) (h' w)

theorem NestedIn.mul (h : NestedIn rank queueRank main t n l)
    (h' : NestedIn rank queueRank main t n l') : NestedIn rank queueRank main t n (l * l') := by
  rintro _ ⟨v, hv, w, hw, rfl⟩
  exact ⟨(h v hv).1.append (h' w hw).1, List.forall_mem_append.mpr ⟨(h v hv).2, (h' w hw).2⟩⟩

theorem NestedIn.kstar (h : NestedIn rank queueRank main t n l) :
    NestedIn rank queueRank main t n (KStar.kstar l) := by
  intro w hw
  obtain ⟨ws, rfl, hws⟩ := Language.mem_kstar.mp hw
  clear hw
  induction ws with
  | nil => exact ⟨.nil, by simp⟩
  | cons v ws ih =>
    rw [List.forall_mem_cons] at hws
    obtain ⟨hnested, hproper⟩ := h v hws.1
    obtain ⟨hnested', hproper'⟩ := ih hws.2
    exact ⟨hnested.append hnested', List.forall_mem_append.mpr ⟨hproper, hproper'⟩⟩

/-- `l` with `m` locked. -/
def guarded (m : μ) (l : Language (Op τ μ κ)) : Language (Op τ μ κ) :=
  {[.lock m]} * l * {[.unlock m]}

theorem mem_guarded {m : μ} {w : List (Op τ μ κ)} :
    w ∈ guarded m l ↔ ∃ v ∈ l, w = .lock m :: (v ++ [.unlock m]) := by
  unfold guarded
  constructor
  · rintro ⟨_, ⟨_, rfl, v, hv, rfl⟩, _, rfl, rfl⟩
    exact ⟨v, hv, rfl⟩
  · rintro ⟨v, hv, rfl⟩
    exact ⟨_, ⟨_, rfl, v, hv, rfl⟩, _, rfl, rfl⟩

/-- **A guarded section** is well nested if what it guards is, above the mutex. -/
theorem NestedIn.guarded {m : μ} (hm : n ≤ rank m)
    (h : NestedIn rank queueRank main t (rank m + 1) l) :
    NestedIn rank queueRank main t n (guarded m l) := by
  intro w hw
  obtain ⟨v, hv, rfl⟩ := mem_guarded.mp hw
  refine ⟨.lock hm (h v hv).1 .nil, fun op hop => ?_⟩
  simp only [List.mem_cons, List.mem_append, List.not_mem_nil, or_false] at hop
  rcases hop with rfl | hop | rfl
  · trivial
  · exact (h v hv).2 op hop
  · trivial

/-! ### Code -/

/-- What a function does with mutexes, queues and threads: nothing, an entry that it puts into a
queue or takes from one, waiting for a thread, one thing after the other, one of two, something any
number of times, and something with a mutex locked. -/
inductive Code (τ μ κ : Type*)
  | skip
  | put (q : κ)
  | take
  | join (t : τ)
  | seq (a b : Code τ μ κ)
  | alt (a b : Code τ μ κ)
  | star (a : Code τ μ κ)
  | guard (m : μ) (a : Code τ μ κ)

instance : One (Code τ μ κ) := ⟨.skip⟩
instance : Mul (Code τ μ κ) := ⟨.seq⟩
instance : Add (Code τ μ κ) := ⟨.alt⟩

/-- **The sections of a code**: the words of its paths. -/
def Code.sections : Code τ μ κ → Language (Op τ μ κ)
  | .skip => 1
  | .put q => {[.put q]}
  | .take => {w | ∃ q, w = [.take q]}
  | .join t => {[.join t]}
  | .seq a b => a.sections * b.sections
  | .alt a b => a.sections + b.sections
  | .star a => KStar.kstar a.sections
  | .guard m a => guarded m a.sections

variable [DecidableEq τ]

/-- The check that a code of thread `t` waits only for what ranks from `n` on. -/
def Code.nested (rank : μ → ℕ) (queueRank : κ → ℕ) (main t : τ) : ℕ → Code τ μ κ → Bool
  | _, .skip => true
  | n, .put q => n ≤ queueRank q
  | _, .take => t = main
  | n, .join t' => n = 0 ∧ t = main ∧ t' ≠ main
  | n, .seq a b => a.nested rank queueRank main t n && b.nested rank queueRank main t n
  | n, .alt a b => a.nested rank queueRank main t n && b.nested rank queueRank main t n
  | n, .star a => a.nested rank queueRank main t n
  | n, .guard m a => n ≤ rank m && a.nested rank queueRank main t (rank m + 1)

/-- **The check is sound.** -/
theorem Code.nestedIn_sections {a : Code τ μ κ} (h : a.nested rank queueRank main t n) :
    NestedIn rank queueRank main t n a.sections := by
  induction a generalizing n with
  | skip => exact nestedIn_one
  | put q => exact nestedIn_put (of_decide_eq_true h)
  | take =>
    obtain rfl : t = main := of_decide_eq_true h
    exact nestedIn_take
  | join t' =>
    obtain ⟨rfl, rfl, ht'⟩ := of_decide_eq_true h
    exact nestedIn_join ht'
  | seq a b iha ihb =>
    rw [Code.nested, Bool.and_eq_true] at h
    exact (iha h.1).mul (ihb h.2)
  | alt a b iha ihb =>
    rw [Code.nested, Bool.and_eq_true] at h
    exact (iha h.1).add (ihb h.2)
  | star a ih => exact (ih h).kstar
  | guard m a ih =>
    rw [Code.nested, Bool.and_eq_true, decide_eq_true_iff] at h
    exact (ih h.2).guarded h.1

end Words

/-! ### The machine -/

/-- What each thread still does of its section, who holds each mutex, and how many entries a queue
has. -/
structure State (τ μ κ : Type*) where
  prog : τ → List (Op τ μ κ)
  owner : μ → Option τ
  length : κ → ℕ

/-- A thread that has ended its section begins another, or a thread goes on. -/
inductive Action (τ μ κ : Type*)
  | enter (t : τ) (w : List (Op τ μ κ))
  | go (t : τ)

/-- All threads are idle. -/
def State.init (τ μ κ : Type*) : State τ μ κ := ⟨fun _ => [], fun _ => none, fun _ => 0⟩

section Machine
variable (capacity : κ → ℕ)

/-- What an operation waits for. -/
def Enabled (s : State τ μ κ) : Op τ μ κ → Prop
  | .lock m => s.owner m = none
  | .put q => s.length q < capacity q
  | .join t => s.prog t = []
  | _ => True

instance (s : State τ μ κ) : DecidablePred (Enabled capacity s)
  | .lock m => inferInstanceAs (Decidable (s.owner m = none))
  | .put q => inferInstanceAs (Decidable (s.length q < capacity q))
  | .join t => inferInstanceAs (Decidable (s.prog t = []))
  | .unlock _ => inferInstanceAs (Decidable True)
  | .take _ => inferInstanceAs (Decidable True)

variable [DecidableEq τ] [DecidableEq μ] [DecidableEq κ]

/-- Who holds the mutexes after an operation. -/
def owners (t : τ) (owner : μ → Option τ) : Op τ μ κ → μ → Option τ
  | .lock m => Function.update owner m (some t)
  | .unlock m => Function.update owner m none
  | _ => owner

/-- How many entries the queues have after an operation. -/
def lengths (length : κ → ℕ) : Op τ μ κ → κ → ℕ
  | .put q => Function.update length q (length q + 1)
  | .take q => Function.update length q (length q - 1)
  | _ => length

/-- The state after an operation that does not block. -/
def perform (t : τ) (op : Op τ μ κ) (w : List (Op τ μ κ)) (s : State τ μ κ) : State τ μ κ where
  prog := Function.update s.prog t w
  owner := owners t s.owner op
  length := lengths s.length op

/-- **A step.** A thread whose operation blocks stays where it is. -/
def next (s : State τ μ κ) : Action τ μ κ → State τ μ κ
  | .enter t w => if s.prog t = [] then { s with prog := Function.update s.prog t w } else s
  | .go t =>
    match s.prog t with
    | [] => s
    | op :: w => if Enabled capacity s op then perform t op w s else s

end Machine

/-! ### What a thread holds -/

section Held
variable {rank : μ → ℕ} {queueRank : κ → ℕ}

/-- **A thread in its section**: what is left of it while the thread holds the mutexes of a list,
the last that it locked first. -/
def Held (rank : μ → ℕ) (queueRank : κ → ℕ) : List μ → List (Op τ μ κ) → Prop
  | [], w => Nested rank queueRank 0 w
  | m :: ms, w => (∀ m' ∈ ms, rank m' < rank m) ∧
      ∃ v w', w = v ++ .unlock m :: w' ∧ Nested rank queueRank (rank m + 1) v ∧
        Held rank queueRank ms w'

/-- The mutexes that a thread holds after an operation. -/
def after (ms : List μ) : Op τ μ κ → List μ
  | .lock m => m :: ms
  | .unlock _ => ms.tail
  | _ => ms

/-- What an operation waits for ranks above `ms`, and an unlock is of the last one. -/
def Above (rank : μ → ℕ) (queueRank : κ → ℕ) (ms : List μ) : Op τ μ κ → Prop
  | .lock m => ∀ m' ∈ ms, rank m' < rank m
  | .unlock m => ms.head? = some m
  | .put q => ∀ m' ∈ ms, rank m' < queueRank q
  | .take _ => True
  | .join _ => ms = []

variable {ms : List μ} {op : Op τ μ κ} {w : List (Op τ μ κ)}

theorem Held.ne_nil {m : μ} (h : Held (τ := τ) rank queueRank ms w) (hm : m ∈ ms) : w ≠ [] := by
  rcases ms with _ | ⟨m', ms⟩
  · cases hm
  · obtain ⟨-, v, w', rfl, -, -⟩ := h
    simp

/-- **The next operation of a thread** waits for what ranks above all that the thread holds. -/
theorem Held.cons (h : Held rank queueRank ms (op :: w)) :
    Above rank queueRank ms op ∧ Held rank queueRank (after ms op) w := by
  rcases ms with _ | ⟨m₀, ms⟩
  · have hnil : ∀ m' ∈ ([] : List μ), ∀ n, rank m' < n := by simp
    cases h with
    | put _ hw => exact ⟨fun m' hm' => hnil m' hm' _, hw⟩
    | take hw => exact ⟨trivial, hw⟩
    | join hw => exact ⟨rfl, hw⟩
    | lock _ hv hw => exact ⟨fun m' hm' => hnil m' hm' _, fun m' hm' => hnil m' hm' _,
        _, _, rfl, hv, hw⟩
  · obtain ⟨hlt, v, w', hsplit, hv, hw'⟩ := h
    have habove {n : ℕ} (hn : rank m₀ + 1 ≤ n) : ∀ m' ∈ m₀ :: ms, rank m' < n := by
      intro m' hm'
      rcases List.mem_cons.mp hm' with rfl | hm'
      · exact hn
      · exact (hlt m' hm').trans hn
    rcases v with _ | ⟨op', v⟩
    · obtain ⟨rfl, rfl⟩ := List.cons.inj hsplit
      exact ⟨rfl, hw'⟩
    · obtain ⟨rfl, rfl⟩ := List.cons.inj hsplit
      -- what is left is under `m₀`, and a lock comes with its unlock
      generalize hn : rank m₀ + 1 = n at hv
      cases hv with
      | put hq hv => exact ⟨habove (hn.trans_le hq), hlt, v, w', rfl, hn ▸ hv, hw'⟩
      | take hv => exact ⟨trivial, hlt, v, w', rfl, hn ▸ hv, hw'⟩
      | join hv => omega
      | @lock _ m v₁ v₂ hm hv₁ hv₂ =>
        exact ⟨habove (hn.trans_le hm), habove (hn.trans_le hm), v₁, v₂ ++ .unlock m₀ :: w',
          List.append_assoc v₁ (.unlock m :: v₂) _, hv₁, hlt, v₂, w', rfl, hn ▸ hv₂, hw'⟩

end Held

/-! ### Disciplined code -/

theorem le_lengths [DecidableEq κ] {main t : τ} {op : Op τ μ κ} (hop : Proper main t op)
    (ht : t ≠ main) (length : κ → ℕ) (q : κ) : length q ≤ lengths length op q := by
  cases op with
  | put q' =>
    rcases eq_or_ne q q' with rfl | hq
    · simp [lengths]
    · simp [lengths, hq]
  | take _ => exact absurd hop ht
  | join _ => exact le_rfl
  | lock _ => exact le_rfl
  | unlock _ => exact le_rfl

/-- **The discipline of the code**: the sections are well nested, and only the main thread takes
from queues and waits for other threads. -/
def Disciplined (rank : μ → ℕ) (queueRank : κ → ℕ) (main : τ)
    (code : τ → Language (Op τ μ κ)) : Prop :=
  ∀ t, NestedIn rank queueRank main t 0 (code t)

/-- A section that a thread enters is one of its own. -/
def Allowed (code : τ → Language (Op τ μ κ)) : Action τ μ κ → Prop
  | .enter t w => w ∈ code t
  | .go _ => True

section Machine
variable {rank : μ → ℕ} {queueRank : κ → ℕ} {main : τ} {code : τ → Language (Op τ μ κ)}
variable {capacity : κ → ℕ} {s : State τ μ κ}

/-- **The invariant**: every thread is in its section with the mutexes that it holds. -/
structure Inv (rank : μ → ℕ) (queueRank : κ → ℕ) (main : τ) (s : State τ μ κ) (stack : τ → List μ) :
    Prop where
  held : ∀ t, Held rank queueRank (stack t) (s.prog t)
  owner : ∀ m t, s.owner m = some t ↔ m ∈ stack t
  proper : ∀ t, ∀ op ∈ s.prog t, Proper main t op

theorem inv_init : Inv rank queueRank main (.init τ μ κ) fun _ => [] where
  held _ := .nil
  owner m t := by simp [State.init]
  proper _ _ h := by cases h

/-- No queue has more than it may. -/
def Within (capacity : κ → ℕ) (s : State τ μ κ) : Prop := ∀ q, s.length q ≤ capacity q

/-- **The invariant of a run.** -/
def Ordered (rank : μ → ℕ) (queueRank : κ → ℕ) (main : τ) (capacity : κ → ℕ) (s : State τ μ κ) :
    Prop :=
  Within capacity s ∧ ∃ stack, Inv rank queueRank main s stack

theorem ordered_init : Ordered rank queueRank main capacity (.init τ μ κ) :=
  ⟨fun _ => Nat.zero_le _, _, inv_init⟩

variable [DecidableEq τ] {stack : τ → List μ}

theorem Inv.enter (hcode : Disciplined rank queueRank main code)
    (h : Inv rank queueRank main s stack) {t : τ} {w : List (Op τ μ κ)} (hw : w ∈ code t)
    (hidle : s.prog t = []) :
    Inv rank queueRank main { s with prog := Function.update s.prog t w } stack where
  held := by
    have hstack : stack t = [] :=
      List.eq_nil_iff_forall_not_mem.mpr fun m hm => (h.held t).ne_nil hm hidle
    refine (Function.forall_update_iff s.prog
      fun t' => Held rank queueRank (stack t')).mpr ⟨?_, fun t' _ => h.held t'⟩
    rw [hstack]
    exact (hcode t w hw).1
  owner := h.owner
  proper := (Function.forall_update_iff s.prog fun t' w => ∀ op ∈ w, Proper main t' op).mpr
    ⟨(hcode t w hw).2, fun t' _ => h.proper t'⟩

variable [DecidableEq μ]

theorem Inv.owners (h : Inv rank queueRank main s stack) {t : τ} {op : Op τ μ κ}
    {w : List (Op τ μ κ)} (hprog : s.prog t = op :: w) (hop : Enabled capacity s op) (m : μ)
    (t' : τ) : owners t s.owner op m = some t' ↔
      m ∈ Function.update stack t (after (stack t) op) t' := by
  have hheld := h.held t
  rw [hprog] at hheld
  have hkeep : s.owner m = some t' ↔ m ∈ Function.update stack t (stack t) t' := by
    rw [Function.update_eq_self]
    exact h.owner m t'
  cases op with
  | lock m₀ =>
    -- nobody held `m₀`
    have hfree (t' : τ) : m₀ ∉ stack t' := by
      rw [← h.owner, show s.owner m₀ = none from hop]
      simp
    by_cases hm : m = m₀
    · subst hm
      by_cases ht : t' = t
      · subst ht
        simp [Locks.owners, after]
      · simp [Locks.owners, Function.update_of_ne ht, hfree, Ne.symm ht]
    · rw [Locks.owners, Function.update_of_ne hm, h.owner]
      by_cases ht : t' = t
      · subst ht
        simp [after, hm]
      · rw [Function.update_of_ne ht]
  | unlock m₀ =>
    rcases hstack : stack t with _ | ⟨m₁, ms⟩
    · have hhead := hheld.cons.1
      rw [hstack] at hhead
      cases hhead
    · rw [hstack] at hheld
      obtain rfl : m₁ = m₀ := Option.some.inj hheld.cons.1
      have hmem : m₁ ∈ stack t := hstack ▸ List.mem_cons_self
      have hms : m₁ ∉ ms := fun hm => lt_irrefl _ (hheld.1 m₁ hm)
      have hother (t' : τ) (ht : t' ≠ t) : m₁ ∉ stack t' := by
        rw [← h.owner, (h.owner m₁ t).mpr hmem]
        simp [Ne.symm ht]
      by_cases hm : m = m₁
      · subst hm
        by_cases ht : t' = t
        · subst ht
          simp [Locks.owners, after, hms]
        · simp [Locks.owners, Function.update_of_ne ht, hother t' ht]
      · rw [Locks.owners, Function.update_of_ne hm, h.owner]
        by_cases ht : t' = t
        · subst ht
          simp [after, hstack, hm]
        · rw [Function.update_of_ne ht]
  | put q => exact hkeep
  | take q => exact hkeep
  | join t₀ => exact hkeep

variable [DecidableEq κ]

/-- **An operation** that does not block. -/
theorem Inv.perform (h : Inv rank queueRank main s stack) {t : τ} {op : Op τ μ κ}
    {w : List (Op τ μ κ)} (hprog : s.prog t = op :: w) (hop : Enabled capacity s op) :
    Inv rank queueRank main (perform t op w s)
      (Function.update stack t (after (stack t) op)) where
  held := by
    refine (Function.forall_update_iff s.prog fun t' => Held rank queueRank
      (Function.update stack t (after (stack t) op) t')).mpr ⟨?_, fun t' ht => ?_⟩
    · have hheld := h.held t
      rw [hprog] at hheld
      rw [Function.update_self]
      exact hheld.cons.2
    · rw [Function.update_of_ne ht]
      exact h.held t'
  owner := h.owners hprog hop
  proper := (Function.forall_update_iff s.prog fun t' w => ∀ op ∈ w, Proper main t' op).mpr
    ⟨fun op' hop' => h.proper t op' (hprog ▸ List.mem_cons_of_mem _ hop'), fun t' _ => h.proper t'⟩

theorem next_go {t : τ} {op : Op τ μ κ} {w : List (Op τ μ κ)} (hprog : s.prog t = op :: w)
    (hop : Enabled capacity s op) : next capacity s (.go t) = perform t op w s := by
  rw [Locks.next, hprog]
  exact if_pos hop

theorem next_blocked {t : τ} {op : Op τ μ κ} {w : List (Op τ μ κ)} (hprog : s.prog t = op :: w)
    (hop : ¬ Enabled capacity s op) : next capacity s (.go t) = s := by
  rw [Locks.next, hprog]
  exact if_neg hop

theorem Within.perform (h : Within capacity s) {t : τ} {op : Op τ μ κ} {w : List (Op τ μ κ)}
    (hop : Enabled capacity s op) : Within capacity (perform t op w s) := by
  intro q
  have hq := h q
  cases op with
  | put q' =>
    have hlt : s.length q' < capacity q' := hop
    rcases eq_or_ne q q' with rfl | hne
    · simp [Locks.perform, lengths, hlt]
    · simp [Locks.perform, lengths, hne, hq]
  | take q' =>
    rcases eq_or_ne q q' with rfl | hne
    · simp [Locks.perform, lengths]
      omega
    · simp [Locks.perform, lengths, hne, hq]
  | lock _ => exact hq
  | unlock _ => exact hq
  | join _ => exact hq

theorem Ordered.perform (h : Ordered rank queueRank main capacity s) {t : τ} {op : Op τ μ κ}
    {w : List (Op τ μ κ)} (hprog : s.prog t = op :: w) (hop : Enabled capacity s op) :
    Ordered rank queueRank main capacity (perform t op w s) := by
  obtain ⟨hwithin, stack, hinv⟩ := h
  exact ⟨hwithin.perform hop, _, hinv.perform hprog hop⟩

/-- **A step keeps the invariant.** -/
theorem Ordered.next (hcode : Disciplined rank queueRank main code)
    (h : Ordered rank queueRank main capacity s) {a : Action τ μ κ} (ha : Allowed code a) :
    Ordered rank queueRank main capacity (next capacity s a) := by
  cases a with
  | enter t w =>
    obtain ⟨hwithin, stack, hinv⟩ := h
    by_cases hidle : s.prog t = []
    · rw [Locks.next, if_pos hidle]
      exact ⟨hwithin, stack, hinv.enter hcode ha hidle⟩
    · rw [Locks.next, if_neg hidle]
      exact ⟨hwithin, stack, hinv⟩
  | go t =>
    rcases hprog : s.prog t with _ | ⟨op, w⟩
    · rw [Locks.next, hprog]
      exact h
    · by_cases hop : Enabled capacity s op
      · rw [next_go hprog hop]
        exact h.perform hprog hop
      · rw [next_blocked hprog hop]
        exact h

/-- **Every reachable state is ordered.** -/
theorem Ordered.run (hcode : Disciplined rank queueRank main code) {as : List (Action τ μ κ)}
    (has : ∀ a ∈ as, Allowed code a) (h : Ordered rank queueRank main capacity s) :
    Ordered rank queueRank main capacity (run (Locks.next capacity) s as) :=
  Along.run (C := fun _ a => Allowed code a) (fun _ _ h ha => h.next hcode ha)
    (along_of_forall has) h

/-- The main thread takes an entry from a queue while a mutex is locked. -/
def taking (m : μ) (q : κ) : List (Op τ μ κ) := [.lock m, .take q, .unlock m]

/-- **An idle main thread takes an entry** where the mutex is free. -/
theorem run_taking {m : μ} (q : κ) (hidle : s.prog main = []) (hfree : s.owner m = none) :
    run (Locks.next capacity) s (.enter main (taking m q) :: List.replicate 3 (.go main)) =
      { s with length := Function.update s.length q (s.length q - 1) } := by
  have hprog : Function.update s.prog main [] = s.prog := by
    rw [← hidle, Function.update_eq_self]
  have howner : Function.update s.owner m none = s.owner := by
    rw [← hfree, Function.update_eq_self]
  simp [Locks.next, hidle, taking, List.replicate, Locks.perform, Locks.owners, lengths, Enabled,
    hfree, hprog, howner]

end Machine

/-! ### Threads that wait -/

/-- The thread has ended its section, or its next operation blocks. -/
def Waiting (capacity : κ → ℕ) (s : State τ μ κ) (t : τ) : Prop :=
  ∀ op w, s.prog t = op :: w → ¬ Enabled capacity s op

/-- **A thread at a full queue.** -/
def AtFull (capacity : κ → ℕ) (s : State τ μ κ) (t : τ) (q : κ) : Prop :=
  (∃ w, s.prog t = .put q :: w) ∧ capacity q ≤ s.length q

theorem exists_enabled_or_waiting (capacity : κ → ℕ) (s : State τ μ κ) :
    (∃ t op w, s.prog t = op :: w ∧ Enabled capacity s op) ∨ ∀ t, Waiting capacity s t := by
  by_cases h : ∃ t op w, s.prog t = op :: w ∧ Enabled capacity s op
  · exact Or.inl h
  · push Not at h
    exact Or.inr h

/-- All threads are idle. -/
def Idle (s : State τ μ κ) : Prop := ∀ t, s.prog t = []

section Waiting
variable {rank : μ → ℕ} {queueRank : κ → ℕ} {main : τ} {capacity : κ → ℕ}
variable {s : State τ μ κ} {stack : τ → List μ}

/-- **Where no thread can go on**, who holds a mutex waits for one that ranks above it or is at a
full queue that does. Ranks are bounded, so in the end there is a full queue. -/
theorem Inv.atFull_of_owner [Finite μ] (h : Inv rank queueRank main s stack)
    (hall : ∀ t, Waiting capacity s t) {m : μ} {t : τ} (howner : s.owner m = some t) :
    ∃ t' q, AtFull capacity s t' q ∧ rank m < queueRank q := by
  obtain ⟨bound, hbound⟩ := (Set.finite_range rank).bddAbove
  have hle (m : μ) : rank m ≤ bound := hbound ⟨m, rfl⟩
  induction hn : bound - rank m using Nat.strong_induction_on generalizing m t with
  | _ n ih =>
    have hmem : m ∈ stack t := (h.owner m t).mp howner
    rcases hprog : s.prog t with _ | ⟨op, w⟩
    · exact absurd hprog ((h.held t).ne_nil hmem)
    · have hblocked := hall t op w hprog
      have habove : Above rank queueRank (stack t) op := by
        have hheld := h.held t
        rw [hprog] at hheld
        exact hheld.cons.1
      cases op with
      | lock m' =>
        obtain ⟨t', howner'⟩ := Option.ne_none_iff_exists'.mp hblocked
        have hlt : rank m < rank m' := habove m hmem
        have hle' := hle m'
        obtain ⟨t'', q, hfull, hq⟩ := ih (bound - rank m') (by omega) howner' rfl
        exact ⟨t'', q, hfull, hlt.trans hq⟩
      | put q => exact ⟨t, q, ⟨⟨w, hprog⟩, not_lt.mp hblocked⟩, habove m hmem⟩
      | unlock _ => exact absurd trivial hblocked
      | take _ => exact absurd trivial hblocked
      | join _ =>
        rw [show stack t = [] from habove] at hmem
        cases hmem

theorem Inv.atFull_of_lock [Finite μ] (h : Inv rank queueRank main s stack)
    (hall : ∀ t, Waiting capacity s t) {t : τ} {m : μ} {w : List (Op τ μ κ)}
    (hprog : s.prog t = .lock m :: w) : ∃ t' q, AtFull capacity s t' q := by
  obtain ⟨t', howner⟩ := Option.ne_none_iff_exists'.mp (hall t _ w hprog)
  obtain ⟨t'', q, hfull, -⟩ := h.atFull_of_owner hall howner
  exact ⟨t'', q, hfull⟩

theorem Inv.owner_eq_none [Finite μ] (h : Inv rank queueRank main s stack)
    (hall : ∀ t, Waiting capacity s t) {m : μ} (hm : ∀ q, queueRank q < rank m) :
    s.owner m = none := by
  by_contra howner
  obtain ⟨t, ht⟩ := Option.ne_none_iff_exists'.mp howner
  obtain ⟨-, q, -, hlt⟩ := h.atFull_of_owner hall ht
  exact lt_asymm hlt (hm q)

theorem Inv.atFull_of_ne_main [Finite μ] (h : Inv rank queueRank main s stack)
    (hall : ∀ t, Waiting capacity s t) {t : τ} (hmain : t ≠ main) (hne : s.prog t ≠ []) :
    ∃ t' q, AtFull capacity s t' q := by
  obtain ⟨op, w, hprog⟩ := List.exists_cons_of_ne_nil hne
  have hblocked := hall t op w hprog
  have hproper := h.proper t op (hprog ▸ List.mem_cons_self)
  cases op with
  | lock m => exact h.atFull_of_lock hall hprog
  | put q => exact ⟨t, q, ⟨w, hprog⟩, not_lt.mp hblocked⟩
  | unlock _ => exact absurd trivial hblocked
  | take _ => exact absurd hproper hmain
  | join _ => exact absurd hproper.1 hmain

/-- **Where no thread can go on, a queue is full.** -/
theorem Inv.exists_atFull [Finite μ] (h : Inv rank queueRank main s stack)
    (hall : ∀ t, Waiting capacity s t) {t : τ} (hne : s.prog t ≠ []) :
    ∃ t' q, AtFull capacity s t' q := by
  rcases ne_or_eq t main with hmain | rfl
  · exact h.atFull_of_ne_main hall hmain hne
  · obtain ⟨op, w, hprog⟩ := List.exists_cons_of_ne_nil hne
    have hblocked := hall t op w hprog
    cases op with
    | lock m => exact h.atFull_of_lock hall hprog
    | put q => exact ⟨t, q, ⟨w, hprog⟩, not_lt.mp hblocked⟩
    | unlock _ => exact absurd trivial hblocked
    | take _ => exact absurd trivial hblocked
    | join t' =>
      have hproper := h.proper t _ (hprog ▸ List.mem_cons_self)
      exact h.atFull_of_ne_main hall hproper.2 hblocked

variable [DecidableEq τ] [DecidableEq μ] [DecidableEq κ] {code : τ → Language (Op τ μ κ)}

/-- **Where no thread can go on, an idle main thread makes room** in a full queue. -/
theorem exists_room [Finite μ] (hcode : Disciplined rank queueRank main code) {m : μ}
    {q : κ} (htaking : taking m q ∈ code main) (hm : ∀ q, queueRank q < rank m)
    (hcapacity : 0 < capacity q) (h : Ordered rank queueRank main capacity s)
    (hidle : s.prog main = []) (hall : ∀ t, Waiting capacity s t) :
    ∃ as, (∀ a ∈ as, Allowed code a) ∧
      Ordered rank queueRank main capacity (run (next capacity) s as) ∧
      (run (next capacity) s as).prog = s.prog ∧
      Enabled capacity (run (next capacity) s as) (.put q) := by
  have hflush : run (Locks.next capacity) s
      (.enter main (taking m q) :: List.replicate 3 (.go main)) =
        { s with length := Function.update s.length q (s.length q - 1) } := by
    obtain ⟨-, stack, hinv⟩ := h
    exact run_taking q hidle (hinv.owner_eq_none hall hm)
  have hallowed : ∀ a ∈ Action.enter main (taking m q) :: List.replicate 3 (.go main),
      Allowed code a := by
    refine List.forall_mem_cons.mpr ⟨htaking, fun a ha => ?_⟩
    rw [List.eq_of_mem_replicate ha]
    trivial
  refine ⟨_, hallowed, h.run hcode hallowed, by rw [hflush], ?_⟩
  have hle := h.1 q
  rw [hflush]
  change Function.update s.length q (s.length q - 1) q < capacity q
  rw [Function.update_self]
  omega

end Waiting

/-! ### Ending the sections -/

section Fintype
variable [Fintype τ]

/-- How many operations all threads still have. -/
def total (s : State τ μ κ) : ℕ := ∑ t, (s.prog t).length

theorem idle_of_total {s : State τ μ κ} (h : total s = 0) : Idle s := by
  intro t
  have hle := Finset.single_le_sum (f := fun t => (s.prog t).length) (fun _ _ => Nat.zero_le _)
    (Finset.mem_univ t)
  exact List.eq_nil_of_length_eq_zero (Nat.le_zero.mp (hle.trans h.le))

variable [DecidableEq τ]

theorem sum_update (f : List (Op τ μ κ) → ℕ) (prog : τ → List (Op τ μ κ)) (t : τ)
    (w : List (Op τ μ κ)) :
    ∑ x, f (Function.update prog t w x) + f (prog t) = ∑ x, f (prog x) + f w := by
  have hupdate : (fun x => f (Function.update prog t w x)) =
      Function.update (fun x => f (prog x)) t (f w) := by
    funext x
    exact Function.apply_update (fun _ => f) prog t w x
  rw [hupdate, Finset.sum_update_of_mem (Finset.mem_univ t),
    Finset.sum_eq_add_sum_sdiff_singleton_of_mem (Finset.mem_univ t) fun x => f (prog x)]
  omega

variable [DecidableEq μ] [DecidableEq κ]

/-- How often all threads still put into a queue. -/
def puts (s : State τ μ κ) (q : κ) : ℕ := ∑ t, (s.prog t).count (.put q)

/-- **There is room in the queues** for what is still put. -/
def Roomy (capacity : κ → ℕ) (s : State τ μ κ) : Prop :=
  ∀ q, s.length q + puts s q ≤ capacity q

variable {rank : μ → ℕ} {queueRank : κ → ℕ} {main : τ} {code : τ → Language (Op τ μ κ)}
variable {capacity : κ → ℕ} {s : State τ μ κ} {stack : τ → List μ}

theorem Roomy.not_atFull (h : Roomy capacity s) {t : τ} {q : κ} : ¬ AtFull capacity s t q := by
  rintro ⟨⟨w, hprog⟩, hfull⟩
  have hcount : 1 ≤ (s.prog t).count (.put q) := by
    rw [hprog, List.count_cons_self]
    exact Nat.le_add_left ..
  have hle : (s.prog t).count (.put q) ≤ puts s q :=
    Finset.single_le_sum (f := fun t => (s.prog t).count (.put q)) (fun _ _ => Nat.zero_le _)
      (Finset.mem_univ t)
  have hroom := h q
  omega

theorem Roomy.perform (h : Roomy capacity s) {t : τ} {op : Op τ μ κ} {w : List (Op τ μ κ)}
    (hprog : s.prog t = op :: w) : Roomy capacity (perform t op w s) := by
  intro q
  have hsum := sum_update (fun w => w.count (Op.put q)) s.prog t w
  rw [hprog, List.count_cons] at hsum
  have hroom := h q
  unfold puts at hroom ⊢
  change lengths s.length op q + ∑ x, (Function.update s.prog t w x).count (.put q) ≤ capacity q
  have hlength : lengths s.length op q ≤ s.length q + if op = .put q then 1 else 0 := by
    cases op with
    | put q' =>
      rcases eq_or_ne q q' with rfl | hq
      · simp [lengths]
      · simp [lengths, hq, hq.symm]
    | take q' =>
      rcases eq_or_ne q q' with rfl | hq
      · simp [lengths]
      · simp [lengths, hq]
    | lock _ => exact Nat.le_add_right ..
    | unlock _ => exact Nat.le_add_right ..
    | join _ => exact Nat.le_add_right ..
  simp only [beq_iff_eq] at hsum
  omega

theorem total_perform {t : τ} {op : Op τ μ κ} {w : List (Op τ μ κ)} (hprog : s.prog t = op :: w) :
    total (perform t op w s) + 1 = total s := by
  have hsum := sum_update List.length s.prog t w
  rw [hprog, List.length_cons] at hsum
  unfold total
  change ∑ x, (Function.update s.prog t w x).length + 1 = _
  omega

/-- **Mutexes alone do not block**: where there is room for what is still put, all threads can end
their sections. -/
theorem finishes_of_room [Finite μ] (h : Ordered rank queueRank main capacity s)
    (hroom : Roomy capacity s) : ∃ ts : List τ, Idle (run (next capacity) s (ts.map .go)) := by
  induction hn : total s generalizing s with
  | zero => exact ⟨[], idle_of_total hn⟩
  | succ n ih =>
    rcases exists_enabled_or_waiting capacity s with ⟨t, op, w, hprog, hop⟩ | hall
    · have htotal := total_perform hprog
      obtain ⟨ts, hts⟩ := ih (h.perform hprog hop) (hroom.perform hprog) (by omega)
      refine ⟨t :: ts, ?_⟩
      rwa [List.map_cons, run_cons, next_go hprog hop]
    · refine ⟨[], fun t => by_contra fun hne => ?_⟩
      obtain ⟨-, stack, hinv⟩ := h
      obtain ⟨t', q, hfull⟩ := hinv.exists_atFull hall hne
      exact hroom.not_atFull hfull

/-- **An idle main thread blocks nobody**: it can take from the full queues, so all threads can end
their sections. -/
theorem finishes_of_idle [Finite μ] (hcode : Disciplined rank queueRank main code) {m : μ}
    (htaking : ∀ q, taking m q ∈ code main) (hm : ∀ q, queueRank q < rank m)
    (hcapacity : ∀ q, 0 < capacity q) (h : Ordered rank queueRank main capacity s)
    (hidle : s.prog main = []) :
    ∃ as, (∀ a ∈ as, Allowed code a) ∧ Idle (run (next capacity) s as) := by
  induction hn : total s generalizing s with
  | zero => exact ⟨[], by simp, idle_of_total hn⟩
  | succ n ih =>
    -- a thread goes on, and the main thread stays idle
    have hgo {s' : State τ μ κ} (h' : Ordered rank queueRank main capacity s')
        (hprog' : s'.prog = s.prog) {t : τ} {op : Op τ μ κ} {w : List (Op τ μ κ)}
        (hprog : s'.prog t = op :: w) (hop : Enabled capacity s' op) :
        ∃ as, (∀ a ∈ as, Allowed code a) ∧ Idle (run (next capacity) s' as) := by
      have htotal := total_perform hprog
      have hmain : main ≠ t := by
        rintro rfl
        rw [hprog', hidle] at hprog
        cases hprog
      have hidle' : (perform t op w s').prog main = [] := by
        change Function.update s'.prog t w main = []
        rw [Function.update_of_ne hmain, hprog', hidle]
      have htotal' : total s' = total s := by rw [total, total, hprog']
      obtain ⟨as, has, hfinish⟩ := ih (h'.perform hprog hop) hidle' (by omega)
      refine ⟨.go t :: as, List.forall_mem_cons.mpr ⟨trivial, has⟩, ?_⟩
      rwa [run_cons, next_go hprog hop]
    rcases exists_enabled_or_waiting capacity s with ⟨t, op, w, hprog, hop⟩ | hall
    · exact hgo h rfl hprog hop
    · by_cases hne : Idle s
      · exact ⟨[], by simp, hne⟩
      · obtain ⟨t, ht⟩ := not_forall.mp hne
        have hfull : ∃ t' q, AtFull capacity s t' q := by
          obtain ⟨-, stack, hinv⟩ := h
          exact hinv.exists_atFull hall ht
        obtain ⟨t', q, ⟨w, hprog⟩, -⟩ := hfull
        obtain ⟨as, has, h', hkept, hop⟩ :=
          exists_room hcode (htaking q) hm (hcapacity q) h hidle hall
        obtain ⟨as', has', hfinish⟩ := hgo h' hkept (hkept ▸ hprog) hop
        refine ⟨as ++ as', List.forall_mem_append.mpr ⟨has, has'⟩, ?_⟩
        rwa [run, List.foldl_append]

end Fintype

/-! ### Waiting for a full queue -/

section Blocked
variable {rank : μ → ℕ} {queueRank : κ → ℕ} {main : τ} {code : τ → Language (Op τ μ κ)}
variable {capacity : κ → ℕ} {s : State τ μ κ}

/-- **The main thread waits for a thread at a full queue**: for a mutex that this thread holds, or
until it is idle. -/
structure Blocked (main : τ) (capacity : κ → ℕ) (t : τ) (q : κ) (s : State τ μ κ) : Prop where
  atFull : AtFull capacity s t q
  waits : ∃ op w, s.prog main = op :: w ∧ (op = .join t ∨ ∃ m, op = .lock m ∧ s.owner m = some t)

theorem Blocked.not_enabled {t : τ} {q : κ} (h : Blocked main capacity t q s) {op : Op τ μ κ}
    {w : List (Op τ μ κ)} (hprog : s.prog main = op :: w) : ¬ Enabled capacity s op := by
  obtain ⟨op', w', hprog', hop⟩ := h.waits
  obtain ⟨rfl, rfl⟩ := List.cons.inj (hprog.symm.trans hprog')
  obtain ⟨⟨v, hput⟩, -⟩ := h.atFull
  rcases hop with rfl | ⟨m, rfl, howner⟩
  · intro hidle
    rw [Enabled, hput] at hidle
    cases hidle
  · intro hfree
    rw [Enabled, howner] at hfree
    cases hfree

variable [DecidableEq τ] [DecidableEq μ] {stack : τ → List μ}

theorem Inv.owners_other (h : Inv rank queueRank main s stack) {t t' : τ} {op : Op τ μ κ}
    {w : List (Op τ μ κ)} (hprog : s.prog t' = op :: w) (hop : Enabled capacity s op) {m : μ}
    (howner : s.owner m = some t) (ht : t' ≠ t) : Locks.owners t' s.owner op m = some t := by
  rw [h.owners hprog hop, Function.update_of_ne ht.symm]
  exact (h.owner m t).mp howner

variable [DecidableEq κ]

theorem Blocked.next {t : τ} {q : κ} (h : Blocked main capacity t q s)
    (hinv : Inv rank queueRank main s stack) (a : Action τ μ κ) :
    Blocked main capacity t q (next capacity s a) := by
  obtain ⟨⟨⟨v, hput⟩, hfull⟩, op, w, hprog, hop⟩ := id h
  cases a with
  | enter t' w' =>
    by_cases hidle : s.prog t' = []
    · have ht : t ≠ t' := by
        rintro rfl
        rw [hput] at hidle
        cases hidle
      have hmain' : main ≠ t' := by
        rintro rfl
        rw [hprog] at hidle
        cases hidle
      rw [Locks.next, if_pos hidle]
      exact ⟨⟨⟨v, (Function.update_of_ne ht _ _).trans hput⟩, hfull⟩, op, w,
        (Function.update_of_ne hmain' _ _).trans hprog, hop⟩
    · rwa [Locks.next, if_neg hidle]
  | go t' =>
    rcases hprog' : s.prog t' with _ | ⟨op', w'⟩
    · rwa [Locks.next, hprog']
    · by_cases hop' : Enabled capacity s op'
      · rw [next_go hprog' hop']
        have hmain' : main ≠ t' := by
          rintro rfl
          exact h.not_enabled hprog' hop'
        have ht : t ≠ t' := by
          rintro rfl
          obtain ⟨rfl, rfl⟩ := List.cons.inj (hput.symm.trans hprog')
          exact not_lt.mpr hfull hop'
        have hproper := hinv.proper t' op' (hprog' ▸ List.mem_cons_self)
        refine ⟨⟨⟨v, (Function.update_of_ne ht _ _).trans hput⟩,
          hfull.trans (le_lengths hproper hmain'.symm s.length q)⟩, op, w,
          (Function.update_of_ne hmain' _ _).trans hprog, hop.imp_right ?_⟩
        rintro ⟨m, rfl, howner⟩
        exact ⟨m, rfl, hinv.owners_other hprog' hop' howner ht.symm⟩
      · rwa [next_blocked hprog' hop']

/-- **A main thread that waits for a thread at a full queue** never goes on. -/
theorem stays_blocked (hcode : Disciplined rank queueRank main code)
    (h : Ordered rank queueRank main capacity s) {t : τ} {q : κ}
    (hblocked : Blocked main capacity t q s) {as : List (Action τ μ κ)}
    (has : ∀ a ∈ as, Allowed code a) : Blocked main capacity t q (run (next capacity) s as) := by
  refine (Along.run (P := fun s => Ordered rank queueRank main capacity s ∧
    Blocked main capacity t q s) (C := fun _ a => Allowed code a) ?_ (along_of_forall has)
    ⟨h, hblocked⟩).2
  rintro s a ⟨h, hblocked⟩ ha
  obtain ⟨-, stack, hinv⟩ := id h
  exact ⟨h.next hcode ha, hblocked.next hinv a⟩

end Blocked

end KzGlobal.Lib.Locks
