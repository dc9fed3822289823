import Mathlib.Tactic

/-! # Computations that may fail, and their loops

A computation `r : Except ε α` returns a value or stops with a fault. `Sat r Q E` says that a value
it returns satisfies `Q` and a fault it stops with satisfies `E`: with `E` false this is total
correctness, with `Q` true it says which faults are possible. `sat_bind`, `sat_foldlM` and
`sat_foldlM_forall` are the rules for a sequence, for a loop and for a run; `foldlM_eq_ok` is the
loop rule for a loop whose state after `t` passes is known. -/

namespace KzGlobal.Lib.Loop

universe u v

variable {ε : Type v} {α β σ : Type u}

@[simp] theorem ok_bind (a : α) (f : α → Except ε β) : (Except.ok a >>= f) = f a := rfl

@[simp] theorem error_bind (e : ε) (f : α → Except ε β) :
    (Except.error e >>= f) = Except.error e := rfl

@[simp] theorem map_ok (a : α) (f : α → β) : f <$> (Except.ok a : Except ε α) = Except.ok (f a) :=
  rfl

theorem pure_eq_ok (a : α) : (pure a : Except ε α) = Except.ok a := rfl

theorem bind_eq_ok {r : Except ε α} {f : α → Except ε β} {b : β} :
    (r >>= f) = .ok b ↔ ∃ a, r = .ok a ∧ f a = .ok b := by
  cases r with
  | ok a => simp
  | error e => simp

/-- A returned value satisfies `Q`, a fault satisfies `E`. -/
structure Sat (r : Except ε α) (Q : α → Prop) (E : ε → Prop) : Prop where
  of_ok : ∀ {a : α}, r = .ok a → Q a
  of_error : ∀ {e : ε}, r = .error e → E e

@[simp] theorem sat_ok {a : α} {Q : α → Prop} {E : ε → Prop} : Sat (.ok a) Q E ↔ Q a := by
  refine ⟨fun h => h.of_ok rfl, fun h => ⟨fun he => ?_, fun he => nomatch he⟩⟩
  rwa [← Except.ok.inj he]

@[simp] theorem sat_error {e : ε} {Q : α → Prop} {E : ε → Prop} :
    Sat (.error e) Q E ↔ E e := by
  refine ⟨fun h => h.of_error rfl, fun h => ⟨fun he => (nomatch he), fun he => ?_⟩⟩
  rwa [← Except.error.inj he]

/-- **Total correctness**: where no fault is possible, a value is returned. -/
theorem Sat.exists_ok {r : Except ε α} {Q : α → Prop} (h : Sat r Q fun _ => False) :
    ∃ a, r = .ok a ∧ Q a := by
  cases hr : r with
  | ok a => exact ⟨a, rfl, h.of_ok hr⟩
  | error e => exact (h.of_error hr).elim

/-- **The rule for a sequence.** -/
theorem sat_bind {r : Except ε α} {f : α → Except ε β} {Q : α → Prop} {R : β → Prop}
    {E : ε → Prop} (h : Sat r Q E) (hf : ∀ a, Q a → Sat (f a) R E) : Sat (r >>= f) R E := by
  cases r with
  | ok a => exact hf a (h.of_ok rfl)
  | error e => exact sat_error.mpr (h.of_error rfl)

theorem sat_ite {c : Prop} {_ : Decidable c} {r r' : Except ε α} {Q : α → Prop} {E : ε → Prop}
    (h : c → Sat r Q E) (h' : ¬ c → Sat r' Q E) : Sat (if c then r else r') Q E := by
  split_ifs with hc
  · exact h hc
  · exact h' hc

/-- **The loop rule.** An invariant `P t` that every pass carries from `t` to `t + 1` holds after
`n` passes. -/
theorem sat_foldlM {f : σ → ℕ → Except ε σ} {P : ℕ → σ → Prop} {E : ε → Prop} :
    ∀ (n : ℕ) {s : σ}, P 0 s → (∀ t s, t < n → P t s → Sat (f s t) (P (t + 1)) E) →
      Sat ((List.range n).foldlM f s) (P n) E
  | 0, s, h0, _ => by simpa [pure_eq_ok] using h0
  | n + 1, s, h0, hs => by
    rw [List.range_succ, List.foldlM_append]
    refine sat_bind (sat_foldlM n h0 fun t s ht hP => hs t s (by omega) hP) fun s' hP => ?_
    simpa only [List.foldlM_cons, List.foldlM_nil, bind_pure] using hs n s' (by omega) hP

/-- **The rule for a run.** What every input carries on holds after all of them. -/
theorem sat_foldlM_forall {f : σ → α → Except ε σ} {P : σ → Prop} {E : ε → Prop}
    (hs : ∀ s a, P s → Sat (f s a) P E) : ∀ (l : List α) {s : σ}, P s → Sat (l.foldlM f s) P E
  | [], s, h => sat_ok.mpr h
  | a :: l, s, h => by
    rw [List.foldlM_cons]
    exact sat_bind (hs s a h) fun s' h' => sat_foldlM_forall hs l h'

/-- **The loop rule, with the state known**: if pass `t` takes `S t` to `S (t + 1)`, then `n` passes
take `S 0` to `S n`. -/
theorem foldlM_eq_ok {f : σ → ℕ → Except ε σ} (S : ℕ → σ) {n : ℕ}
    (hs : ∀ t < n, f (S t) t = .ok (S (t + 1))) : (List.range n).foldlM f (S 0) = .ok (S n) := by
  have h : Sat ((List.range n).foldlM f (S 0)) (fun s => s = S n) (fun _ => False) := by
    refine sat_foldlM (P := fun t s => s = S t) n rfl fun t s ht hP => ?_
    subst hP
    rw [hs t ht, sat_ok]
  obtain ⟨s, hr, hP⟩ := h.exists_ok
  rw [hr, hP]

/-- A loop depends on what its passes do on the entries of the list only. -/
theorem foldlM_congr {f g : σ → α → Except ε σ} :
    ∀ {l : List α}, (∀ s, ∀ a ∈ l, f s a = g s a) → ∀ s, l.foldlM f s = l.foldlM g s
  | [], _, _ => rfl
  | a :: l, h, s => by
    rw [List.foldlM_cons, List.foldlM_cons, h s a List.mem_cons_self]
    cases g s a with
    | ok s' => exact foldlM_congr (fun s a ha => h s a (List.mem_cons_of_mem _ ha)) s'
    | error e => rfl

/-- A loop over a list whose passes skip some entries is the loop over the others. -/
theorem foldlM_skip {f g : σ → α → Except ε σ} (p : α → Bool)
    (hf : ∀ s a, f s a = if p a then g s a else .ok s) :
    ∀ (l : List α) (s : σ), l.foldlM f s = (l.filter p).foldlM g s
  | [], s => rfl
  | a :: l, s => by
    rw [List.foldlM_cons, hf, List.filter_cons]
    cases hp : p a with
    | true =>
      simp only [if_true, List.foldlM_cons]
      cases g s a with
      | ok s' => simp only [ok_bind]; exact foldlM_skip p hf l s'
      | error e => rfl
    | false => simpa using foldlM_skip p hf l s

/-- Two nested loops are one loop over the pairs they pass through. -/
theorem foldlM_nested {f : σ → α → Except ε σ} (g : σ → β → Except ε σ)
    (q : α → List β) (hf : ∀ s a, f s a = (q a).foldlM g s) :
    ∀ (l : List α) (s : σ), l.foldlM f s = (l.flatMap q).foldlM g s
  | [], s => rfl
  | a :: l, s => by
    rw [List.foldlM_cons, hf, List.flatMap_cons, List.foldlM_append]
    cases (q a).foldlM g s with
    | ok s' => simp only [ok_bind]; exact foldlM_nested g q hf l s'
    | error e => rfl

end KzGlobal.Lib.Loop
