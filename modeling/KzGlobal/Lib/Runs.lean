import Mathlib.Tactic

/-! # Runs of a machine and what holds along them

A machine is a function `next` that takes a state and an input to a state; a run is the fold of
`next` over a list of inputs. `Along C s is` says that a condition `C` on a state and the input it
takes holds at every step of the run. `Along.run` is the invariant rule: what the steps that meet
the condition preserve holds after the run; and where only these steps preserve it, it holds all
along exactly the runs that meet the condition (`forall_prefix_iff`). A ghost is a value kept beside
the state (`withGhost`) so that an invariant can speak of what happened before. -/

namespace KzGlobal.Lib.Runs

variable {σ ι : Type*}

/-! ### Machines -/

section Machine
variable {next : σ → ι → σ} {C : σ → ι → Prop} {P : σ → Prop}

/-- The state after a list of inputs. -/
def run (next : σ → ι → σ) (s : σ) (is : List ι) : σ := is.foldl next s

@[simp] theorem run_nil (s : σ) : run next s [] = s := rfl

@[simp] theorem run_cons (s : σ) (i : ι) (is : List ι) :
    run next s (i :: is) = run next (next s i) is := rfl

/-- The condition `C` holds at every step of a run. -/
def Along (next : σ → ι → σ) (C : σ → ι → Prop) : σ → List ι → Prop
  | _, [] => True
  | s, i :: is => C s i ∧ Along next C (next s i) is

theorem along_append : ∀ {s : σ} {is is' : List ι},
    Along next C s (is ++ is') ↔ Along next C s is ∧ Along next C (run next s is) is'
  | _, [], _ => by simp [Along]
  | s, i :: is, is' => by
    rw [List.cons_append, Along, Along, along_append, run_cons, and_assoc]

instance [∀ s i, Decidable (C s i)] : ∀ s is, Decidable (Along next C s is)
  | _, [] => inferInstanceAs (Decidable True)
  | s, i :: is =>
    have : Decidable (Along next C (next s i) is) := instDecidableAlong (next s i) is
    inferInstanceAs (Decidable (C s i ∧ Along next C (next s i) is))

theorem along_of_forall {A : ι → Prop} : ∀ {s : σ} {is : List ι}, (∀ i ∈ is, A i) →
    Along next (fun _ i => A i) s is
  | _, [], _ => trivial
  | _, i :: _, h =>
    ⟨h i List.mem_cons_self, along_of_forall fun j hj => h j (List.mem_cons_of_mem _ hj)⟩

theorem along_of_always (h : ∀ s i, C s i) : ∀ {s : σ} {is : List ι}, Along next C s is
  | _, [] => trivial
  | s, i :: _ => ⟨h s i, along_of_always h⟩

/-- Conditions that agree where the reachable states have `J` and the inputs are known to meet
`A`. -/
theorem along_congr_of {A : ι → Prop} {J : σ → Prop} {D : σ → ι → Prop}
    (hJ : ∀ s i, A i → J s → J (next s i)) (h : ∀ s i, A i → J s → (C s i ↔ D s i)) :
    ∀ {is : List ι} {s : σ}, (∀ i ∈ is, A i) → J s → (Along next C s is ↔ Along next D s is)
  | [], _, _, _ => Iff.rfl
  | i :: _, s, hA, hs => by
    rw [List.forall_mem_cons] at hA
    exact and_congr (h s i hA.1 hs) (along_congr_of hJ h hA.2 (hJ s i hA.1 hs))

theorem along_congr {D : σ → ι → Prop} (h : ∀ s i, C s i ↔ D s i) {s : σ} {is : List ι} :
    Along next C s is ↔ Along next D s is :=
  along_congr_of (A := fun _ => True) (J := fun _ => True) (fun _ _ _ _ => trivial)
    (fun s i _ _ => h s i) (fun _ _ => trivial) trivial

/-- **The invariant rule.** -/
theorem Along.run (hstep : ∀ s i, P s → C s i → P (next s i)) :
    ∀ {is : List ι} {s : σ}, Along next C s is → P s → P (Runs.run next s is)
  | [], _, _, h => h
  | _ :: _, _, ⟨hC, hrest⟩, h => by
    rw [run_cons]
    exact Along.run hstep hrest (hstep _ _ h hC)

/-- What an invariant and the condition give holds all along. -/
theorem Along.imp_of_invariant {D : σ → ι → Prop} (hstep : ∀ s i, P s → C s i → P (next s i))
    (h : ∀ s i, P s → C s i → D s i) :
    ∀ {is : List ι} {s : σ}, Along next C s is → P s → Along next D s is
  | [], _, _, _ => trivial
  | _ :: _, _, ⟨hC, hrest⟩, hP =>
    ⟨h _ _ hP hC, Along.imp_of_invariant hstep h hrest (hstep _ _ hP hC)⟩

theorem Along.mono {D : σ → ι → Prop} (h : ∀ s i, C s i → D s i) {s : σ} {is : List ι}
    (hC : Along next C s is) : Along next D s is :=
  hC.imp_of_invariant (P := fun _ => True) (fun _ _ _ _ => trivial) (fun s i _ => h s i) trivial

theorem run_invariant (hstep : ∀ s i, P s → P (next s i)) {s : σ} (h : P s) (is : List ι) :
    P (Runs.run next s is) :=
  Along.run (C := fun _ _ => True) (fun s i hP _ => hstep s i hP)
    (along_of_forall (A := fun _ => True) fun _ _ => trivial) h

/-- **A property of every state of a run.** Where a step from a state with the property leads to one
exactly when it meets a condition, the property holds in all states of a run exactly when the
condition holds at all steps. `J` is what the reachable states have anyway, and `R` is what the
steps of the run are known to meet. -/
theorem forall_prefix_iff_along {R : σ → ι → Prop} {J : σ → Prop}
    (hJ : ∀ s i, R s i → J s → J (next s i))
    (hstep : ∀ s i, R s i → J s → P s → (P (next s i) ↔ C s i)) : ∀ {is : List ι} {s : σ},
      Along next R s is → J s → P s →
        ((∀ is', is' <+: is → P (Runs.run next s is')) ↔ Along next C s is)
  | [], _, _, _, h => by
    refine iff_of_true (fun is' hp => ?_) trivial
    rwa [List.prefix_nil.mp hp]
  | i :: is, s, ⟨hR, hRs⟩, hs, h => by
    have ih (h1 : P (next s i)) : (∀ is', is' <+: is → P (Runs.run next (next s i) is')) ↔
        Along next C (next s i) is :=
      forall_prefix_iff_along hJ hstep hRs (hJ s i hR hs) h1
    constructor
    · intro hall
      have h1 : P (next s i) := hall [i] (List.prefix_append [i] is)
      refine ⟨(hstep s i hR hs h).mp h1, (ih h1).mp fun is' hp => ?_⟩
      exact hall (i :: is') (List.cons_prefix_cons.mpr ⟨rfl, hp⟩)
    · rintro ⟨hC, hrest⟩ is' hp
      rcases is' with _ | ⟨j, is'⟩
      · exact h
      · obtain ⟨rfl, hp'⟩ := List.cons_prefix_cons.mp hp
        exact (ih ((hstep s j hR hs h).mpr hC)).mpr hrest is' hp'

theorem forall_prefix_iff_of {A : ι → Prop} {J : σ → Prop}
    (hJ : ∀ s i, A i → J s → J (next s i))
    (hstep : ∀ s i, A i → J s → P s → (P (next s i) ↔ C s i)) {is : List ι} {s : σ}
    (hA : ∀ i ∈ is, A i) (hs : J s) (h : P s) :
    (∀ is', is' <+: is → P (Runs.run next s is')) ↔ Along next C s is :=
  forall_prefix_iff_along (R := fun _ i => A i) hJ hstep (along_of_forall hA) hs h

theorem forall_prefix_iff {J : σ → Prop} (hJ : ∀ s i, J s → J (next s i))
    (hstep : ∀ s i, J s → P s → (P (next s i) ↔ C s i)) {is : List ι} {s : σ} (hs : J s)
    (h : P s) : (∀ is', is' <+: is → P (Runs.run next s is')) ↔ Along next C s is :=
  forall_prefix_iff_of (A := fun _ => True) (fun s i _ => hJ s i) (fun s i _ => hstep s i)
    (fun _ _ => trivial) hs h

end Machine

/-! ### Ghosts -/

section Ghost
variable {γ : Type*} {next : σ → ι → σ} {tick : γ → σ → ι → γ} {C : σ → ι → Prop}

/-- A machine with a value beside its state that no step reads. -/
def withGhost (next : σ → ι → σ) (tick : γ → σ → ι → γ) (gs : γ × σ) (i : ι) : γ × σ :=
  (tick gs.1 gs.2 i, next gs.2 i)

theorem run_withGhost (gs : γ × σ) (is : List ι) :
    (run (withGhost next tick) gs is).2 = run next gs.2 is := by
  induction is generalizing gs with
  | nil => rfl
  | cons i is ih => rw [run_cons, run_cons, ih]; rfl

theorem along_withGhost : ∀ {gs : γ × σ} {is : List ι},
    Along (withGhost next tick) (fun gs i => C gs.2 i) gs is ↔ Along next C gs.2 is
  | _, [] => Iff.rfl
  | _, _ :: _ => and_congr_right fun _ => along_withGhost

end Ghost

end KzGlobal.Lib.Runs
