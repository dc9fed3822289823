import KzGlobal.Lib.Stdio

/-! # Programs over files whose operations fail

A `Prog` is a program that works on files: what it does next depends on how the operation before
ended. An operation may fail at any time, and a write may stop after any prefix. `Exec` is one
execution on a disk with the operations that were done, so a statement about all executions is one
about every outcome of every operation; `Prog.run` is the execution in which nothing fails. `Inside
P` says that a program stays at the paths that meet `P`, whatever the outcomes. -/

namespace KzGlobal.Lib.FileProgram

open KzGlobal.Lib.Stdio

variable {κ α β γ : Type}

/-- A program over the files at paths `κ` with bytes `α`: each operation with what follows its
answer. -/
inductive Prog (κ α β : Type)
  | ret (b : β)
  | fexists (p : κ) (k : Bool → Prog κ α β)
  | read (p : κ) (k : Option (List α) → Prog κ α β)
  | write (p : κ) (v : List α) (k : Option ℕ → Prog κ α β)
  | createDirectories (p : κ) (k : Bool → Prog κ α β)
  | rename (p q : κ) (k : Bool → Prog κ α β)
  | remove (p : κ) (k : Bool → Prog κ α β)
  | list (p : κ) (k : List κ → Prog κ α β)

namespace Prog

/-- A program, and then another with its result. -/
def bind : Prog κ α β → (β → Prog κ α γ) → Prog κ α γ
  | ret b, f => f b
  | fexists p k, f => fexists p fun a => (k a).bind f
  | read p k, f => read p fun a => (k a).bind f
  | write p v k, f => write p v fun a => (k a).bind f
  | createDirectories p k, f => createDirectories p fun a => (k a).bind f
  | rename p q k, f => rename p q fun a => (k a).bind f
  | remove p k, f => remove p fun a => (k a).bind f
  | list p k, f => list p fun a => (k a).bind f

instance : Monad (Prog κ α) where
  pure := ret
  bind := bind

end Prog

/-- Whether a file exists. -/
def fileExists (p : κ) : Prog κ α Bool := .fexists p .ret

/-- `fopen` for reading and `fread` of everything: nothing where one of them fails. -/
def readFile (p : κ) : Prog κ α (Option (List α)) := .read p .ret

/-- `fopen` for writing and `fwrite`: nothing where the file cannot be opened, else how much was
written. -/
def writeFile (p : κ) (v : List α) : Prog κ α (Option ℕ) := .write p v .ret

/-- `std::filesystem::create_directories`, as a program. -/
def createDirectories (p : κ) : Prog κ α Bool := .createDirectories p .ret

/-- `std::filesystem::rename`, as a program. -/
def renameFile (p q : κ) : Prog κ α Bool := .rename p q .ret

/-- `std::filesystem::remove`, as a program. -/
def removeFile (p : κ) : Prog κ α Bool := .remove p .ret

/-- The paths of the entries of a directory. -/
def listDirectory (p : κ) : Prog κ α (List κ) := .list p .ret

/-! ### Executions -/

/-- An operation that was done, with its answer. -/
inductive Done (κ α : Type)
  | fexists (p : κ) (a : Bool)
  | read (p : κ) (a : Option (List α))
  | write (p : κ) (v : List α) (a : Option ℕ)
  | createDirectories (p : κ) (a : Bool)
  | rename (p q : κ) (a : Bool)
  | remove (p : κ) (a : Bool)
  | list (p : κ) (a : List κ)

section Execution
variable [DecidableEq κ]

/-- **An execution**, with its operations, the disk after it and the result. -/
inductive Exec : Disk κ α → Prog κ α β → List (Done κ α) → Disk κ α → β → Prop
  | ret {d : Disk κ α} {b : β} : Exec d (.ret b) [] d b
  | fexists {d d' : Disk κ α} {p : κ} {k : Bool → Prog κ α β} {tr : List (Done κ α)} {b : β} :
      Exec d (k (d p).isSome) tr d' b → Exec d (.fexists p k) (.fexists p (d p).isSome :: tr) d' b
  | read {d d' : Disk κ α} {p : κ} {k : Option (List α) → Prog κ α β} {tr : List (Done κ α)} {b : β}
      {a : Option (List α)} : a = none ∨ a = d p → Exec d (k a) tr d' b →
      Exec d (.read p k) (.read p a :: tr) d' b
  | writeFail {d d' : Disk κ α} {p : κ} {v : List α} {k : Option ℕ → Prog κ α β}
      {tr : List (Done κ α)} {b : β} : Exec d (k none) tr d' b →
      Exec d (.write p v k) (.write p v none :: tr) d' b
  | write {d d' : Disk κ α} {p : κ} {v : List α} {k : Option ℕ → Prog κ α β} {tr : List (Done κ α)}
      {b : β} {n : ℕ} : n ≤ v.length → Exec (d.store p (v.take n)) (k (some n)) tr d' b →
      Exec d (.write p v k) (.write p v (some n) :: tr) d' b
  | createDirectories {d d' : Disk κ α} {p : κ} {k : Bool → Prog κ α β}
    {tr : List (Done κ α)} {b : β}
      (a : Bool) : Exec d (k a) tr d' b →
      Exec d (.createDirectories p k) (.createDirectories p a :: tr) d' b
  | renameFail {d d' : Disk κ α} {p q : κ} {k : Bool → Prog κ α β} {tr : List (Done κ α)} {b : β} :
      Exec d (k false) tr d' b → Exec d (.rename p q k) (.rename p q false :: tr) d' b
  | rename {d d₁ d' : Disk κ α} {p q : κ} {k : Bool → Prog κ α β} {tr : List (Done κ α)} {b : β} :
      d.rename p q = some d₁ → Exec d₁ (k true) tr d' b →
      Exec d (.rename p q k) (.rename p q true :: tr) d' b
  | removeFail {d d' : Disk κ α} {p : κ} {k : Bool → Prog κ α β} {tr : List (Done κ α)} {b : β} :
      Exec d (k false) tr d' b → Exec d (.remove p k) (.remove p false :: tr) d' b
  | remove {d d' : Disk κ α} {p : κ} {k : Bool → Prog κ α β} {tr : List (Done κ α)} {b : β} :
      Exec (d.unlink p) (k true) tr d' b → Exec d (.remove p k) (.remove p true :: tr) d' b
  | list {d d' : Disk κ α} {p : κ} {k : List κ → Prog κ α β} {tr : List (Done κ α)} {b : β}
      (a : List κ) : Exec d (k a) tr d' b → Exec d (.list p k) (.list p a :: tr) d' b

/-- **The bind rule**: an execution of a program and what follows it. -/
theorem exec_bind {x : Prog κ α β} {f : β → Prog κ α γ} {d d' : Disk κ α}
    {tr : List (Done κ α)} {c : γ} (h : Exec d (x >>= f) tr d' c) :
    ∃ tr₁ tr₂ d₁ b, Exec d x tr₁ d₁ b ∧ Exec d₁ (f b) tr₂ d' c ∧ tr = tr₁ ++ tr₂ := by
  change Exec d (x.bind f) tr d' c at h
  induction x generalizing d tr with
  | ret b => exact ⟨[], tr, d, b, .ret, h, rfl⟩
  | fexists p k ih =>
    cases h with
    | fexists h =>
      obtain ⟨tr₁, tr₂, d₁, b, h₁, h₂, rfl⟩ := ih _ h
      exact ⟨_, tr₂, d₁, b, .fexists h₁, h₂, rfl⟩
  | read p k ih =>
    cases h with
    | read ha h =>
      obtain ⟨tr₁, tr₂, d₁, b, h₁, h₂, rfl⟩ := ih _ h
      exact ⟨_, tr₂, d₁, b, .read ha h₁, h₂, rfl⟩
  | write p v k ih =>
    cases h with
    | writeFail h =>
      obtain ⟨tr₁, tr₂, d₁, b, h₁, h₂, rfl⟩ := ih _ h
      exact ⟨_, tr₂, d₁, b, .writeFail h₁, h₂, rfl⟩
    | write hn h =>
      obtain ⟨tr₁, tr₂, d₁, b, h₁, h₂, rfl⟩ := ih _ h
      exact ⟨_, tr₂, d₁, b, .write hn h₁, h₂, rfl⟩
  | createDirectories p k ih =>
    cases h with
    | createDirectories a h =>
      obtain ⟨tr₁, tr₂, d₁, b, h₁, h₂, rfl⟩ := ih _ h
      exact ⟨_, tr₂, d₁, b, .createDirectories a h₁, h₂, rfl⟩
  | rename p q k ih =>
    cases h with
    | renameFail h =>
      obtain ⟨tr₁, tr₂, d₁, b, h₁, h₂, rfl⟩ := ih _ h
      exact ⟨_, tr₂, d₁, b, .renameFail h₁, h₂, rfl⟩
    | rename hr h =>
      obtain ⟨tr₁, tr₂, d₁, b, h₁, h₂, rfl⟩ := ih _ h
      exact ⟨_, tr₂, d₁, b, .rename hr h₁, h₂, rfl⟩
  | remove p k ih =>
    cases h with
    | removeFail h =>
      obtain ⟨tr₁, tr₂, d₁, b, h₁, h₂, rfl⟩ := ih _ h
      exact ⟨_, tr₂, d₁, b, .removeFail h₁, h₂, rfl⟩
    | remove h =>
      obtain ⟨tr₁, tr₂, d₁, b, h₁, h₂, rfl⟩ := ih _ h
      exact ⟨_, tr₂, d₁, b, .remove h₁, h₂, rfl⟩
  | list p k ih =>
    cases h with
    | list a h =>
      obtain ⟨tr₁, tr₂, d₁, b, h₁, h₂, rfl⟩ := ih _ h
      exact ⟨_, tr₂, d₁, b, .list a h₁, h₂, rfl⟩

theorem Exec.bind {x : Prog κ α β} {f : β → Prog κ α γ} {d d₁ d' : Disk κ α}
    {tr₁ tr₂ : List (Done κ α)}
    {b : β} {c : γ} (h₁ : Exec d x tr₁ d₁ b) (h₂ : Exec d₁ (f b) tr₂ d' c) :
    Exec d (x >>= f) (tr₁ ++ tr₂) d' c := by
  induction h₁ with
  | ret => exact h₂
  | fexists _ ih => exact .fexists (ih h₂)
  | read ha _ ih => exact .read ha (ih h₂)
  | writeFail _ ih => exact .writeFail (ih h₂)
  | write hn _ ih => exact .write hn (ih h₂)
  | createDirectories a _ ih => exact .createDirectories a (ih h₂)
  | renameFail _ ih => exact .renameFail (ih h₂)
  | rename hr _ ih => exact .rename hr (ih h₂)
  | removeFail _ ih => exact .removeFail (ih h₂)
  | remove _ ih => exact .remove (ih h₂)
  | list a _ ih => exact .list a (ih h₂)

section Actions
variable {d d' : Disk κ α} {tr : List (Done κ α)}

theorem exec_pure {b c : β} (h : Exec d (pure c : Prog κ α β) tr d' b) :
    tr = [] ∧ d' = d ∧ b = c := by
  cases h
  exact ⟨rfl, rfl, rfl⟩

theorem exec_readFile {p : κ} {a : Option (List α)} (h : Exec d (readFile p) tr d' a) :
    tr = [.read p a] ∧ d' = d ∧ (a = none ∨ a = d p) := by
  cases h with
  | read ha h =>
    cases h
    exact ⟨rfl, rfl, ha⟩

/-- **A write** fails, or leaves a prefix. -/
theorem exec_writeFile {p : κ} {v : List α} {a : Option ℕ} (h : Exec d (writeFile p v) tr d' a) :
    tr = [.write p v a] ∧
      (a = none ∧ d' = d ∨ ∃ n, a = some n ∧ n ≤ v.length ∧ d' = d.store p (v.take n)) := by
  cases h with
  | writeFail h =>
    cases h
    exact ⟨rfl, Or.inl ⟨rfl, rfl⟩⟩
  | write hn h =>
    cases h
    exact ⟨rfl, Or.inr ⟨_, rfl, hn, rfl⟩⟩

theorem exec_createDirectories {p : κ} {a : Bool} (h : Exec d (createDirectories p) tr d' a) :
    tr = [.createDirectories p a] ∧ d' = d := by
  cases h with
  | createDirectories a h =>
    cases h
    exact ⟨rfl, rfl⟩

theorem exec_renameFile {p q : κ} {a : Bool} (h : Exec d (renameFile p q) tr d' a) :
    tr = [.rename p q a] ∧ (a = false ∧ d' = d ∨ a = true ∧ d.rename p q = some d') := by
  cases h with
  | renameFail h =>
    cases h
    exact ⟨rfl, Or.inl ⟨rfl, rfl⟩⟩
  | rename hr h =>
    cases h
    exact ⟨rfl, Or.inr ⟨rfl, hr⟩⟩

theorem exec_removeFile {p : κ} {a : Bool} (h : Exec d (removeFile p) tr d' a) :
    tr = [.remove p a] ∧ (a = false ∧ d' = d ∨ a = true ∧ d' = d.unlink p) := by
  cases h with
  | removeFail h =>
    cases h
    exact ⟨rfl, Or.inl ⟨rfl, rfl⟩⟩
  | remove h =>
    cases h
    exact ⟨rfl, Or.inr ⟨rfl, rfl⟩⟩

end Actions

/-! ### The execution in which nothing fails -/

/-- The disk and the result where no operation fails but a rename of a file that is not there; the
entries of directories are given. -/
def Prog.run (entries : κ → List κ) : Disk κ α → Prog κ α β → Disk κ α × β
  | d, .ret b => (d, b)
  | d, .fexists p k => (k (d p).isSome).run entries d
  | d, .read p k => (k (d p)).run entries d
  | d, .write p v k => (k (some v.length)).run entries (d.store p v)
  | d, .createDirectories _ k => (k true).run entries d
  | d, .rename p q k =>
    match d.rename p q with
    | none => (k false).run entries d
    | some d' => (k true).run entries d'
  | d, .remove p k => (k true).run entries (d.unlink p)
  | d, .list p k => (k (entries p)).run entries d

section Run
variable (entries : κ → List κ) (d : Disk κ α)

@[simp] theorem run_pure (b : β) : (pure b : Prog κ α β).run entries d = (d, b) := rfl

@[simp] theorem run_readFile (p : κ) : (readFile p).run entries d = (d, d p) := rfl

@[simp] theorem run_writeFile (p : κ) (v : List α) :
    (writeFile p v).run entries d = (d.store p v, some v.length) := rfl

@[simp] theorem run_createDirectories (p : κ) : (createDirectories p).run entries d = (d, true) :=
  rfl

@[simp] theorem run_renameFile (p q : κ) : (renameFile p q).run entries d =
    match d.rename p q with
    | none => (d, false)
    | some d' => (d', true) := rfl

@[simp] theorem run_removeFile (p : κ) : (removeFile p).run entries d = (d.unlink p, true) := rfl

@[simp] theorem run_fileExists (p : κ) : (fileExists p).run entries d = (d, (d p).isSome) := rfl

@[simp] theorem run_listDirectory (p : κ) : (listDirectory p).run entries d = (d, entries p) := rfl

end Run

@[simp] theorem Prog.run_bind (entries : κ → List κ) (x : Prog κ α β) (f : β → Prog κ α γ)
    (d : Disk κ α) :
    (x >>= f).run entries d = (f (x.run entries d).2).run entries (x.run entries d).1 := by
  change (x.bind f).run entries d = _
  induction x generalizing d with
  | ret b => rfl
  | fexists p k ih => exact ih _ d
  | read p k ih => exact ih _ d
  | write p v k ih => exact ih _ _
  | createDirectories p k ih => exact ih _ d
  | rename p q k ih =>
    rw [Prog.bind, Prog.run, Prog.run]
    split
    · exact ih _ d
    · exact ih _ _
  | remove p k ih => exact ih _ _
  | list p k ih => exact ih _ d

/-- **The execution in which nothing fails is one.** -/
theorem exec_run (entries : κ → List κ) : ∀ (x : Prog κ α β) (d : Disk κ α),
    ∃ tr, Exec d x tr (x.run entries d).1 (x.run entries d).2
  | .ret b, d => ⟨[], .ret⟩
  | .fexists p k, d => (exec_run entries (k (d p).isSome) d).imp' _ fun _ h => .fexists h
  | .read p k, d => (exec_run entries (k (d p)) d).imp' _ fun _ h => .read (Or.inr rfl) h
  | .write p v k, d => by
    obtain ⟨tr, h⟩ := exec_run entries (k (some v.length)) (d.store p v)
    refine ⟨.write p v (some v.length) :: tr, .write le_rfl ?_⟩
    rw [List.take_length]
    exact h
  | .createDirectories p k, d => (exec_run entries (k true) d).imp' _ fun _ h =>
    .createDirectories _ h
  | .rename p q k, d => by
    unfold Prog.run
    split
    · exact (exec_run entries (k false) d).imp' _ fun _ h => .renameFail h
    · rename_i d' hr
      exact (exec_run entries (k true) d').imp' _ fun _ h => .rename hr h
  | .remove p k, d => (exec_run entries (k true) (d.unlink p)).imp' _ fun _ h => .remove h
  | .list p k, d => (exec_run entries (k (entries p)) d).imp' _ fun _ h => .list _ h

end Execution

/-! ### Programs that stay at some paths -/

/-- The paths of an operation. -/
def Done.paths : Done κ α → List κ
  | .fexists p _ => [p]
  | .read p _ => [p]
  | .write p _ _ => [p]
  | .createDirectories p _ => [p]
  | .rename p q _ => [p, q]
  | .remove p _ => [p]
  | .list p _ => [p]

section Inside
variable (P : κ → Prop) (E : κ → κ → Prop)

/-- **A program stays inside `P`** and its result meets `Q`, whatever its operations answer, where
the entries of a directory `p` meet `E p`. -/
def Prog.Inside (Q : β → Prop) : Prog κ α β → Prop
  | .ret b => Q b
  | .fexists p k => P p ∧ ∀ a, (k a).Inside Q
  | .read p k => P p ∧ ∀ a, (k a).Inside Q
  | .write p _ k => P p ∧ ∀ a, (k a).Inside Q
  | .createDirectories p k => P p ∧ ∀ a, (k a).Inside Q
  | .rename p q k => (P p ∧ P q) ∧ ∀ a, (k a).Inside Q
  | .remove p k => P p ∧ ∀ a, (k a).Inside Q
  | .list p k => P p ∧ ∀ a, (∀ e ∈ a, E p e) → (k a).Inside Q

variable {P E} {Q : β → Prop} {R : γ → Prop}

/-- **The rule for what follows.** -/
theorem Prog.Inside.bind {x : Prog κ α β} {f : β → Prog κ α γ} (hx : x.Inside P E Q)
    (hf : ∀ b, Q b → (f b).Inside P E R) : (x >>= f).Inside P E R := by
  change (x.bind f).Inside P E R
  induction x with
  | ret b => exact hf b hx
  | fexists p k ih => exact ⟨hx.1, fun a => ih a (hx.2 a)⟩
  | read p k ih => exact ⟨hx.1, fun a => ih a (hx.2 a)⟩
  | write p v k ih => exact ⟨hx.1, fun a => ih a (hx.2 a)⟩
  | createDirectories p k ih => exact ⟨hx.1, fun a => ih a (hx.2 a)⟩
  | rename p q k ih => exact ⟨hx.1, fun a => ih a (hx.2 a)⟩
  | remove p k ih => exact ⟨hx.1, fun a => ih a (hx.2 a)⟩
  | list p k ih => exact ⟨hx.1, fun a ha => ih a (hx.2 a ha)⟩

theorem inside_ite {c : Prop} [Decidable c] {x y : Prog κ α β} (hx : c → x.Inside P E Q)
    (hy : ¬ c → y.Inside P E Q) : (if c then x else y).Inside P E Q := by
  split_ifs with h
  · exact hx h
  · exact hy h

section Actions
variable {p : κ} (h : P p)
include h

theorem inside_fileExists : (fileExists p : Prog κ α Bool).Inside P E fun _ => True :=
  ⟨h, fun _ => trivial⟩

theorem inside_readFile : (readFile p : Prog κ α _).Inside P E fun _ => True :=
  ⟨h, fun _ => trivial⟩

theorem inside_writeFile (v : List α) : (writeFile p v).Inside P E fun _ => True :=
  ⟨h, fun _ => trivial⟩

theorem inside_createDirectories : (createDirectories p : Prog κ α Bool).Inside P E fun _ => True :=
  ⟨h, fun _ => trivial⟩

theorem inside_renameFile {q : κ} (h' : P q) :
    (renameFile p q : Prog κ α Bool).Inside P E fun _ => True :=
  ⟨⟨h, h'⟩, fun _ => trivial⟩

theorem inside_removeFile : (removeFile p : Prog κ α Bool).Inside P E fun _ => True :=
  ⟨h, fun _ => trivial⟩

theorem inside_listDirectory :
    (listDirectory p : Prog κ α _).Inside P E fun entries => ∀ e ∈ entries, E p e :=
  ⟨h, fun _ ha => ha⟩

end Actions

/-- **Every execution stays inside.** -/
theorem Exec.inside [DecidableEq κ] {x : Prog κ α β} {d d' : Disk κ α}
    {tr : List (Done κ α)} {b : β} (h : Exec d x tr d' b) (hx : x.Inside P E Q)
    (hl : ∀ p es, .list p es ∈ tr → ∀ e ∈ es, E p e) : (∀ o ∈ tr, ∀ p ∈ o.paths, P p) ∧ Q b := by
  have hrest {o : Done κ α} {tr : List (Done κ α)} (hl : ∀ p es, .list p es ∈ o :: tr →
      ∀ e ∈ es, E p e) :
      ∀ p es, .list p es ∈ tr → ∀ e ∈ es, E p e :=
        fun p es hm => hl p es (List.mem_cons_of_mem _ hm)
  induction h with
  | ret => exact ⟨by simp, hx⟩
  | fexists _ ih =>
    exact (ih (hx.2 _) (hrest hl)).imp_left fun h => by simpa [Done.paths, hx.1] using h
  | read _ _ ih =>
    exact (ih (hx.2 _) (hrest hl)).imp_left fun h => by simpa [Done.paths, hx.1] using h
  | writeFail _ ih =>
    exact (ih (hx.2 _) (hrest hl)).imp_left fun h => by simpa [Done.paths, hx.1] using h
  | write _ _ ih =>
    exact (ih (hx.2 _) (hrest hl)).imp_left fun h => by simpa [Done.paths, hx.1] using h
  | createDirectories _ _ ih =>
    exact (ih (hx.2 _) (hrest hl)).imp_left fun h => by simpa [Done.paths, hx.1] using h
  | renameFail _ ih =>
    exact (ih (hx.2 _) (hrest hl)).imp_left fun h => by simpa [Done.paths, hx.1.1, hx.1.2] using h
  | rename _ _ ih =>
    exact (ih (hx.2 _) (hrest hl)).imp_left fun h => by simpa [Done.paths, hx.1.1, hx.1.2] using h
  | removeFail _ ih =>
    exact (ih (hx.2 _) (hrest hl)).imp_left fun h => by simpa [Done.paths, hx.1] using h
  | remove _ ih =>
    exact (ih (hx.2 _) (hrest hl)).imp_left fun h => by simpa [Done.paths, hx.1] using h
  | list _ _ ih =>
    have ha := hl _ _ List.mem_cons_self
    exact (ih (hx.2 _ ha) (hrest hl)).imp_left fun h => by simpa [Done.paths, hx.1] using h

end Inside

end KzGlobal.Lib.FileProgram
