import Mathlib.Data.List.Basic
import Mathlib.Data.Nat.Notation

/-! # POSIX paths

A path is its root directory, its names and a separator at its end: two strings with the same parts
are one path. `Path.elements` are the elements of its iteration, and `Path.lexicallyNormal` is the
normal form of `std::filesystem`. A path without `..` whose last name is no dot keeps all its names
but the dots (`lexicallyNormal_eq`). -/

namespace KzGlobal.Lib.PosixPath

/-- A name: not empty, and without a separator. -/
def Name := { n : List UInt8 // n ≠ [] ∧ (47 : UInt8) ∉ n }

instance : DecidableEq Name :=
  inferInstanceAs (DecidableEq { n : List UInt8 // n ≠ [] ∧ (47 : UInt8) ∉ n })

/-- The bytes of a name. -/
def Name.text (n : Name) : List UInt8 := n.val

/-- The name `.`, the directory itself. -/
def Name.dot : Name := ⟨[46], by decide, by decide⟩

/-- The name `..`, the directory above. -/
def Name.dotDot : Name := ⟨[46, 46], by decide, by decide⟩

/-- A path: whether it starts at the root, its names, and whether a slash ends it. -/
structure Path where
  root : Bool
  names : List Name
  slash : Bool
  deriving DecidableEq

/-! ### The parts of a string -/

/-- A word as a name, unless it is empty or has a slash. -/
def toName? (w : List UInt8) : Option Name :=
  if h : w ≠ [] ∧ (47 : UInt8) ∉ w then some ⟨w, h⟩ else none

/-- The names between the separators of a string. -/
def namesOf (s : List UInt8) : List Name := (s.splitOn 47).filterMap toName?

/-- A text read as a path; slashes that follow one another count once. -/
def parse (s : List UInt8) : Path :=
  ⟨s.head? = some 47, namesOf s, namesOf s ≠ [] ∧ s.getLast? = some 47⟩

@[simp] theorem namesOf_nil : namesOf [] = [] := rfl

theorem namesOf_append_cons (s t : List UInt8) :
    namesOf (s ++ 47 :: t) = namesOf s ++ namesOf t := by
  rw [namesOf, List.splitOn_append_cons_self, List.filterMap_append]
  rfl

theorem namesOf_name {s : List UInt8} (h0 : s ≠ []) (h : (47 : UInt8) ∉ s) :
    namesOf s = [⟨s, h0, h⟩] := by
  have hn : toName? s = some ⟨s, h0, h⟩ := dif_pos ⟨h0, h⟩
  rw [namesOf, List.splitOn_eq_singleton h, List.filterMap_cons_some hn]
  rfl

/-- **A string that does not begin with a separator begins with a name.** -/
theorem namesOf_ne_nil {s : List UInt8} (h0 : s ≠ []) (h : s.head? ≠ some 47) : namesOf s ≠ [] := by
  by_cases h47 : (47 : UInt8) ∈ s
  · obtain ⟨a, b, rfl, ha⟩ := List.eq_append_cons_of_mem h47
    have ha0 : a ≠ [] := by
      rintro rfl
      exact h rfl
    rw [namesOf_append_cons, namesOf_name ha0 ha]
    simp
  · rw [namesOf_name h0 h47]
    simp

/-! ### Elements -/

/-- The elements of the iteration over a path. A separator at the end gives an empty one. -/
def Path.elements (p : Path) : List (List UInt8) :=
  (if p.root then [[47]] else []) ++ p.names.map Name.text ++ (if p.slash then [[]] else [])

/-- The last element: empty behind a separator, and of a path without names. -/
def Path.filename (p : Path) : List UInt8 :=
  if p.slash then [] else (p.names.getLast?.map Name.text).getD []

/-! ### The lexically normal form -/

/-- A path in the making: its names, the last one first, and whether a separator ends it. -/
structure Norm where
  stack : List Name
  slash : Bool

/-- One name, with or without a separator behind it. A dot goes with the separator behind it; a `..`
goes with the name before it, and with nothing below the root. -/
def normStep (root : Bool) (name : Name) (sep : Bool) (st : Norm) : Norm :=
  if name = .dot then ⟨st.stack, st.stack ≠ []⟩
  else if name = .dotDot then
    match st.stack with
    | [] => if root then ⟨[], false⟩ else ⟨[name], sep⟩
    | top :: rest => if top = .dotDot then ⟨name :: st.stack, sep⟩ else ⟨rest, rest ≠ []⟩
  else ⟨name :: st.stack, sep⟩

/-- A separator is behind every name but the last. -/
def normLoop (root slash : Bool) : List Name → Norm → Norm
  | [], st => st
  | n :: ns, st => normLoop root slash ns (normStep root n (ns ≠ [] || slash) st)

/-- `path::lexically_normal`. No separator follows a `..` at the end, and nothing at all is a
dot. -/
def Path.lexicallyNormal (p : Path) : Path :=
  if p.root = false ∧ p.names = [] then p
  else
    let st := normLoop p.root p.slash p.names ⟨[], false⟩
    if p.root = false ∧ st.stack = [] then ⟨false, [.dot], false⟩
    else ⟨p.root, st.stack.reverse, st.slash && st.stack.head? ≠ some .dotDot⟩

/-- The names that are no dots. -/
def withoutDots (ns : List Name) : List Name := ns.filter (· ≠ .dot)

theorem withoutDots_append (ns ms : List Name) :
    withoutDots (ns ++ ms) = withoutDots ns ++ withoutDots ms := List.filter_append ..

theorem normLoop_stack (root slash : Bool) : ∀ (ns : List Name) (st : Norm), .dotDot ∉ ns →
    (normLoop root slash ns st).stack = (withoutDots ns).reverse ++ st.stack
  | [], st, _ => by simp [normLoop, withoutDots]
  | n :: ns, st, h => by
    rw [List.mem_cons, not_or] at h
    have hd : n ≠ .dotDot := fun h0 => h.1 h0.symm
    rw [normLoop, normLoop_stack root slash ns _ h.2]
    by_cases hn : n = .dot
    · simp [normStep, withoutDots, hn]
    · simp [normStep, withoutDots, hn, hd]

theorem normLoop_slash (root slash : Bool) (last : Name) (h : last ≠ .dot) (h' : last ≠ .dotDot) :
    ∀ (ns : List Name) (st : Norm), (normLoop root slash (ns ++ [last]) st).slash = slash
  | [], st => by simp [normLoop, normStep, h, h']
  | n :: ns, st => by
    rw [List.cons_append, normLoop]
    exact normLoop_slash root slash last h h' ns _

/-- **The normal form of a path without `..`** whose last name is no dot. -/
theorem lexicallyNormal_eq {p : Path} {ns : List Name} {last : Name} (hp : p.names = ns ++ [last])
    (hdots : .dotDot ∉ p.names) (hlast : last ≠ .dot) :
    p.lexicallyNormal = ⟨p.root, withoutDots p.names, p.slash⟩ := by
  have hlast' : last ≠ .dotDot := fun h => hdots (by rw [hp, h]; simp)
  have hstack := normLoop_stack p.root p.slash p.names ⟨[], false⟩ hdots
  have hslash := normLoop_slash p.root p.slash last hlast hlast' ns ⟨[], false⟩
  have hne : p.names ≠ [] := by simp [hp]
  have hkept : withoutDots p.names ≠ [] := by
    rw [hp, withoutDots_append]
    simp [withoutDots, hlast]
  have hhead : (withoutDots p.names).reverse.head? = some last := by
    rw [hp, withoutDots_append]
    simp [withoutDots, hlast]
  rw [List.append_nil] at hstack
  rw [← hp] at hslash
  unfold Path.lexicallyNormal
  dsimp only
  rw [if_neg (by simp [hne]), hstack, if_neg (by simp [hkept]), hslash, hhead]
  simp [hlast']

end KzGlobal.Lib.PosixPath
