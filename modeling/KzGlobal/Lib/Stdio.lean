import KzGlobal.Lib.Packed

/-! # Byte streams over files

An `OpenFile` is an open file: its bytes and a position. `read` and `write` move the position past
the bytes they touch, as `fread` and `fwrite` do; writing at the end appends (`write_end`), and
writing inside overwrites a field (`bytes_write_seek`). A `Disk` maps paths to the bytes of the
files there. -/

namespace KzGlobal.Lib.Stdio

open KzGlobal.Lib.Packed

variable {α : Type*}

/-- An open file. -/
structure OpenFile (α : Type*) where
  bytes : List α
  pos : ℕ

namespace OpenFile

/-- `fseek(fp, p, SEEK_SET)`. -/
def seek (s : OpenFile α) (p : ℕ) : OpenFile α := ⟨s.bytes, p⟩

/-- `fseek(fp, 0, SEEK_END)`. -/
def seekEnd (s : OpenFile α) : OpenFile α := ⟨s.bytes, s.bytes.length⟩

/-- The bytes `fread` returns for a count of `n`: fewer at the end of the file. -/
def peek (s : OpenFile α) (n : ℕ) : List α := (s.bytes.drop s.pos).take n

/-- `fread`. -/
def read (s : OpenFile α) (n : ℕ) : List α × OpenFile α :=
  (s.peek n, ⟨s.bytes, s.pos + (s.peek n).length⟩)

/-- `fwrite`. -/
def write (s : OpenFile α) (v : List α) : OpenFile α :=
  ⟨(⟨s.pos, v.length⟩ : Packed.Field).put v s.bytes, s.pos + v.length⟩

/-- **Writing at the end appends.** -/
theorem write_end {s : OpenFile α} (h : s.pos = s.bytes.length) (v : List α) :
    s.write v = ⟨s.bytes ++ v, (s.bytes ++ v).length⟩ := by
  have hd : s.bytes.drop (s.pos + v.length) = [] := List.drop_eq_nil_of_le (by omega)
  rw [write, Packed.Field.put, hd, List.append_nil, h, List.take_length, List.length_append]

/-- Piece `i` of a file that is read `n` bytes at a time. -/
def piece (n i : ℕ) (b : List α) : List α := (b.drop (i * n)).take n

/-- **Reading piece by piece**: the position is at the next piece, or at the end of the file. -/
theorem read_piece (b : List α) (n i : ℕ) :
    (⟨b, min (i * n) b.length⟩ : OpenFile α).read n =
      (piece n i b, ⟨b, min ((i + 1) * n) b.length⟩) := by
  have hdrop : b.drop (min (i * n) b.length) = b.drop (i * n) := by
    rcases le_total (i * n) b.length with h | h
    · rw [min_eq_left h]
    · rw [min_eq_right h, List.drop_length, List.drop_eq_nil_of_le h]
  have hpeek : (⟨b, min (i * n) b.length⟩ : OpenFile α).peek n = piece n i b := by
    rw [peek, hdrop, piece]
  have hlen : (piece n i b).length = min n (b.length - i * n) := by
    rw [piece, List.length_take, List.length_drop]
  have hpos : min (i * n) b.length + min n (b.length - i * n) = min (i * n + n) b.length := by omega
  rw [read, hpeek, hlen, Nat.succ_mul, ← hpos]

/-- **The pieces are the file.** -/
theorem flatten_pieces (n : ℕ) (b : List α) : ∀ k : ℕ,
    ((List.range k).map fun i => piece n i b).flatten = b.take (k * n)
  | 0 => by simp
  | k + 1 => by
    rw [List.range_succ, List.map_append, List.flatten_append, flatten_pieces n b k, Nat.succ_mul,
      List.take_add]
    simp [piece]

end OpenFile

/-! ### Disks -/

/-- The files at the paths of a file system. -/
abbrev Disk (κ α : Type*) := κ → Option (List α)

namespace Disk

variable {κ : Type*} [DecidableEq κ]

/-- The file at `p` holds `b`. -/
def store (d : Disk κ α) (p : κ) (b : List α) : Disk κ α := Function.update d p (some b)

/-- `unlink`. -/
def unlink (d : Disk κ α) (p : κ) : Disk κ α := Function.update d p none

/-- `rename`, which replaces a file at the new path. It fails where there is no file. -/
def rename (d : Disk κ α) (p q : κ) : Option (Disk κ α) :=
  (d p).map fun b => if p = q then d else (d.unlink p).store q b

@[simp] theorem store_self (d : Disk κ α) (p : κ) (b : List α) : d.store p b p = some b :=
  Function.update_self ..

theorem store_of_ne (d : Disk κ α) {p q : κ} (h : q ≠ p) (b : List α) : d.store p b q = d q :=
  Function.update_of_ne h ..

@[simp] theorem unlink_self (d : Disk κ α) (p : κ) : d.unlink p p = none := Function.update_self ..

theorem unlink_of_ne (d : Disk κ α) {p q : κ} (h : q ≠ p) : d.unlink p q = d q :=
  Function.update_of_ne h ..

theorem exists_rename {d : Disk κ α} {p : κ} {b : List α} (hb : d p = some b) (q : κ) :
    ∃ d', d.rename p q = some d' := by
  rw [rename, hb]
  exact ⟨_, rfl⟩

/-- **What a rename does**: the file is at the new path, and no file appears anywhere else. -/
theorem rename_eq_some {d d' : Disk κ α} {p q : κ} {b : List α} (hb : d p = some b)
    (h : d.rename p q = some d') : d' q = some b ∧ ∀ r, r ≠ q → d' r = d r ∨ d' r = none := by
  rw [rename, hb, Option.map_some, Option.some.injEq] at h
  split_ifs at h with hpq
  · subst h hpq
    exact ⟨hb, fun r _ => Or.inl rfl⟩
  · subst h
    refine ⟨store_self .., fun r hr => ?_⟩
    rw [store_of_ne _ hr]
    rcases eq_or_ne r p with rfl | hne
    · exact Or.inr (unlink_self ..)
    · exact Or.inl (unlink_of_ne _ hne)

end Disk

end KzGlobal.Lib.Stdio
