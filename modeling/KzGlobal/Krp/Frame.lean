import KzGlobal.Krp.Format
import KzGlobal.Lib.Layout

/-! # The members of a frame

What a frame says of a tick: the command of the player, the state of the entity and the length of
the tick, member by member, at the offsets of the packed structs. Floats are their bits. A frame
that is filled member by member is read back as it was filled (`num_store`), and the members that
were not stored keep what they held (`num_store_of_notMem`). -/

namespace KzGlobal.Krp.Frame

open KzGlobal.Lib.Packed KzGlobal.Lib.Layout KzGlobal.Krp.Format

/-! ### Members -/

/-- The components of a `krp_v3f`. -/
inductive Axis
  | x | y | z
  deriving DecidableEq

/-- The offset of a component. -/
def Axis.off : Axis → ℕ
  | x => 0
  | y => 4
  | z => 8

/-- The members of `krp_usercmd`, `krp_entvars` and `krp_glbvars`, in this order. -/
inductive FrameMember
  | lerpMsec | msec | viewangles (a : Axis) | forwardmove | sidemove | upmove | lightlevel | buttons
  | impulse | weaponselect | impactIndex | impactPosition (a : Axis)
  | origin (a : Axis) | velocity (a : Axis) | vAngle (a : Axis) | fixangle | movetype | flags
  | button | oldbuttons | fuser2
  | frametime
  deriving DecidableEq

namespace FrameMember

/-- `offsetof` and `sizeof` of a member. -/
def field : FrameMember → Field
  | lerpMsec => ⟨0, 2⟩
  | msec => ⟨2, 1⟩
  | viewangles a => ⟨3 + a.off, 4⟩
  | forwardmove => ⟨15, 4⟩
  | sidemove => ⟨19, 4⟩
  | upmove => ⟨23, 4⟩
  | lightlevel => ⟨27, 1⟩
  | buttons => ⟨28, 2⟩
  | impulse => ⟨30, 1⟩
  | weaponselect => ⟨31, 1⟩
  | impactIndex => ⟨32, 4⟩
  | impactPosition a => ⟨36 + a.off, 4⟩
  | origin a => ⟨48 + a.off, 4⟩
  | velocity a => ⟨60 + a.off, 4⟩
  | vAngle a => ⟨72 + a.off, 4⟩
  | fixangle => ⟨84, 4⟩
  | movetype => ⟨88, 4⟩
  | flags => ⟨92, 4⟩
  | button => ⟨96, 4⟩
  | oldbuttons => ⟨100, 4⟩
  | fuser2 => ⟨104, 4⟩
  | frametime => ⟨108, 4⟩

/-- A vector of members. -/
def axes (m : Axis → FrameMember) : List FrameMember := [m .x, m .y, m .z]

/-- The members in the order of the structs. -/
def layout : List FrameMember :=
  [lerpMsec, msec] ++ axes viewangles ++ [forwardmove, sidemove, upmove, lightlevel, buttons,
    impulse, weaponselect, impactIndex] ++ axes impactPosition ++ axes origin ++ axes velocity ++
    axes vAngle ++ [fixangle, movetype, flags, button, oldbuttons, fuser2, frametime]

theorem mem_layout (m : FrameMember) : m ∈ layout := by
  cases m with
  | viewangles a | impactPosition a | origin a | velocity a | vAngle a => cases a <;> decide
  | _ => decide

theorem layout_packed :
    layout.map (fun m => m.field.off) =
        (layout.map fun m => m.field.size).inits.dropLast.map List.sum ∧
      (layout.map fun m => m.field.size).sum = sizeofKrpFrame := by decide

theorem field_fits (m : FrameMember) : m.field.off + m.field.size ≤ sizeofKrpFrame := by
  have h : ∀ m ∈ layout, m.field.off + m.field.size ≤ sizeofKrpFrame := by decide
  exact h m (mem_layout m)

theorem field_disjoint {m m' : FrameMember} (h : m ≠ m') : m.field.Disjoint m'.field := by
  have hp : layout.Pairwise fun m m' => m.field.Disjoint m'.field := by decide
  have : Std.Symm fun m m' : FrameMember => m.field.Disjoint m'.field := ⟨fun _ _ => Or.symm⟩
  exact hp.forall (mem_layout m) (mem_layout m') h

end FrameMember

open FrameMember

/-! ### Reading and storing -/

/-- The number a member holds. -/
def num (f : KrpFrame) (m : FrameMember) : ℕ := le (m.field.get f.bytes)

/-- Members and the numbers stored in them. -/
abbrev Stores := List (FrameMember × ℕ)

/-- The stores as stores in the record. -/
def Stores.fields (l : Stores) : List Store := l.map fun s => (s.1.field, s.2)

/-- The members that are stored. -/
def Stores.members (l : Stores) : List FrameMember := l.map Prod.fst

theorem Stores.within (l : Stores) : Within sizeofKrpFrame l.fields := by
  intro s hs
  obtain ⟨⟨m, x⟩, -, rfl⟩ := List.mem_map.mp hs
  exact field_fits m

theorem Stores.apart {l : Stores} (h : l.members.Nodup) : Apart l.fields := by
  rw [Apart, fields, List.pairwise_map]
  rw [Stores.members, List.Nodup, List.pairwise_map] at h
  exact h.imp fun hne => field_disjoint hne

/-- Assigns members of a frame, one after the other. -/
def store (l : Stores) (f : KrpFrame) : KrpFrame :=
  ⟨storeAll l.fields f.bytes, by
    rw [length_storeAll (by rw [f.size_eq]; exact l.within), f.size_eq]⟩

section
variable {l : Stores} {f : KrpFrame} {m : FrameMember} {x : ℕ}

/-- **A stored member holds what was stored.** -/
theorem num_store (hl : l.members.Nodup) (hm : (m, x) ∈ l) :
    num (store l f) m = x % 256 ^ m.field.size := by
  have hin : (m.field, x) ∈ l.fields := List.mem_map.mpr ⟨(m, x), hm, rfl⟩
  exact le_get_storeAll (by rw [f.size_eq]; exact l.within) (Stores.apart hl) hin

/-- **A member that is not stored keeps what it held.** -/
theorem num_store_of_notMem (hm : m ∉ l.members) : num (store l f) m = num f m := by
  refine congrArg le (get_storeAll_of_disjoint (by rw [f.size_eq]; exact l.within) fun s hs => ?_)
  obtain ⟨⟨m', x⟩, hmem, rfl⟩ := List.mem_map.mp hs
  have hm' : m' ∈ l.members := List.mem_map.mpr ⟨(m', x), hmem, rfl⟩
  exact field_disjoint fun he => hm (he ▸ hm')

end

/-! ### Typed members -/

/-- `krp_v3f`, by the bits of its floats. -/
structure V3f where
  x : UInt32
  y : UInt32
  z : UInt32
  deriving DecidableEq, Repr

section
variable (f : KrpFrame)

/-- A member of one byte. -/
def u8 (m : FrameMember) : UInt8 := .ofNat (num f m)

/-- A member of two bytes. -/
def u16 (m : FrameMember) : UInt16 := .ofNat (num f m)

/-- A member of four bytes. -/
def u32 (m : FrameMember) : UInt32 := .ofNat (num f m)

/-- A member of three `float`s. -/
def v3f (m : Axis → FrameMember) : V3f := ⟨u32 f (m .x), u32 f (m .y), u32 f (m .z)⟩

end

/-- The stores of a vector. -/
def V3f.stores (m : Axis → FrameMember) (v : V3f) : Stores :=
  [(m .x, v.x.toNat), (m .y, v.y.toNat), (m .z, v.z.toNat)]

section
variable {l : Stores} {f : KrpFrame} {m : FrameMember} (hl : l.members.Nodup)
include hl

theorem u8_store {x : UInt8} (hm : (m, x.toNat) ∈ l) (hs : m.field.size = 1) :
    u8 (store l f) m = x := by
  rw [u8, num_store hl hm, hs]
  exact (congrArg UInt8.ofNat (Nat.mod_eq_of_lt x.toNat_lt)).trans UInt8.ofNat_toNat

theorem u16_store {x : UInt16} (hm : (m, x.toNat) ∈ l) (hs : m.field.size = 2) :
    u16 (store l f) m = x := by
  rw [u16, num_store hl hm, hs]
  exact (congrArg UInt16.ofNat (Nat.mod_eq_of_lt x.toNat_lt)).trans UInt16.ofNat_toNat

theorem u32_store {x : UInt32} (hm : (m, x.toNat) ∈ l) (hs : m.field.size = 4) :
    u32 (store l f) m = x := by
  rw [u32, num_store hl hm, hs]
  exact (congrArg UInt32.ofNat (Nat.mod_eq_of_lt x.toNat_lt)).trans UInt32.ofNat_toNat

theorem v3f_store {v : V3f} {m : Axis → FrameMember} (hm : ∀ s ∈ v.stores m, s ∈ l)
    (hs : ∀ a, (m a).field.size = 4) : v3f (store l f) m = v := by
  have hx := hm (m .x, v.x.toNat) (by rw [V3f.stores]; simp)
  have hy := hm (m .y, v.y.toNat) (by rw [V3f.stores]; simp)
  have hz := hm (m .z, v.z.toNat) (by rw [V3f.stores]; simp)
  rw [v3f, u32_store hl hx (hs _), u32_store hl hy (hs _), u32_store hl hz (hs _)]

end

end KzGlobal.Krp.Frame
