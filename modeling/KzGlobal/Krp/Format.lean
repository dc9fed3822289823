import KzGlobal.Lib.Packed

/-! # The KRP replay format: constants, header, frame and mask

The packed structures of `krp_format.h` as the bytes they are on disk. A `KrpHeader` is 256 bytes
and its fields are read and written at the offsets of the struct; a `KrpFrame` is the 112 bytes of
one captured tick, the unit the delta mask has a bit for. -/

namespace KzGlobal.Krp.Format

open KzGlobal.Lib.Packed

/-- The contents of a file, or of a part of one. -/
abbrev Bytes := List UInt8

/-! ### Constants -/

/-- `KRP_MAGIC`. -/
def krpMagic : ℕ := 0x4B52502146494C45

/-- `KRP_CURRENT_VERSION`. -/
def krpCurrentVersion : ℕ := 1

/-- `KRP_FRAMETYPE_EVENT`. -/
def krpFrametypeEvent : UInt8 := 0

/-- `KRP_FRAMETYPE_DELTA`. -/
def krpFrametypeDelta : UInt8 := 1

/-- `KRP_FRAMETYPE_KEYFRAME`. -/
def krpFrametypeKeyframe : UInt8 := 2

/-- `KRP_EVENT_CHECKPOINT`. -/
def krpEventCheckpoint : UInt8 := 0

/-- `KRP_EVENT_GOCHECK`. -/
def krpEventGocheck : UInt8 := 1

/-- `sizeof(krp_header)`. -/
def sizeofKrpHeader : ℕ := 256

/-- `sizeof(krp_frame)`. -/
def sizeofKrpFrame : ℕ := 112

/-- `sizeof(krp_mask)`. -/
def sizeofKrpMask : ℕ := 16

/-- `sizeof(krp_mask) / sizeof(uint64_t)`. -/
def krpMaskBlocks : ℕ := 2

/-- The largest decompressed body the reader takes (100 MiB). -/
def krpMaxDecompressedBytes : ℕ := 104857600

/-! ### The header -/

/-- The members of `krp_header`. -/
inductive Member
  | magic | version | playerName | playerSteamid | mapName | mapChecksum | runCheckpoints
  | runTeleports | timestamp | serverIp | serverPort | sizeTypes | sizeFlags | sizeData | sizeEvents
  | reserved
  deriving DecidableEq, Repr

namespace Member

/-- `offsetof` and `sizeof` of a member. -/
def field : Member → Field
  | magic => ⟨0, 8⟩
  | version => ⟨8, 8⟩
  | playerName => ⟨16, 32⟩
  | playerSteamid => ⟨48, 35⟩
  | mapName => ⟨83, 64⟩
  | mapChecksum => ⟨147, 4⟩
  | runCheckpoints => ⟨151, 4⟩
  | runTeleports => ⟨155, 4⟩
  | timestamp => ⟨159, 8⟩
  | serverIp => ⟨167, 4⟩
  | serverPort => ⟨171, 2⟩
  | sizeTypes => ⟨173, 4⟩
  | sizeFlags => ⟨177, 4⟩
  | sizeData => ⟨181, 4⟩
  | sizeEvents => ⟨185, 4⟩
  | reserved => ⟨189, 67⟩

/-- The members in the order of the struct. -/
def layout : List Member :=
  [magic, version, playerName, playerSteamid, mapName, mapChecksum, runCheckpoints, runTeleports,
    timestamp, serverIp, serverPort, sizeTypes, sizeFlags, sizeData, sizeEvents, reserved]

theorem mem_layout (m : Member) : m ∈ layout := by cases m <;> decide

theorem layout_packed :
    layout.map (fun m => m.field.off) =
        (layout.map fun m => m.field.size).inits.dropLast.map List.sum ∧
      (layout.map fun m => m.field.size).sum = sizeofKrpHeader := by decide

theorem field_fits (m : Member) : m.field.off + m.field.size ≤ sizeofKrpHeader := by
  cases m <;> decide

theorem field_disjoint {m m' : Member} (h : m ≠ m') : m.field.Disjoint m'.field := by
  cases m <;> cases m' <;> first | exact absurd rfl h | decide

end Member

/-- `krp_header`: 256 bytes, packed. -/
structure KrpHeader where
  bytes : Bytes
  size_eq : bytes.length = sizeofKrpHeader
  deriving DecidableEq

namespace KrpHeader

@[ext] theorem ext {h h' : KrpHeader} (e : h.bytes = h'.bytes) : h = h' := by
  cases h; cases h'; congr

/-- A header of zero bytes, as static storage begins. -/
def zero : KrpHeader := ⟨List.replicate sizeofKrpHeader 0, List.length_replicate⟩

/-- The bytes of a member. -/
def get (h : KrpHeader) (m : Member) : Bytes := m.field.get h.bytes

/-- An integer member. -/
def num (h : KrpHeader) (m : Member) : ℕ := le (h.get m)

/-- Writes bytes from the beginning of a member on, and never past its end. -/
def set (h : KrpHeader) (m : Member) (v : Bytes) : KrpHeader :=
  ⟨m.field.put (v.take m.field.size) h.bytes, by
    have := m.field_fits
    rw [Field.length_put (by rw [h.size_eq, List.length_take]; omega), h.size_eq]⟩

/-- Stores an integer in a member, cut to the member's width. -/
def setNum (h : KrpHeader) (m : Member) (x : ℕ) : KrpHeader := h.set m (leBytes m.field.size x)

theorem bytes_set (h : KrpHeader) (m : Member) (v : Bytes) :
    (h.set m v).bytes = m.field.put (v.take m.field.size) h.bytes := rfl

theorem get_set {h : KrpHeader} {m : Member} {v : Bytes} (hv : v.length = m.field.size) :
    (h.set m v).get m = v := by
  have := m.field_fits
  rw [get, bytes_set, List.take_of_length_le hv.le,
    Field.get_put (by rw [h.size_eq]; exact this) hv]

theorem get_set_prefix (h : KrpHeader) {m : Member} {v : Bytes} (hv : v.length ≤ m.field.size) :
    (h.set m v).get m = v ++ (h.get m).drop v.length := by
  have hf := m.field_fits
  have hs := h.size_eq
  refine List.ext_getElem? fun i => ?_
  rw [get, bytes_set, List.take_of_length_le hv, Field.getElem?_get,
    Field.getElem?_put (by omega), List.getElem?_append, List.getElem?_drop, get,
      Field.getElem?_get]
  split_ifs with h1 h2 h3 h4 h5
  · rw [Nat.add_sub_cancel_left]
  · omega
  · omega
  · omega
  · rw [Nat.add_sub_cancel' (by omega)]
  · omega
  · exact (List.getElem?_eq_none (by omega)).symm
  · omega
  · rfl

theorem length_get (h : KrpHeader) (m : Member) : (h.get m).length = m.field.size :=
  Field.length_get (by rw [h.size_eq]; exact m.field_fits)

theorem getElem?_set (h : KrpHeader) (m : Member) {v : Bytes} (hv : v.length ≤ m.field.size)
    (i : ℕ) : (h.set m v).bytes[i]? =
      if m.field.off ≤ i ∧ i < m.field.off + v.length then v[i - m.field.off]?
      else h.bytes[i]? := by
  have := m.field_fits
  rw [bytes_set, List.take_of_length_le hv, Field.getElem?_put (by rw [h.size_eq]; omega)]

theorem getElem?_setNum_of_out (h : KrpHeader) {m : Member} (x : ℕ) {i : ℕ}
    (hi : i < m.field.off ∨ m.field.off + m.field.size ≤ i) :
    (h.setNum m x).bytes[i]? = h.bytes[i]? := by
  rw [setNum, getElem?_set _ _ (length_leBytes _ _).le, length_leBytes, if_neg (by omega)]

/-- Storing the same integer in two headers: they agree in its member, and where they did before. -/
theorem getElem?_setNum_congr {h h' : KrpHeader} {m : Member} (x : ℕ) {i : ℕ}
    (hi : i < m.field.off ∨ m.field.off + m.field.size ≤ i → h.bytes[i]? = h'.bytes[i]?) :
    (h.setNum m x).bytes[i]? = (h'.setNum m x).bytes[i]? := by
  simp only [setNum, getElem?_set _ _ (length_leBytes _ _).le, length_leBytes]
  split_ifs with hin
  · rfl
  · exact hi (by omega)

/-- **A member apart from the one written keeps its bytes.** -/
theorem get_set_of_ne {h : KrpHeader} {m m' : Member} (hne : m ≠ m') (v : Bytes) :
    (h.set m v).get m' = h.get m' := by
  have hf := m.field_fits
  have hd := Member.field_disjoint hne
  have hl : (v.take m.field.size).length ≤ m.field.size := List.length_take_le _ _
  refine List.ext_getElem? fun i => ?_
  rw [get, get, Field.getElem?_get, Field.getElem?_get, bytes_set,
    Field.getElem?_put (by rw [h.size_eq]; omega)]
  unfold Field.Disjoint at hd
  split_ifs
  · omega
  · rfl
  · rfl

theorem num_setNum (h : KrpHeader) (m : Member) (x : ℕ) :
    (h.setNum m x).num m = x % 256 ^ m.field.size := by
  rw [num, setNum, get_set (length_leBytes _ _), le_leBytes]

theorem setNum_num (h : KrpHeader) (m : Member) : h.setNum m (h.num m) = h := by
  have hl : leBytes m.field.size (h.num m) = h.get m := by
    have := leBytes_le (h.get m)
    rwa [h.length_get] at this
  ext1
  rw [setNum, hl, bytes_set, List.take_of_length_le (h.length_get m).le]
  exact Field.put_get (by rw [h.size_eq]; exact m.field_fits)

theorem num_setNum_of_ne {h : KrpHeader} {m m' : Member} (hne : m ≠ m') (x : ℕ) :
    (h.setNum m x).num m' = h.num m' := by
  rw [num, setNum, get_set_of_ne hne]; rfl

theorem num_lt (h : KrpHeader) (m : Member) : h.num m < 256 ^ m.field.size := by
  have := le_lt (h.get m)
  rwa [length_get] at this

end KrpHeader

/-! ### The frame -/

/-- `krp_frame`: the 112 bytes of one captured tick (`cmd`, `vars`, `glb`). -/
structure KrpFrame where
  bytes : Bytes
  size_eq : bytes.length = sizeofKrpFrame
  deriving DecidableEq

namespace KrpFrame

/-- Byte `i` of the frame. -/
def byte (f : KrpFrame) (i : ℕ) : UInt8 := f.bytes.getD i 0

/-- The frame an array of 112 bytes holds. -/
def ofFn (b : ℕ → UInt8) : KrpFrame :=
  ⟨(List.range sizeofKrpFrame).map b, by simp [sizeofKrpFrame]⟩

end KrpFrame

/-! ### The delta mask -/

/-- `b & (1u << k)`. -/
def hasBit (b : UInt8) (k : ℕ) : Bool := b.toNat.testBit k

/-- Bit `i` of a mask: bit `i % 8` of byte `i / 8`. -/
def maskBit (mask : Bytes) (i : ℕ) : Bool := hasBit (mask.getD (i / 8) 0) (i % 8)

/-- The bytes of the frame that a mask selects, in increasing order. The bits from 112 on select
nothing. -/
def setBits (mask : Bytes) : List ℕ := (List.range sizeofKrpFrame).filter (maskBit mask)

end KzGlobal.Krp.Format
