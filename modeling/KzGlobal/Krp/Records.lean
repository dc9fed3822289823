import KzGlobal.Lib.Sparse
import KzGlobal.Krp.Codec

/-! # Raw replays as lists of records

What a `.krpr` and the body of a `.krpz` say, apart from how they are laid out: a header and a list
of records. A `Record` is an event or a frame row, and a frame row carries one data byte for every
bit its mask sets among the first 112 (`FrameRecord.data_len`). `krprOf h rs` is the raw layout and
`krpzOf h rs` the columnar one; the rows are a sparse table (`FrameRecord.cells`), and column `k` of
the body is its column `k`. -/

namespace KzGlobal.Krp.Records

open KzGlobal.Lib.Loop KzGlobal.Lib.Packed KzGlobal.Lib.Sparse
open KzGlobal.Krp.Format KzGlobal.Krp.Codec

/-! ### Records -/

/-- A DELTA or KEYFRAME record: a mask, and one data byte for each byte of the frame it selects. -/
structure FrameRecord where
  key : Bool
  mask : Bytes
  data : Bytes
  mask_len : mask.length = sizeofKrpMask
  data_len : data.length = (setBits mask).length
  deriving DecidableEq

/-- A record of the raw stream. -/
inductive Record
  | event (id : UInt8)
  | frame (r : FrameRecord)
  deriving DecidableEq

/-- The type byte of a frame's record. -/
def FrameRecord.type (r : FrameRecord) : UInt8 :=
  if r.key then krpFrametypeKeyframe else krpFrametypeDelta

/-- The data bytes with the byte of the frame each belongs to. -/
def FrameRecord.cells (r : FrameRecord) : List (ℕ × UInt8) := (setBits r.mask).zip r.data

/-- The 8 bytes of mask block `block`. -/
def FrameRecord.maskBlock (r : FrameRecord) (block : ℕ) : Bytes := (r.mask.drop (block * 8)).take 8

namespace Record

/-- The leading byte of a record. -/
def type : Record → UInt8
  | event _ => krpFrametypeEvent
  | frame r => r.type

/-- A record as bytes. -/
def encode : Record → Bytes
  | event id => [krpFrametypeEvent, id]
  | frame r => r.type :: (r.mask ++ r.data)

/-- A record of a frame, not of an event. -/
def isFrame : Record → Bool
  | event _ => false
  | frame _ => true

end Record

/-- The raw stream of a list of records. -/
def encodeAll (rs : List Record) : Bytes := rs.flatMap Record.encode

/-- The frame rows of a list of records. -/
def frames : List Record → List FrameRecord
  | [] => []
  | .event _ :: rs => frames rs
  | .frame r :: rs => r :: frames rs

/-- The event ids of a list of records. -/
def eventIds : List Record → Bytes
  | [] => []
  | .event id :: rs => id :: eventIds rs
  | .frame _ :: rs => eventIds rs

/-- The first record is a KEYFRAME. -/
def StartsWithKeyframe (rs : List Record) : Prop := ∃ r rs', rs = .frame r :: rs' ∧ r.key = true

instance (rs : List Record) : Decidable (StartsWithKeyframe rs) :=
  match rs with
  | [] => isFalse fun ⟨_, _, h, _⟩ => by cases h
  | .event _ :: _ => isFalse fun ⟨_, _, h, _⟩ => by cases h
  | .frame r :: rs => if h : r.key = true then isTrue ⟨r, rs, rfl, h⟩
    else isFalse fun ⟨_, _, he, hk⟩ => by cases he; exact h hk

/-! ### The two layouts -/

/-- The types section. -/
def typesOf (rs : List Record) : Bytes := rs.map Record.type

/-- The stream of mask block `block`. -/
def blockOf (rs : List Record) (block : ℕ) : Bytes := (frames rs).flatMap fun r => r.maskBlock block

/-- The flags section: the two block streams. -/
def flagsOf (rs : List Record) : Bytes := (List.range krpMaskBlocks).flatMap (blockOf rs)

/-- Column `k` of the table of data bytes. -/
def columnOf (rs : List Record) (k : ℕ) : Bytes := column k ((frames rs).map FrameRecord.cells)

/-- The data section: the 112 columns. -/
def dataOf (rs : List Record) : Bytes := concat (columnOf rs) sizeofKrpFrame

/-- The header with the four section lengths of `rs`. -/
def headerOf (h : KrpHeader) (rs : List Record) : KrpHeader :=
  (((h.setNum .sizeTypes rs.length).setNum .sizeFlags (flagsOf rs).length).setNum .sizeData
    (dataOf rs).length).setNum .sizeEvents (eventIds rs).length

/-- **The raw layout**: header and records. -/
def krprOf (h : KrpHeader) (rs : List Record) : Bytes := h.bytes ++ encodeAll rs

/-- **The columnar layout**: header, types, flags, data and events. -/
def krpzOf (h : KrpHeader) (rs : List Record) : Bytes :=
  (headerOf h rs).bytes ++ (typesOf rs ++ flagsOf rs ++ dataOf rs ++ eventIds rs)

/-- A header that `validate_header` accepts. -/
def ValidHeader (h : KrpHeader) : Prop :=
  h.num .magic = krpMagic ∧ h.num .version = krpCurrentVersion

instance (h : KrpHeader) : Decidable (ValidHeader h) := by unfold ValidHeader; infer_instance

/-! ### Masks and cells -/

theorem nodup_setBits (mask : Bytes) : (setBits mask).Nodup := List.nodup_range.filter _

theorem mem_setBits {mask : Bytes} {k : ℕ} :
    k ∈ setBits mask ↔ k < sizeofKrpFrame ∧ maskBit mask k = true := by
  simp [setBits]

theorem FrameRecord.keys_cells (r : FrameRecord) : keys r.cells = setBits r.mask := by
  rw [keys, cells, List.map_fst_zip r.data_len.ge]

theorem FrameRecord.length_cells (r : FrameRecord) : r.cells.length = r.data.length := by
  rw [cells, List.length_zip, r.data_len, min_self]

theorem FrameRecord.nodup_keys (r : FrameRecord) : (keys r.cells).Nodup := by
  rw [r.keys_cells]; exact nodup_setBits _

theorem FrameRecord.length_maskBlock (r : FrameRecord) {block : ℕ} (h : block < krpMaskBlocks) :
    (r.maskBlock block).length = 8 := by
  have := r.mask_len
  unfold krpMaskBlocks at h
  unfold sizeofKrpMask at this
  simp only [maskBlock, List.length_take, List.length_drop]
  omega

theorem FrameRecord.type_ne_event (r : FrameRecord) : r.type ≠ krpFrametypeEvent := by
  unfold type; split_ifs <;> decide

theorem FrameRecord.type_mem (r : FrameRecord) :
    r.type = krpFrametypeDelta ∨ r.type = krpFrametypeKeyframe := by
  unfold type; split_ifs
  · exact Or.inr rfl
  · exact Or.inl rfl

theorem FrameRecord.type_eq_keyframe (r : FrameRecord) :
    r.type = krpFrametypeKeyframe ↔ r.key = true := by
  unfold type
  cases r.key <;> decide

/-! ### Splitting a list of records -/

@[simp] theorem encodeAll_cons (r : Record) (rs : List Record) :
    encodeAll (r :: rs) = r.encode ++ encodeAll rs := by
  simp [encodeAll]

@[simp] theorem frames_append : ∀ rs rs' : List Record, frames (rs ++ rs') = frames rs ++ frames rs'
  | [], _ => rfl
  | .event _ :: rs, rs' => frames_append rs rs'
  | .frame r :: rs, rs' => congrArg (r :: ·) (frames_append rs rs')

@[simp] theorem eventIds_append :
    ∀ rs rs' : List Record, eventIds (rs ++ rs') = eventIds rs ++ eventIds rs'
  | [], _ => rfl
  | .event id :: rs, rs' => congrArg (id :: ·) (eventIds_append rs rs')
  | .frame _ :: rs, rs' => eventIds_append rs rs'

@[simp] theorem typesOf_append (rs rs' : List Record) :
    typesOf (rs ++ rs') = typesOf rs ++ typesOf rs' := by
  simp [typesOf]

@[simp] theorem length_typesOf (rs : List Record) : (typesOf rs).length = rs.length := by
  simp [typesOf]

theorem length_blockOf (rs : List Record) {block : ℕ} (h : block < krpMaskBlocks) :
    (blockOf rs block).length = 8 * (frames rs).length := by
  rw [blockOf, List.length_flatMap, List.map_congr_left fun r _ => r.length_maskBlock h,
    List.map_const', List.sum_replicate, smul_eq_mul, Nat.mul_comm]

theorem flagsOf_eq (rs : List Record) : flagsOf rs = blockOf rs 0 ++ blockOf rs 1 := by
  simp [flagsOf, krpMaskBlocks, List.range_succ]

theorem length_flagsOf (rs : List Record) : (flagsOf rs).length = 16 * (frames rs).length := by
  rw [flagsOf_eq, List.length_append, length_blockOf rs (by decide), length_blockOf rs (by decide)]
  omega

theorem length_columnOf (rs : List Record) (k : ℕ) :
    (columnOf rs k).length = ((frames rs).map FrameRecord.cells).countP fun r => k ∈ keys r :=
  length_column k fun r hr => by
    obtain ⟨r, -, rfl⟩ := List.mem_map.mp hr
    exact r.nodup_keys

theorem length_dataOf (rs : List Record) :
    (dataOf rs).length = ((frames rs).map fun r => r.data.length).sum := by
  have h : ∀ r ∈ (frames rs).map FrameRecord.cells, ∀ k ∈ keys r,
      k ∈ List.range sizeofKrpFrame := by
    intro r hr k hk
    obtain ⟨r, -, rfl⟩ := List.mem_map.mp hr
    rw [r.keys_cells, mem_setBits] at hk
    exact List.mem_range.mpr hk.1
  have hs := sum_length_column List.nodup_range h
  simp only [dataOf, length_concat, start, columnOf]
  rw [hs, List.map_map]
  exact congrArg List.sum (List.map_congr_left fun r _ => r.length_cells)

theorem length_encodeAll : ∀ rs : List Record, (encodeAll rs).length =
    rs.length + 16 * (frames rs).length + ((frames rs).map fun r => r.data.length).sum +
      (eventIds rs).length
  | [] => rfl
  | .event id :: rs => by
    rw [encodeAll_cons, List.length_append, length_encodeAll rs]
    simp only [Record.encode, frames, eventIds, List.length_cons, List.length_nil]
    omega
  | .frame r :: rs => by
    have := r.mask_len
    unfold sizeofKrpMask at this
    rw [encodeAll_cons, List.length_append, length_encodeAll rs]
    simp only [Record.encode, frames, eventIds, List.length_cons, List.length_append, List.map_cons,
      List.sum_cons]
    omega

/-- **The two layouts have the same length.** -/
theorem length_krpzOf (h h' : KrpHeader) (rs : List Record) :
    (krpzOf h rs).length = (krprOf h' rs).length := by
  simp only [krpzOf, krprOf, List.length_append, (headerOf h rs).size_eq, h'.size_eq,
    length_typesOf, length_flagsOf, length_dataOf, length_encodeAll]

/-! ### Reading a raw layout back -/

theorem Record.encode_append_inj {r r' : Record} {a b : Bytes}
    (h : r.encode ++ a = r'.encode ++ b) : r = r' ∧ a = b := by
  rcases r with id | f <;> rcases r' with id' | f' <;> obtain ⟨ht, hrest⟩ := List.cons.inj h
  · obtain ⟨rfl, rfl⟩ := List.cons.inj hrest
    exact ⟨rfl, rfl⟩
  · exact absurd ht.symm f'.type_ne_event
  · exact absurd ht f.type_ne_event
  · change f.mask ++ f.data ++ a = f'.mask ++ f'.data ++ b at hrest
    rw [List.append_assoc, List.append_assoc] at hrest
    obtain ⟨hm, hrest⟩ := List.append_inj hrest (f.mask_len.trans f'.mask_len.symm)
    obtain ⟨hd, rfl⟩ := List.append_inj hrest (by rw [f.data_len, f'.data_len, hm])
    have hk : f.key = f'.key := by
      rw [Bool.eq_iff_iff, ← f.type_eq_keyframe, ← f'.type_eq_keyframe, ht]
    cases f; cases f'
    simp only at hm hd hk
    subst hm hd hk
    exact ⟨rfl, rfl⟩

theorem eq_nil_of_encodeAll {rs : List Record} (h : encodeAll rs = []) : rs = [] := by
  have hl := congrArg List.length h
  rw [length_encodeAll, List.length_nil] at hl
  exact List.eq_nil_of_length_eq_zero (by omega)

theorem encodeAll_inj : ∀ {rs rs' : List Record}, encodeAll rs = encodeAll rs' → rs = rs'
  | [], _, h => (eq_nil_of_encodeAll h.symm).symm
  | _ :: _, [], h => eq_nil_of_encodeAll h
  | r :: rs, r' :: rs', h => by
    rw [encodeAll_cons, encodeAll_cons] at h
    obtain ⟨rfl, hrest⟩ := Record.encode_append_inj h
    rw [encodeAll_inj hrest]

/-- **A raw layout has one header and one list of records.** -/
theorem krprOf_inj {h h' : KrpHeader} {rs rs' : List Record} (he : krprOf h rs = krprOf h' rs') :
    h = h' ∧ rs = rs' := by
  obtain ⟨hh, hr⟩ := List.append_inj he (h.size_eq.trans h'.size_eq.symm)
  exact ⟨KrpHeader.ext hh, encodeAll_inj hr⟩

end KzGlobal.Krp.Records
