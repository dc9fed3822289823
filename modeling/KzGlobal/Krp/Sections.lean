import KzGlobal.Krp.Compress

/-! # `map_sections` accepts the columnar layouts, and nothing else

`map_sections` only counts: rows, events, and for every column the mask bits that select it. The
counts after `t` frame types are `tallyOf` of those types (`countType_eq`). They are enough: where
they agree with the header, the masks give the keys of the rows of a table, the counts give the
lengths of its columns, and columns of the right lengths are the columns of a table, so that the
body is the columnar layout of records (`mapSections_eq_ok`). No read leaves the body
(`mapSections_ne_oob`). -/

namespace KzGlobal.Krp.Sections

open KzGlobal.Lib.Loop KzGlobal.Lib.Packed KzGlobal.Lib.Sparse
open KzGlobal.Krp.Format KzGlobal.Krp.Codec KzGlobal.Krp.Records KzGlobal.Krp.Compress

/-! ### The loops over the blocks of a mask -/

theorem testBit_maskBlock (mask : Bytes) (block : ℕ) {bit : ℕ} (h : bit < 64) :
    (le ((mask.drop (block * 8)).take 8)).testBit bit = maskBit mask (block * 64 + bit) := by
  have hlt : bit / 8 < 8 := by omega
  rw [testBit_le, maskBit, hasBit, List.getD_eq_getElem?_getD, List.getElem?_take_of_lt hlt,
    List.getElem?_drop, List.getD_eq_getElem?_getD, show (block * 64 + bit) / 8 =
      block * 8 + bit / 8
      by omega, show (block * 64 + bit) % 8 = bit % 8 by omega]

theorem range_blocks :
    ((List.range krpMaskBlocks).flatMap fun block => (List.range 64).map (block * 64 + ·)) =
      List.range 128 := by decide

theorem filter_range_blocks (mask : Bytes) :
    (List.range 128).filter (fun k => decide (k < sizeofKrpFrame) && maskBit mask k) =
      setBits mask := by
  have hr : List.range 128 = List.range sizeofKrpFrame ++ List.range' 112 16 := by decide
  rw [hr, List.filter_append, setBits, List.filter_congr (q := maskBit mask) fun k hk => by
    simp [List.mem_range.mp hk]]
  refine List.append_right_eq_self.mpr (List.filter_eq_nil_iff.mpr fun k hk => ?_)
  have := (List.mem_range'_1.mp hk).1
  rw [decide_eq_false (by unfold sizeofKrpFrame; omega), Bool.false_and]
  exact Bool.false_ne_true

/-- **The loops over the blocks of a mask and their bits are a loop over the bytes it selects.** -/
theorem foldlM_mask {σ : Type} {mask : Bytes} {read : ℕ → Result ℕ} (f : σ → ℕ → Result σ)
    {g : ℕ → ℕ → σ → ℕ → Result σ}
    (hread : ∀ block < krpMaskBlocks, read block = .ok (le ((mask.drop (block * 8)).take 8)))
    (hg : ∀ block v s bit, g block v s bit =
      if v.testBit bit = true ∧ block * 64 + bit < sizeofKrpFrame then f s (block * 64 + bit)
      else .ok s) (s : σ) :
    (List.range krpMaskBlocks).foldlM
        (fun s block => read block >>= fun v => (List.range 64).foldlM (g block v) s) s =
      (setBits mask).foldlM f s := by
  let p : ℕ → Bool := fun k => decide (k < sizeofKrpFrame) && maskBit mask k
  let skip : σ → ℕ → Result σ := fun s k => if p k then f s k else .ok s
  have hblock : ∀ block < krpMaskBlocks, ∀ s,
      (read block >>= fun v => (List.range 64).foldlM (g block v) s) =
        ((List.range 64).map (block * 64 + ·)).foldlM skip s := by
    intro block hb s
    rw [hread block hb, ok_bind, List.foldlM_map]
    refine foldlM_congr (fun s bit hbit => ?_) s
    rw [hg, testBit_maskBlock mask block (List.mem_range.mp hbit)]
    simp only [skip, p, Bool.and_eq_true, decide_eq_true_eq, and_comm]
  have hcongr : (List.range krpMaskBlocks).foldlM
        (fun s block => read block >>= fun v => (List.range 64).foldlM (g block v) s) s =
      (List.range krpMaskBlocks).foldlM
        (fun s block => ((List.range 64).map (block * 64 + ·)).foldlM skip s) s :=
    foldlM_congr (fun s block hb => hblock block (List.mem_range.mp hb) s) s
  rw [hcongr, foldlM_nested skip _ (fun _ _ => rfl), range_blocks,
    foldlM_skip p (fun _ _ => rfl), filter_range_blocks]

theorem countBlock_eq (cs : ℕ → ℕ) (block v : ℕ) : .ok (countBlock cs block v) =
    (List.range 64).foldlM (fun cs bit =>
      if v.testBit bit = true ∧ block * 64 + bit < sizeofKrpFrame then
        .ok (Function.update cs (block * 64 + bit) (cs (block * 64 + bit) + 1))
      else (.ok cs : Result (ℕ → ℕ))) cs := by
  rw [countBlock, ← pure_eq_ok, ← List.foldlM_pure]
  refine foldlM_congr (fun cs bit _ => ?_) cs
  simp only [and_comm, pure_eq_ok]
  split_ifs <;> rfl

theorem foldlM_count : ∀ (ks : List ℕ) (cs : ℕ → ℕ),
    ks.foldlM (fun cs k => (.ok (Function.update cs k (cs k + 1)) : Result (ℕ → ℕ))) cs =
      .ok fun k => cs k + ks.count k
  | [], cs => by simp [pure_eq_ok]
  | k :: ks, cs => by
    rw [List.foldlM_cons, ok_bind, foldlM_count ks]
    refine congrArg Except.ok (funext fun k' => ?_)
    rw [List.count_cons]
    by_cases h : k = k'
    · subst h; simp; omega
    · simp [h, Function.update_of_ne (Ne.symm h)]

/-! ### The pass over the frame types -/

/-- The mask of row `row` of a flags section. -/
def rowMask (s : Sections) (row : ℕ) : Bytes :=
  (s.flags.drop (row * 8)).take 8 ++ (s.flags.drop (s.blockStreamSize + row * 8)).take 8

/-- The sizes of the types and flags sections are those of the header. -/
structure Shaped (s : Sections) : Prop where
  types_len : s.types.length = s.header.num .sizeTypes
  flags_len : s.flags.length = 16 * s.numFrames
  block_size : s.blockStreamSize = 8 * s.numFrames

section Shaped
variable {s : Sections} (hs : Shaped s) {row : ℕ} (hrow : row < s.numFrames)
include hs hrow

theorem Shaped.length_rowMask : (rowMask s row).length = sizeofKrpMask := by
  have := hs.flags_len
  have := hs.block_size
  simp only [rowMask, List.length_append, List.length_take, List.length_drop, sizeofKrpMask]
  omega

theorem Shaped.memcpy_block {block : ℕ} (hb : block < krpMaskBlocks) :
    memcpy s.flags (block * s.blockStreamSize + row * 8) 8 =
      .ok (((rowMask s row).drop (block * 8)).take 8) := by
  have h1 := hs.flags_len
  have h2 := hs.block_size
  have hl : ((s.flags.drop (row * 8)).take 8).length = 8 := by
    rw [List.length_take, List.length_drop]; omega
  have hl' : ((s.flags.drop (s.blockStreamSize + row * 8)).take 8).length = 8 := by
    rw [List.length_take, List.length_drop]; omega
  unfold krpMaskBlocks at hb
  rcases (by omega : block = 0 ∨ block = 1) with rfl | rfl
  · rw [memcpy, if_pos (by omega), Nat.zero_mul, Nat.zero_add, Nat.zero_mul,
      List.drop_zero, rowMask, List.take_left' hl]
  · rw [memcpy, if_pos (by omega), Nat.one_mul, Nat.one_mul, rowMask, List.drop_left' hl,
      List.take_of_length_le hl'.le]

theorem Shaped.memcpyU64_block {block : ℕ} (hb : block < krpMaskBlocks) :
    memcpyU64 s.flags (block * s.blockStreamSize + row * 8) =
      .ok (le (((rowMask s row).drop (block * 8)).take 8)) := by
  rw [memcpyU64, hs.memcpy_block hrow hb, map_ok]

end Shaped

/-- The counters after the frame types `types`. -/
def tallyOf (s : Sections) (types : Bytes) : Tally :=
  let rows := types.countP (· ≠ krpFrametypeEvent)
  { rows
    events := types.count krpFrametypeEvent
    colSizes := fun k => (List.range rows).countP fun row => k ∈ setBits (rowMask s row) }

/-- **One frame type.** -/
theorem countType_eq {s : Sections} (hs : Shaped s) {types : Bytes} {type : UInt8} {rest : Bytes}
    (ht : s.types = types ++ type :: rest) : countType s (tallyOf s types) types.length =
      if type = krpFrametypeEvent ∨
          (type = krpFrametypeDelta ∨ type = krpFrametypeKeyframe) ∧
            (tallyOf s types).rows < s.numFrames then
        .ok (tallyOf s (types ++ [type]))
      else .error (.error .corruptSections) := by
  have hd : s.types.drop types.length = type :: rest := by rw [ht, List.drop_left]
  unfold countType
  rw [readAt_of_drop hd, ok_bind]
  by_cases he : type = krpFrametypeEvent
  · rw [if_pos he, if_pos (Or.inl he)]
    subst he
    simp [tallyOf, List.countP_append]
  · rw [if_neg he]
    by_cases hk : type = krpFrametypeDelta ∨ type = krpFrametypeKeyframe
    · rw [if_neg (by tauto)]
      by_cases hr : s.numFrames ≤ (tallyOf s types).rows
      · rw [if_pos hr, if_neg (by rintro (h | ⟨-, h⟩) <;> [exact he h; omega])]
      · rw [if_neg hr, if_pos (Or.inr ⟨hk, not_le.mp hr⟩)]
        have hm := foldlM_mask (g := fun block v cs bit =>
            if v.testBit bit = true ∧ block * 64 + bit < sizeofKrpFrame then
              .ok (Function.update cs (block * 64 + bit) (cs (block * 64 + bit) + 1))
            else .ok cs)
          (fun cs k => .ok (Function.update cs k (cs k + 1)))
          (fun block hb => hs.memcpyU64_block (not_le.mp hr) hb) (fun _ _ _ _ => rfl)
          (tallyOf s types).colSizes
        simp only [← countBlock_eq] at hm
        rw [hm, foldlM_count, ok_bind]
        have hrows : (types ++ [type]).countP (· ≠ krpFrametypeEvent) =
            (tallyOf s types).rows + 1 := by simp [tallyOf, List.countP_append, he]
        refine congrArg Except.ok ?_
        simp only [tallyOf, Tally.mk.injEq] at hrows ⊢
        refine ⟨hrows.symm, by simp [List.count_append, he], funext fun k => ?_⟩
        rw [hrows, List.range_succ, List.countP_append, List.countP_singleton]
        congr 1
        rw [(nodup_setBits _).count]
        simp
    · rw [if_pos (by tauto), if_neg (by tauto)]

theorem tallyOf_colSizes (s : Sections) (colSizes : ℕ → ℕ) (types : Bytes) :
    tallyOf { s with colSizes } types = tallyOf s types := rfl

/-- A frame type the reader knows. -/
def KnownType (type : UInt8) : Prop :=
  type = krpFrametypeEvent ∨ type = krpFrametypeDelta ∨ type = krpFrametypeKeyframe

theorem Record_knownType (r : Record) : KnownType r.type := by
  cases r with
  | event id => exact Or.inl rfl
  | frame r => exact Or.inr r.type_mem

theorem take_succ_types {types : Bytes} {t : ℕ} (h : t < types.length) :
    types.take (t + 1) = types.take t ++ [types[t]] := by
  rw [List.take_add_one, List.getElem?_eq_getElem h]; rfl

theorem split_types {types : Bytes} {t : ℕ} (h : t < types.length) :
    types = types.take t ++ types[t] :: types.drop (t + 1) := by
  rw [← List.drop_eq_getElem_cons h, List.take_append_drop]

theorem rows_mono (s : Sections) (types : Bytes) (t : ℕ) :
    (tallyOf s (types.take t)).rows ≤ (tallyOf s types).rows :=
  (List.take_sublist t types).countP_le

theorem countTypes_sat {s : Sections} (hs : Shaped s) :
    Sat ((List.range s.types.length).foldlM (countType s) ⟨0, 0, fun _ => 0⟩)
      (fun c => c = tallyOf s s.types ∧ ∀ type ∈ s.types, KnownType type) (· ≠ .oob) := by
  have h := sat_foldlM (f := countType s) (E := (· ≠ .oob))
    (P := fun t c => c = tallyOf s (s.types.take t) ∧ ∀ type ∈ s.types.take t, KnownType type)
    s.types.length (s := ⟨0, 0, fun _ => 0⟩) ⟨rfl, by simp⟩ fun t c ht => ?_
  · rwa [List.take_length] at h
  rintro ⟨rfl, hk⟩
  have hstep := countType_eq hs (split_types ht)
  rw [List.length_take_of_le ht.le] at hstep
  rw [hstep]
  split_ifs with hc
  · refine sat_ok.mpr ⟨by rw [take_succ_types ht], fun type hm => ?_⟩
    rw [take_succ_types ht, List.mem_append, List.mem_singleton] at hm
    rcases hm with hm | rfl
    · exact hk type hm
    · exact hc.imp_right And.left
  · simp

theorem countTypes_ok {s : Sections} (hs : Shaped s) (hk : ∀ type ∈ s.types, KnownType type)
    (hr : (tallyOf s s.types).rows ≤ s.numFrames) :
    (List.range s.types.length).foldlM (countType s) ⟨0, 0, fun _ => 0⟩ =
      .ok (tallyOf s s.types) := by
  have h := foldlM_eq_ok (f := countType s) (fun t => tallyOf s (s.types.take t))
    (n := s.types.length) fun t ht => ?_
  · rwa [List.take_length] at h
  have hstep := countType_eq hs (split_types ht)
  rw [List.length_take_of_le ht.le] at hstep
  rw [hstep, take_succ_types ht, if_pos]
  refine (hk _ (List.getElem_mem ht)).imp_right fun hf => ⟨hf, ?_⟩
  -- the row of this frame is one of the rows of all
  have hm := rows_mono s s.types (t + 1)
  have hne : s.types[t] ≠ krpFrametypeEvent := by rcases hf with h | h <;> rw [h] <;> decide
  rw [take_succ_types ht] at hm
  simp only [tallyOf, List.countP_append, List.countP_singleton, hne, ne_eq, not_false_eq_true,
    decide_true, if_true] at hm hr ⊢
  omega

/-! ### The sections of a columnar layout -/

/-- The section lengths fit the header's 32-bit fields. -/
def Fits (rs : List Record) : Prop :=
  rs.length < 2 ^ 32 ∧ (flagsOf rs).length < 2 ^ 32 ∧ (dataOf rs).length < 2 ^ 32 ∧
    (eventIds rs).length < 2 ^ 32

theorem Fits.of_length {h : KrpHeader} {rs : List Record} (hl : (krpzOf h rs).length < 2 ^ 32) :
    Fits rs := by
  simp only [krpzOf, List.length_append, length_typesOf] at hl
  unfold Fits
  omega

/-- **The sections of `krpzOf h rs`.** -/
def sectionsOf (h : KrpHeader) (rs : List Record) : Sections where
  header := headerOf h rs
  types := typesOf rs
  flags := flagsOf rs
  data := dataOf rs
  events := eventIds rs
  numFrames := (frames rs).length
  colSizes := fun k => (columnOf rs k).length

section headerOf
variable (h : KrpHeader) {rs : List Record} (hf : Fits rs)

theorem headerOf_num {m : Member} (hm : m ≠ .sizeTypes ∧ m ≠ .sizeFlags ∧ m ≠ .sizeData ∧
    m ≠ .sizeEvents) : (headerOf h rs).num m = h.num m := by
  obtain ⟨h1, h2, h3, h4⟩ := hm
  rw [headerOf, KrpHeader.num_setNum_of_ne h4.symm, KrpHeader.num_setNum_of_ne h3.symm,
    KrpHeader.num_setNum_of_ne h2.symm, KrpHeader.num_setNum_of_ne h1.symm]

theorem headerOf_valid : ValidHeader (headerOf h rs) ↔ ValidHeader h := by
  unfold ValidHeader
  rw [headerOf_num h (by decide), headerOf_num h (by decide)]

include hf

theorem headerOf_sizeTypes : (headerOf h rs).num .sizeTypes = rs.length := by
  rw [headerOf, KrpHeader.num_setNum_of_ne (by decide), KrpHeader.num_setNum_of_ne (by decide),
    KrpHeader.num_setNum_of_ne (by decide), KrpHeader.num_setNum]
  exact Nat.mod_eq_of_lt hf.1

theorem headerOf_sizeFlags : (headerOf h rs).num .sizeFlags = (flagsOf rs).length := by
  rw [headerOf, KrpHeader.num_setNum_of_ne (by decide), KrpHeader.num_setNum_of_ne (by decide),
    KrpHeader.num_setNum]
  exact Nat.mod_eq_of_lt hf.2.1

theorem headerOf_sizeData : (headerOf h rs).num .sizeData = (dataOf rs).length := by
  rw [headerOf, KrpHeader.num_setNum_of_ne (by decide), KrpHeader.num_setNum]
  exact Nat.mod_eq_of_lt hf.2.2.1

theorem headerOf_sizeEvents : (headerOf h rs).num .sizeEvents = (eventIds rs).length := by
  rw [headerOf, KrpHeader.num_setNum]
  exact Nat.mod_eq_of_lt hf.2.2.2

theorem sectionsOf_shaped : Shaped (sectionsOf h rs) := by
  refine ⟨?_, length_flagsOf rs, ?_⟩
  · simp only [sectionsOf, length_typesOf, headerOf_sizeTypes h hf]
  · simp only [Sections.blockStreamSize, sectionsOf, headerOf_sizeFlags h hf, length_flagsOf,
      krpMaskBlocks]
    omega

end headerOf

theorem mask_eq_blocks (r : FrameRecord) : r.maskBlock 0 ++ r.maskBlock 1 = r.mask := by
  have := r.mask_len
  unfold sizeofKrpMask at this
  rw [FrameRecord.maskBlock, FrameRecord.maskBlock, Nat.zero_mul, List.drop_zero, Nat.one_mul,
    List.take_of_length_le (l := r.mask.drop 8) (by rw [List.length_drop]; omega),
    List.take_append_drop]

theorem drop_blockOf {rs : List Record} {pre post : List FrameRecord} {r : FrameRecord}
    (hf : frames rs = pre ++ r :: post) (block : ℕ) (hb : block < krpMaskBlocks) :
    ∃ rest, (blockOf rs block).drop (8 * pre.length) = r.maskBlock block ++ rest := by
  have hl : (pre.flatMap fun r => r.maskBlock block).length = 8 * pre.length := by
    rw [List.length_flatMap, List.map_congr_left fun r _ => r.length_maskBlock hb, List.map_const',
      List.sum_replicate, smul_eq_mul, Nat.mul_comm]
  refine ⟨post.flatMap fun r => r.maskBlock block, ?_⟩
  rw [blockOf, hf, List.flatMap_append, List.flatMap_cons, List.drop_left' hl]

/-- **The mask of a row stands in the flags section at the row's number.** -/
theorem rowMask_sectionsOf {h : KrpHeader} {rs : List Record} (hfit : Fits rs)
    {pre post : List FrameRecord} {r : FrameRecord} (hf : frames rs = pre ++ r :: post) :
    rowMask (sectionsOf h rs) pre.length = r.mask := by
  obtain ⟨rest₀, h0⟩ := drop_blockOf hf 0 (by decide)
  obtain ⟨rest₁, h1⟩ := drop_blockOf hf 1 (by decide)
  have hlt : 8 * pre.length ≤ (blockOf rs 0).length := by
    rw [length_blockOf rs (by decide), hf, List.length_append]; omega
  have hbs : (sectionsOf h rs).blockStreamSize = (blockOf rs 0).length := by
    rw [(sectionsOf_shaped h hfit).block_size, length_blockOf rs (by decide)]; rfl
  have hd0 : (flagsOf rs).drop (pre.length * 8) = r.maskBlock 0 ++ (rest₀ ++ blockOf rs 1) := by
    rw [flagsOf_eq, Nat.mul_comm, List.drop_append_of_le_length hlt, h0, List.append_assoc]
  have hd1 : (flagsOf rs).drop ((blockOf rs 0).length + pre.length * 8) =
      r.maskBlock 1 ++ rest₁ := by
    rw [flagsOf_eq, ← List.drop_drop, List.drop_left, Nat.mul_comm, h1]
  rw [rowMask, hbs]
  change ((flagsOf rs).drop _).take 8 ++ ((flagsOf rs).drop _).take 8 = _
  rw [hd0, hd1, List.take_left' (r.length_maskBlock (by decide)),
    List.take_left' (r.length_maskBlock (by decide)), mask_eq_blocks]

theorem map_rowMask (h : KrpHeader) {rs : List Record} (hfit : Fits rs) :
    (List.range (frames rs).length).map (rowMask (sectionsOf h rs)) =
      (frames rs).map FrameRecord.mask := by
  refine List.ext_getElem (by simp) fun i hi hi' => ?_
  rw [List.length_map] at hi'
  have hf : frames rs = (frames rs).take i ++ (frames rs)[i] :: (frames rs).drop (i + 1) := by
    rw [← List.drop_eq_getElem_cons hi', List.take_append_drop]
  have := rowMask_sectionsOf (h := h) hfit hf
  rw [List.length_take_of_le hi'.le] at this
  rw [List.getElem_map, List.getElem_map, List.getElem_range, this]

theorem countP_typesOf : ∀ rs : List Record,
    (typesOf rs).countP (· ≠ krpFrametypeEvent) = (frames rs).length
  | [] => rfl
  | .event id :: rs => by
    rw [typesOf, List.map_cons, List.countP_cons]
    simpa [Record.type, frames, typesOf] using countP_typesOf rs
  | .frame r :: rs => by
    rw [typesOf, List.map_cons, List.countP_cons]
    simpa [Record.type, frames, typesOf, r.type_ne_event] using countP_typesOf rs

theorem count_typesOf : ∀ rs : List Record,
    (typesOf rs).count krpFrametypeEvent = (eventIds rs).length
  | [] => rfl
  | .event id :: rs => by
    rw [typesOf, List.map_cons, List.count_cons]
    simpa [Record.type, eventIds, typesOf] using count_typesOf rs
  | .frame r :: rs => by
    rw [typesOf, List.map_cons, List.count_cons]
    simpa [Record.type, eventIds, typesOf, r.type_ne_event] using count_typesOf rs

theorem tallyOf_sectionsOf (h : KrpHeader) {rs : List Record} (hfit : Fits rs) :
    tallyOf (sectionsOf h rs) (typesOf rs) =
      ⟨(frames rs).length, (eventIds rs).length, fun k => (columnOf rs k).length⟩ := by
  simp only [tallyOf, countP_typesOf, count_typesOf, Tally.mk.injEq, true_and]
  refine funext fun k => ?_
  have hc : (fun row => decide (k ∈ setBits (rowMask (sectionsOf h rs) row))) =
      (fun mask => decide (k ∈ setBits mask)) ∘ rowMask (sectionsOf h rs) := rfl
  rw [hc, ← List.countP_map, map_rowMask h hfit, length_columnOf, List.countP_map, List.countP_map]
  refine List.countP_congr fun r _ => ?_
  simp only [Function.comp_apply, r.keys_cells]

/-! ### The records of sections that pass the counts -/

/-- Frame types, masks, rows and event ids that agree are those of a list of records. -/
theorem exists_records : ∀ (types : Bytes) (masks : List Bytes) (rows : List (List (ℕ × UInt8)))
    (events : Bytes), (∀ type ∈ types, KnownType type) →
    types.countP (· ≠ krpFrametypeEvent) = masks.length →
    types.count krpFrametypeEvent = events.length →
    (∀ mask ∈ masks, mask.length = sizeofKrpMask) → rows.map keys = masks.map setBits →
    ∃ rs, typesOf rs = types ∧ (frames rs).map FrameRecord.mask = masks ∧
      (frames rs).map FrameRecord.cells = rows ∧ eventIds rs = events
  | [], masks, rows, events, _, hm, he, _, hr => by
    obtain rfl : masks = [] := by simpa using hm.symm
    obtain rfl : events = [] := by simpa using he.symm
    obtain rfl : rows = [] := by simpa using hr
    exact ⟨[], rfl, rfl, rfl, rfl⟩
  | type :: types, masks, rows, events, hk, hm, he, hl, hr => by
    have hk' := fun t ht => hk t (List.mem_cons_of_mem _ ht)
    by_cases ht : type = krpFrametypeEvent
    · subst ht
      obtain ⟨id, events, rfl⟩ : ∃ id events', events = id :: events' :=
        List.exists_cons_of_ne_nil fun h0 => by rw [h0, List.count_cons_self] at he; simp at he
      obtain ⟨rs, h1, h2, h3, h4⟩ := exists_records types masks rows events hk'
        (by simpa using hm) (by simpa using he) hl hr
      exact ⟨.event id :: rs, by rw [← h1]; rfl, h2, h3, by rw [← h4]; rfl⟩
    · obtain ⟨mask, masks, rfl⟩ : ∃ mask masks', masks = mask :: masks' :=
        List.exists_cons_of_ne_nil fun h0 => by
          rw [h0, List.countP_cons_of_pos (by simpa using ht)] at hm; simp at hm
      obtain ⟨row, rows, rfl⟩ : ∃ row rows', rows = row :: rows' :=
        List.exists_cons_of_ne_nil fun h0 => by rw [h0] at hr; simp at hr
      rw [List.map_cons, List.map_cons, List.cons.injEq] at hr
      obtain ⟨rs, h1, h2, h3, h4⟩ := exists_records types masks rows events hk'
        (by rw [List.countP_cons_of_pos (by simpa using ht)] at hm; simpa using hm)
        (by rwa [List.count_cons_of_ne ht] at he)
        (fun m h => hl m (List.mem_cons_of_mem _ h)) hr.2
      have hlen : (row.map Prod.snd).length = (setBits mask).length := by
        rw [← hr.1, keys, List.length_map, List.length_map]
      refine ⟨.frame ⟨decide (type = krpFrametypeKeyframe), mask, row.map Prod.snd,
        hl mask List.mem_cons_self, hlen⟩ :: rs, ?_, ?_, ?_, h4⟩
      · rw [← h1, typesOf, List.map_cons, Record.type, FrameRecord.type]
        congr 1
        rcases (hk type List.mem_cons_self).resolve_left ht with rfl | rfl <;> rfl
      · exact congrArg (mask :: ·) h2
      · rw [← h3, frames, List.map_cons, FrameRecord.cells, ← hr.1]
        exact congrArg (· :: _) (List.zip_of_prod rfl rfl).symm

/-- **The block streams of the records are the flags section.** -/
theorem flagsOf_eq_flags {s : Sections} (hs : Shaped s) {rs : List Record}
    (hm : (frames rs).map FrameRecord.mask = (List.range s.numFrames).map (rowMask s)) :
    flagsOf rs = s.flags := by
  have hblock : ∀ block < krpMaskBlocks,
      blockOf rs block = (s.flags.drop (block * s.blockStreamSize)).take (8 * s.numFrames) := by
    intro block hb
    have hcut : ∀ row < s.numFrames, ((rowMask s row).drop (block * 8)).take 8 =
        cut (fun _ => 8) (s.flags.drop (block * s.blockStreamSize)) row := by
      intro row hrow
      have h := hs.memcpy_block hrow hb
      unfold memcpy at h
      split_ifs at h
      rw [← Except.ok.inj h, cut, List.drop_drop, start, List.map_const', List.sum_replicate,
        List.length_range]
      rfl
    have hstart : start (fun _ => 8) s.numFrames = 8 * s.numFrames := by
      rw [start, List.map_const', List.sum_replicate, List.length_range, smul_eq_mul, Nat.mul_comm]
    rw [← hstart, ← concat_cut, ← concat_congr hcut]
    have hb : blockOf rs block = ((frames rs).map FrameRecord.mask).flatMap
        fun mask => (mask.drop (block * 8)).take 8 := by
      rw [List.flatMap_map]; rfl
    rw [hb, hm, List.flatMap_map]
    rfl
  have hl := hs.flags_len
  rw [flagsOf_eq, hblock 0 (by decide), hblock 1 (by decide), hs.block_size, Nat.zero_mul,
    List.drop_zero, Nat.one_mul,
    List.take_of_length_le (l := s.flags.drop (8 * s.numFrames)) (by rw [List.length_drop]; omega),
    List.take_append_drop]

/-- **Sections whose counts agree are the sections of some records.** -/
theorem exists_of_tally {s : Sections} (hs : Shaped s) (hk : ∀ type ∈ s.types, KnownType type)
    (hrows : (tallyOf s s.types).rows = s.numFrames)
    (hevents : (tallyOf s s.types).events = s.events.length)
    (hcols : ((List.range sizeofKrpFrame).map (tallyOf s s.types).colSizes).sum = s.data.length) :
    ∃ rs, typesOf rs = s.types ∧ flagsOf rs = s.flags ∧ dataOf rs = s.data ∧
      eventIds rs = s.events ∧ (frames rs).length = s.numFrames ∧
      (fun k => (columnOf rs k).length) = (tallyOf s s.types).colSizes := by
  set sizes := (tallyOf s s.types).colSizes with hsizes
  let masks := (List.range s.numFrames).map (rowMask s)
  let c : ℕ → Bytes := fun k => if k < sizeofKrpFrame then cut sizes s.data k else []
  have hcount : ∀ k, sizes k = (masks.map setBits).countP fun ks => k ∈ ks := by
    intro k
    rw [hsizes, List.countP_map, List.countP_map, ← hrows]
    rfl
  have hstart : start sizes sizeofKrpFrame = s.data.length := hcols
  have hc : ∀ k, (c k).length = sizes k := by
    intro k
    by_cases hlt : k < sizeofKrpFrame
    · simp only [c, if_pos hlt]
      exact length_cut hstart hlt
    · simp only [c, if_neg hlt, List.length_nil]
      rw [hcount, eq_comm, List.countP_eq_zero]
      intro ks hks
      obtain ⟨mask, -, rfl⟩ := List.mem_map.mp hks
      rw [decide_eq_true_eq, mem_setBits]
      exact fun h => hlt h.1
  obtain ⟨rows, hkeys, hcol⟩ := exists_table (masks.map setBits) c
    (fun ks h => by obtain ⟨mask, -, rfl⟩ := List.mem_map.mp h; exact nodup_setBits mask)
    (fun k => (hc k).trans (hcount k))
  obtain ⟨rs, htypes, hmasks, hcells, hids⟩ := exists_records s.types masks rows s.events hk
    (by simpa [masks, tallyOf] using hrows) hevents
    (fun mask h => by
      obtain ⟨row, hrow, rfl⟩ := List.mem_map.mp h
      exact hs.length_rowMask (List.mem_range.mp hrow)) hkeys
  have hcolumn : ∀ k, columnOf rs k = c k := fun k => by rw [columnOf, hcells, hcol]
  refine ⟨rs, htypes, flagsOf_eq_flags hs hmasks, ?_, hids, ?_, funext fun k => ?_⟩
  · rw [dataOf, concat_congr (d := cut sizes s.data) fun k hlt => ?_, concat_cut]
    · exact List.take_of_length_le hstart.ge
    · rw [hcolumn]; exact if_pos hlt
  · simpa [masks] using congrArg List.length hmasks
  · rw [hcolumn, hc]

/-! ### `map_sections` -/

theorem exists_header {buf : Bytes} (h : sizeofKrpHeader ≤ buf.length) :
    ∃ (h : KrpHeader) (rest : Bytes), buf = h.bytes ++ rest :=
  ⟨⟨buf.take sizeofKrpHeader, by rw [List.length_take]; omega⟩, buf.drop sizeofKrpHeader,
    (List.take_append_drop _ _).symm⟩

theorem validateHeader_append (h : KrpHeader) (rest : Bytes) : validateHeader (h.bytes ++ rest) =
    if h.num .magic ≠ krpMagic then .error (.error .badMagic)
    else if h.num .version ≠ krpCurrentVersion then .error (.error .badVersion)
    else .ok () := by
  have hs := h.size_eq
  unfold validateHeader
  rw [if_neg (by rw [List.length_append]; omega), readHeader_append, ok_bind]

/-- **`validate_header` accepts the buffers that begin with a valid header.** -/
theorem validateHeader_eq_ok {buf : Bytes} :
    validateHeader buf = .ok () ↔ ∃ h rest, buf = h.bytes ++ rest ∧ ValidHeader h := by
  constructor
  · intro hv
    have hlen : sizeofKrpHeader ≤ buf.length := by
      unfold validateHeader at hv
      split_ifs at hv with hlt
      exact not_lt.mp hlt
    obtain ⟨h, rest, rfl⟩ := exists_header hlen
    rw [validateHeader_append] at hv
    split_ifs at hv with h1 h2
    exact ⟨h, rest, rfl, not_not.mp h1, not_not.mp h2⟩
  · rintro ⟨h, rest, rfl, h1, h2⟩
    rw [validateHeader_append, if_neg (not_not.mpr h1), if_neg (not_not.mpr h2)]

theorem validateHeader_ne_oob (buf : Bytes) : validateHeader buf ≠ .error .oob := by
  unfold validateHeader
  split_ifs with hlt
  · simp
  · obtain ⟨h, rest, rfl⟩ := exists_header (not_lt.mp hlt)
    rw [readHeader_append, ok_bind]
    split_ifs <;> simp

/-- What `map_sections` checks once the header is known, up to the pass over the types. -/
structure Checked (h : KrpHeader) (body : Bytes) : Prop where
  total : totalSize h ≤ body.length
  flags : h.num .sizeFlags % (krpMaskBlocks * 8) = 0
  types : h.num .sizeTypes ≠ 0
  first : (sectionsAt h body).types.head? = some krpFrametypeKeyframe

theorem sectionsAt_append {h : KrpHeader} {rest body : Bytes} (hb : body = h.bytes ++ rest) :
    h.bytes ++ ((sectionsAt h body).types ++ (sectionsAt h body).flags ++
      (sectionsAt h body).data ++ (sectionsAt h body).events) = body.take (totalSize h) := by
  have h0 : body.take sizeofKrpHeader = h.bytes := by rw [hb, List.take_left' h.size_eq]
  simp only [sectionsAt, totalSize, List.take_add, h0, List.append_assoc]

section sectionsAt
variable {h : KrpHeader} {body : Bytes} (ht : totalSize h ≤ body.length)
include ht

theorem length_sectionsAt_types : (sectionsAt h body).types.length = h.num .sizeTypes := by
  unfold totalSize at ht
  simp only [sectionsAt, List.length_take, List.length_drop]
  omega

theorem length_sectionsAt_flags : (sectionsAt h body).flags.length = h.num .sizeFlags := by
  unfold totalSize at ht
  simp only [sectionsAt, List.length_take, List.length_drop]
  omega

theorem length_sectionsAt_data : (sectionsAt h body).data.length = h.num .sizeData := by
  unfold totalSize at ht
  simp only [sectionsAt, List.length_take, List.length_drop]
  omega

theorem length_sectionsAt_events : (sectionsAt h body).events.length = h.num .sizeEvents := by
  unfold totalSize at ht
  simp only [sectionsAt, List.length_take, List.length_drop]
  omega

theorem sectionsAt_shaped (hf : h.num .sizeFlags % (krpMaskBlocks * 8) = 0) :
    Shaped (sectionsAt h body) := by
  have hfl := length_sectionsAt_flags ht
  refine ⟨length_sectionsAt_types ht, ?_, ?_⟩
  · rw [hfl]
    simp only [sectionsAt, krpMaskBlocks] at hf ⊢
    omega
  · simp only [Sections.blockStreamSize, sectionsAt, krpMaskBlocks] at hf ⊢
    omega

end sectionsAt

/-- **What `map_sections` accepts.** -/
theorem mapSections_checked {h : KrpHeader} {rest body : Bytes} (hb : body = h.bytes ++ rest)
    (hv : ValidHeader h) {s : Sections} : mapSections body = .ok s ↔
      Checked h body ∧
      ∃ c, (List.range (h.num .sizeTypes)).foldlM (countType (sectionsAt h body))
          ⟨0, 0, fun _ => 0⟩ = .ok c ∧
        c.rows = (sectionsAt h body).numFrames ∧ c.events = h.num .sizeEvents ∧
        ((List.range sizeofKrpFrame).map c.colSizes).sum = h.num .sizeData ∧
        s = { sectionsAt h body with colSizes := c.colSizes } := by
  have hval : validateHeader body = .ok () := validateHeader_eq_ok.mpr ⟨h, rest, hb, hv⟩
  have hread : readHeader body = .ok h := by rw [hb, readHeader_append]
  unfold mapSections
  rw [hval, ok_bind, hread, ok_bind]
  constructor
  · intro hm
    split_ifs at hm with h1 h2 h3
    obtain ⟨first, hf, hm⟩ := bind_eq_ok.mp hm
    split_ifs at hm with h4
    obtain ⟨c, hc, hm⟩ := bind_eq_ok.mp hm
    split_ifs at hm with h5 h6 h7
    refine ⟨⟨not_lt.mp h1, not_not.mp h2, h3, ?_⟩, c, hc, not_not.mp h5, not_not.mp h6,
      not_not.mp h7, (Except.ok.inj hm).symm⟩
    rw [← not_not.mp h4]
    exact congrArg List.head? (readAt_eq_ok.mp hf)
  · rintro ⟨hck, c, hc, h5, h6, h7, rfl⟩
    have hf : readAt (sectionsAt h body).types 0 = .ok krpFrametypeKeyframe := by
      rw [readAt, ← List.head?_eq_getElem?, hck.first]
    rw [if_neg (not_lt.mpr hck.total), if_neg (not_not.mpr hck.flags)]
    simp only
    rw [if_neg hck.types, hf, ok_bind, if_neg (not_not.mpr rfl), hc, ok_bind,
      if_neg (not_not.mpr h5), if_neg (not_not.mpr h6), if_neg (not_not.mpr h7)]

theorem headerOf_eq {h : KrpHeader} {rs : List Record} (h1 : h.num .sizeTypes = rs.length)
    (h2 : h.num .sizeFlags = (flagsOf rs).length) (h3 : h.num .sizeData = (dataOf rs).length)
    (h4 : h.num .sizeEvents = (eventIds rs).length) : headerOf h rs = h := by
  rw [headerOf, ← h1, KrpHeader.setNum_num, ← h2, KrpHeader.setNum_num, ← h3,
    KrpHeader.setNum_num, ← h4, KrpHeader.setNum_num]

theorem headerOf_total (h : KrpHeader) {rs : List Record} (hf : Fits rs) :
    totalSize (headerOf h rs) = (krpzOf h rs).length := by
  simp only [totalSize, headerOf_sizeTypes h hf, headerOf_sizeFlags h hf, headerOf_sizeData h hf,
    headerOf_sizeEvents h hf, krpzOf, List.length_append, (headerOf h rs).size_eq, length_typesOf]
  omega

theorem sectionsAt_krpzOf (h : KrpHeader) {rs : List Record} (hf : Fits rs) (tail : Bytes) :
    sectionsAt (headerOf h rs) (krpzOf h rs ++ tail) =
      ⟨headerOf h rs, typesOf rs, flagsOf rs, dataOf rs, eventIds rs, (frames rs).length,
        fun _ => 0⟩ := by
  have e1 := headerOf_sizeTypes h hf
  have e2 := headerOf_sizeFlags h hf
  have e3 := headerOf_sizeData h hf
  have e4 := headerOf_sizeEvents h hf
  have hb : krpzOf h rs ++ tail = (headerOf h rs).bytes ++ (typesOf rs ++ (flagsOf rs ++
      (dataOf rs ++ (eventIds rs ++ tail)))) := by simp only [krpzOf, List.append_assoc]
  have d0 : (krpzOf h rs ++ tail).drop sizeofKrpHeader =
      typesOf rs ++ (flagsOf rs ++ (dataOf rs ++ (eventIds rs ++ tail))) := by
    rw [hb, List.drop_left' (headerOf h rs).size_eq]
  have d1 := drop_add_of_drop d0
  have d2 := drop_add_of_drop d1
  have d3 := drop_add_of_drop d2
  rw [length_typesOf] at d1 d2 d3
  simp only [sectionsAt, Sections.mk.injEq, true_and, e1, e2, e3, e4, d0, d1, d2, d3]
  refine ⟨List.take_left' (length_typesOf rs), List.take_left, List.take_left, List.take_left, ?_,
    trivial⟩
  rw [length_flagsOf, krpMaskBlocks]
  omega

theorem head?_typesOf {rs : List Record} :
    (typesOf rs).head? = some krpFrametypeKeyframe ↔ StartsWithKeyframe rs := by
  cases rs with
  | nil => simp [typesOf, StartsWithKeyframe]
  | cons r rs =>
    cases r with
    | event id => simp [typesOf, StartsWithKeyframe, Record.type]; decide
    | frame r =>
      rw [typesOf, List.map_cons, List.head?_cons, Option.some.injEq, Record.type,
        r.type_eq_keyframe]
      simp [StartsWithKeyframe]

/-- **`map_sections` accepts the bodies that begin with the columnar layout of records, the first of
them a keyframe, under a valid header, and returns the sections of that layout.** -/
theorem mapSections_eq_ok {body : Bytes} {s : Sections} : mapSections body = .ok s ↔
    ∃ h rs tail, ValidHeader h ∧ StartsWithKeyframe rs ∧ Fits rs ∧ body = krpzOf h rs ++ tail ∧
      s = sectionsOf h rs := by
  constructor
  · intro hm
    obtain ⟨⟨⟩, hval, -⟩ := bind_eq_ok.mp hm
    obtain ⟨h, rest, hb, hv⟩ := validateHeader_eq_ok.mp hval
    obtain ⟨hck, c, hc, hrows, hevents, hcols, rfl⟩ := (mapSections_checked hb hv).mp hm
    have hs := sectionsAt_shaped hck.total hck.flags
    have l1 := length_sectionsAt_types hck.total
    have l2 := length_sectionsAt_flags hck.total
    have l3 := length_sectionsAt_data hck.total
    have l4 := length_sectionsAt_events hck.total
    rw [← l1] at hc
    obtain ⟨rfl, hk⟩ := (countTypes_sat hs).of_ok hc
    obtain ⟨rs, h1, h2, h3, h4, h5, h6⟩ := exists_of_tally hs hk hrows (hevents.trans l4.symm)
      (hcols.trans l3.symm)
    have hn : ∀ m, h.num m < 2 ^ (8 * m.field.size) := fun m => by
      rw [Nat.pow_mul]; exact h.num_lt m
    rw [← h1, length_typesOf] at l1
    rw [← h2] at l2
    rw [← h3] at l3
    rw [← h4] at l4
    have hfit : Fits rs :=
      ⟨l1 ▸ hn .sizeTypes, l2 ▸ hn .sizeFlags, l3 ▸ hn .sizeData, l4 ▸ hn .sizeEvents⟩
    have hh : headerOf h rs = h := headerOf_eq l1.symm l2.symm l3.symm l4.symm
    refine ⟨h, rs, body.drop (totalSize h), hv, head?_typesOf.mp (h1 ▸ hck.first), hfit, ?_, ?_⟩
    · rw [krpzOf, hh, h1, h2, h3, h4, sectionsAt_append hb, List.take_append_drop]
    · simp only [sectionsOf, hh, h1, h2, h3, h4, h5, h6]
      rfl
  · rintro ⟨h, rs, tail, hv, hkey, hfit, rfl, rfl⟩
    have hb : krpzOf h rs ++ tail = (headerOf h rs).bytes ++
        (typesOf rs ++ flagsOf rs ++ dataOf rs ++ eventIds rs ++ tail) := by
      simp only [krpzOf, List.append_assoc]
    have hs := sectionsAt_krpzOf h hfit tail
    have htypes : (sectionsAt (headerOf h rs) (krpzOf h rs ++ tail)).types = typesOf rs :=
      congrArg Sections.types hs
    have htally : tallyOf (sectionsAt (headerOf h rs) (krpzOf h rs ++ tail)) (typesOf rs) =
        tallyOf (sectionsOf h rs) (typesOf rs) := by
      rw [hs]; exact tallyOf_colSizes (sectionsOf h rs) _ _
    have htotal : totalSize (headerOf h rs) ≤ (krpzOf h rs ++ tail).length := by
      rw [headerOf_total h hfit, List.length_append]; omega
    have hflags : (headerOf h rs).num .sizeFlags % (krpMaskBlocks * 8) = 0 := by
      rw [headerOf_sizeFlags h hfit, length_flagsOf, krpMaskBlocks]; omega
    have hrows : (sectionsAt (headerOf h rs) (krpzOf h rs ++ tail)).numFrames =
        (frames rs).length := congrArg Sections.numFrames hs
    refine (mapSections_checked hb ((headerOf_valid h).mpr hv)).mpr ⟨⟨htotal, hflags, ?_, ?_⟩,
      tallyOf (sectionsOf h rs) (typesOf rs), ?_, ?_, ?_, ?_, ?_⟩
    · obtain ⟨r, rs', rfl, -⟩ := hkey
      rw [headerOf_sizeTypes h hfit]
      simp
    · rw [htypes, head?_typesOf]; exact hkey
    · have h1 := countTypes_ok (sectionsAt_shaped htotal hflags)
      rw [htypes, length_typesOf, htally] at h1
      rw [headerOf_sizeTypes h hfit]
      refine h1 (fun type ht => ?_) ?_
      · obtain ⟨r, -, rfl⟩ := List.mem_map.mp ht
        exact Record_knownType r
      · rw [tallyOf_sectionsOf h hfit, hrows]
    · rw [tallyOf_sectionsOf h hfit, hrows]
    · rw [tallyOf_sectionsOf h hfit, headerOf_sizeEvents h hfit]
    · rw [tallyOf_sectionsOf h hfit, headerOf_sizeData h hfit, dataOf, length_concat, start]
    · rw [tallyOf_sectionsOf h hfit, hs]; rfl

/-- **`map_sections` reads inside its input.** -/
theorem mapSections_sat (body : Bytes) : Sat (mapSections body) (fun _ => True) (· ≠ .oob) := by
  unfold mapSections
  cases hval : validateHeader body with
  | error e =>
    rw [error_bind, sat_error]
    rintro rfl
    exact validateHeader_ne_oob body hval
  | ok u =>
    obtain ⟨h, rest, hb, -⟩ := validateHeader_eq_ok.mp hval
    have hread : readHeader body = .ok h := by rw [hb, readHeader_append]
    rw [ok_bind, hread, ok_bind]
    split_ifs with h1 h2 h3
    · simp
    · simp
    · simp
    · have hl := length_sectionsAt_types (not_lt.mp h1)
      have hsat := countTypes_sat (sectionsAt_shaped (not_lt.mp h1) (not_not.mp h2))
      rw [hl] at hsat
      simp only
      rw [readAt_of_lt (by rw [hl]; omega), ok_bind]
      split_ifs with h4
      · simp
      · refine sat_bind hsat fun c _ => ?_
        refine sat_ite (fun _ => sat_error.mpr (by simp)) fun _ => ?_
        refine sat_ite (fun _ => sat_error.mpr (by simp)) fun _ => ?_
        refine sat_ite (fun _ => sat_error.mpr (by simp)) fun _ => sat_ok.mpr trivial

theorem mapSections_ne_oob (body : Bytes) : mapSections body ≠ .error .oob :=
  fun hm => (mapSections_sat body).of_error hm rfl

end KzGlobal.Krp.Sections
