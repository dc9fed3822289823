import KzGlobal.Krp.Records

/-! # `build_krpz_body` on raw replays

The loop over the records of a raw replay reads one record a pass (`transposeRecord_eq_ok`), so
`build_krpz_body` succeeds exactly on the raw layouts and returns the columnar layout of the same
header and records (`buildKrpzBody_eq_ok`); it never reads outside its input
(`buildKrpzBody_ne_oob`). The two nested loops over a mask are one loop over the bytes the mask
selects (`transposeMask_eq`). -/

namespace KzGlobal.Krp.Compress

open KzGlobal.Lib.Loop KzGlobal.Lib.Packed KzGlobal.Lib.Sparse
open KzGlobal.Krp.Format KzGlobal.Krp.Codec KzGlobal.Krp.Records

/-! ### Reads -/

theorem readAt_of_drop {mem r : Bytes} {i : ℕ} {b : UInt8} (h : mem.drop i = b :: r) :
    readAt mem i = .ok b := by
  have : mem[i]? = some b := by rw [← List.head?_drop, h]; rfl
  rw [readAt, this]

theorem readAt_eq_ok {mem : Bytes} {i : ℕ} {b : UInt8} :
    readAt mem i = .ok b ↔ mem.drop i = b :: mem.drop (i + 1) := by
  refine ⟨fun h => ?_, readAt_of_drop⟩
  unfold readAt at h
  cases hm : mem[i]? with
  | none => rw [hm] at h; cases h
  | some b' =>
    rw [hm] at h
    obtain rfl : b' = b := by cases h; rfl
    obtain ⟨hi, rfl⟩ := List.getElem?_eq_some_iff.mp hm
    exact List.drop_eq_getElem_cons hi

theorem readAt_of_lt {mem : Bytes} {i : ℕ} (h : i < mem.length) : readAt mem i = .ok mem[i] := by
  rw [readAt, List.getElem?_eq_getElem h]

theorem memcpy_of_drop {mem v rest : Bytes} {i n : ℕ} (h : mem.drop i = v ++ rest)
    (hn : v.length = n) (h0 : 0 < n) : memcpy mem i n = .ok v := by
  have hl := congrArg List.length h
  rw [List.length_drop, List.length_append] at hl
  rw [memcpy, if_pos (by omega), h, ← hn, List.take_left]

theorem drop_add_of_drop {l v rest : Bytes} {i : ℕ} (h : l.drop i = v ++ rest) :
    l.drop (i + v.length) = rest := by
  rw [← List.drop_drop, h, List.drop_left]

theorem readHeader_append (h : KrpHeader) (rest : Bytes) :
    readHeader (h.bytes ++ rest) = .ok h := by
  have hs := h.size_eq
  unfold readHeader
  rw [dif_pos (by rw [List.length_append]; omega)]
  exact congrArg Except.ok (KrpHeader.ext (List.take_left' hs))

/-! ### The loops over a mask -/

/-- The data byte `k` of a frame is read and appended to its column. -/
def pushByte (krpr : Bytes) (c : Columns) (k : ℕ) : Result Columns :=
  if krpr.length ≤ c.ptr then .error (.error .truncated)
  else do
    let v ← readAt krpr c.ptr
    .ok { c with
      ptr := c.ptr + 1
      frameData := Function.update c.frameData k (c.frameData k ++ [v]) }

/-- What the inner loop does for byte `k` of the frame. -/
def transposeByte (krpr mask : Bytes) (c : Columns) (k : ℕ) : Result Columns :=
  if maskBit mask k then pushByte krpr c k else .ok c

theorem transposeBits_cons (krpr : Bytes) (m : UInt8) (bit : ℕ) (bits : List ℕ) (c : Columns)
    (byteIdx : ℕ) : transposeBits krpr m (bit :: bits) (c, byteIdx) =
      ((if hasBit m bit then pushByte krpr c byteIdx else .ok c) >>= fun c =>
        if sizeofKrpFrame ≤ byteIdx + 1 then .ok (c, byteIdx + 1)
        else transposeBits krpr m bits (c, byteIdx + 1)) := by
  rw [transposeBits]
  unfold pushByte
  by_cases hb : hasBit m bit = true
  · rw [if_pos hb, if_pos hb]
    by_cases hp : krpr.length ≤ c.ptr
    · rw [if_pos hp, if_pos hp]
    · rw [if_neg hp, if_neg hp, bind_assoc]
  · rw [if_neg hb, if_neg hb]

theorem transposeBits_eq (krpr mask : Bytes) {i : ℕ} (hi : 8 * i + 8 ≤ sizeofKrpFrame) :
    ∀ (n j : ℕ) (c : Columns), j + n = 8 →
      transposeBits krpr (mask.getD i 0) (List.range' j n) (c, 8 * i + j) =
        (fun c => (c, 8 * i + 8)) <$> (List.range' (8 * i + j) n).foldlM (transposeByte krpr mask) c
  | 0, j, c, hj => by
    obtain rfl : j = 8 := by omega
    rfl
  | n + 1, j, c, hj => by
    have hb : hasBit (mask.getD i 0) j = maskBit mask (8 * i + j) := by
      unfold maskBit
      rw [show (8 * i + j) / 8 = i by omega, show (8 * i + j) % 8 = j by omega]
    rw [List.range'_succ, List.range'_succ, transposeBits_cons, List.foldlM_cons, hb]
    change (transposeByte krpr mask c (8 * i + j) >>= _) = _
    cases transposeByte krpr mask c (8 * i + j) with
    | error e => rfl
    | ok c' =>
      simp only [ok_bind]
      split_ifs with hlast
      -- the early break comes after the last bit of the last byte only
      · obtain rfl : n = 0 := by omega
        obtain rfl : j = 7 := by omega
        rfl
      · exact transposeBits_eq krpr mask hi n (j + 1) c' (by omega)

theorem transposeMask_eq_range (krpr mask : Bytes) :
    ∀ (n i : ℕ) (c : Columns), i + n = sizeofKrpMask → 8 * i ≤ sizeofKrpFrame →
      transposeMask krpr mask (List.range' i n) (c, 8 * i) =
        (fun c => (c, sizeofKrpFrame)) <$>
          (List.range' (8 * i) (sizeofKrpFrame - 8 * i)).foldlM (transposeByte krpr mask) c
  | 0, i, c, hi, hle => by unfold sizeofKrpMask at hi; unfold sizeofKrpFrame at hle; omega
  | n + 1, i, c, hi, hle => by
    rw [List.range'_succ, transposeMask]
    split_ifs with hlt
    · have h8 : 8 * i + 8 ≤ sizeofKrpFrame := by unfold sizeofKrpFrame at hlt ⊢; omega
      have hr : List.range' (8 * i) (sizeofKrpFrame - 8 * i) =
          List.range' (8 * i) 8 ++ List.range' (8 * (i + 1)) (sizeofKrpFrame - 8 * (i + 1)) := by
        rw [show 8 * (i + 1) = 8 * i + 1 * 8 by ring, List.range'_append]
        congr 1
        omega
      have hb := transposeBits_eq krpr mask h8 8 0 c rfl
      rw [Nat.add_zero, ← List.range_eq_range'] at hb
      rw [hb, hr, List.foldlM_append]
      cases (List.range' (8 * i) 8).foldlM (transposeByte krpr mask) c with
      | error e => rfl
      | ok c' =>
        simp only [map_ok, ok_bind]
        exact transposeMask_eq_range krpr mask n (i + 1) c' (by omega) (by omega)
    · have he : 8 * i = sizeofKrpFrame := le_antisymm hle (not_lt.mp hlt)
      rw [he, Nat.sub_self]
      rfl

/-- **The nested loops over a mask read the data bytes of the frame in increasing order.** -/
theorem transposeMask_eq (krpr mask : Bytes) (c : Columns) :
    transposeMask krpr mask (List.range sizeofKrpMask) (c, 0) =
      (fun c => (c, sizeofKrpFrame)) <$> (setBits mask).foldlM (pushByte krpr) c := by
  have h := transposeMask_eq_range krpr mask sizeofKrpMask 0 c (by omega) (by omega)
  rw [Nat.mul_zero, Nat.sub_zero, ← List.range_eq_range', ← List.range_eq_range'] at h
  have hs := foldlM_skip (f := transposeByte krpr mask) (g := pushByte krpr) (maskBit mask)
    (fun _ _ => rfl) (List.range sizeofKrpFrame) c
  rw [h, hs, setBits]

/-! ### One record -/

/-- The columns after the data bytes of a row. -/
def pushCells (c : Columns) (cells : List (ℕ × UInt8)) : Columns :=
  { c with
    ptr := c.ptr + cells.length
    frameData := fun k => c.frameData k ++ cell k cells }

theorem pushBytes_eq_ok {krpr : Bytes} : ∀ {ks : List ℕ} {c c' : Columns},
    ks.foldlM (pushByte krpr) c = .ok c' ↔
      ∃ ds rest, ds.length = ks.length ∧ krpr.drop c.ptr = ds ++ rest ∧ c' = pushCells c (ks.zip ds)
  | [], c, c' => by
    have hc : pushCells c [] = c := by simp [pushCells, cell]
    constructor
    · intro h
      obtain rfl : c = c' := by simpa [pure_eq_ok] using h
      exact ⟨[], krpr.drop c.ptr, rfl, rfl, hc.symm⟩
    · rintro ⟨ds, rest, hl, -, rfl⟩
      obtain rfl : ds = [] := by simpa using hl
      simp [hc, pure_eq_ok]
  | k :: ks, c, c' => by
    rw [List.foldlM_cons, bind_eq_ok]
    have hcells : ∀ v ds, pushCells { c with
        ptr := c.ptr + 1, frameData := Function.update c.frameData k (c.frameData k ++ [v]) }
        (ks.zip ds) = pushCells c ((k :: ks).zip (v :: ds)) := by
      intro v ds
      unfold pushCells
      simp only [List.zip_cons_cons, List.length_cons, Columns.mk.injEq, true_and, and_true]
      refine ⟨by omega, funext fun k' => ?_⟩
      rw [cell_cons]
      by_cases hk : k = k'
      · subst hk; simp
      · simp [hk, Function.update_of_ne (Ne.symm hk)]
    constructor
    · rintro ⟨c₁, h1, h2⟩
      unfold pushByte at h1
      split_ifs at h1 with hlt
      obtain ⟨v, hv, h1⟩ := bind_eq_ok.mp h1
      cases h1
      obtain ⟨ds, rest, hl, hd, rfl⟩ := pushBytes_eq_ok.mp h2
      refine ⟨v :: ds, rest, by simp [hl], ?_, hcells v ds⟩
      rw [readAt_eq_ok.mp hv, hd, List.cons_append]
    · rintro ⟨ds, rest, hl, hd, rfl⟩
      obtain ⟨v, ds, rfl⟩ : ∃ v ds', ds = v :: ds' :=
        List.exists_cons_of_ne_nil fun h0 => by rw [h0] at hl; simp at hl
      have hv := readAt_of_drop hd
      have hlt : ¬ krpr.length ≤ c.ptr := fun hle => by
        rw [List.drop_eq_nil_of_le hle] at hd; cases hd
      refine ⟨_, by unfold pushByte; rw [if_neg hlt, hv, ok_bind], ?_⟩
      refine pushBytes_eq_ok.mpr ⟨ds, rest, by simpa using hl, ?_, (hcells v ds).symm⟩
      exact drop_add_of_drop (v := [v]) hd

theorem pushBytes_ne_oob {krpr : Bytes} : ∀ (ks : List ℕ) (c : Columns),
    Sat (ks.foldlM (pushByte krpr) c) (fun _ => True) (· ≠ .oob)
  | [], _ => sat_ok.mpr trivial
  | k :: ks, c => by
    rw [List.foldlM_cons]
    refine sat_bind (Q := fun _ => True) ?_ fun c' _ => pushBytes_ne_oob ks c'
    unfold pushByte
    split_ifs with h
    · simp
    · rw [readAt_of_lt (not_le.mp h), ok_bind, sat_ok]; trivial

/-- The columns after one more record. -/
def push (c : Columns) : Record → Columns
  | .event id => { c with
      ptr := c.ptr + 2
      frameType := c.frameType ++ [krpFrametypeEvent]
      frameEvents := c.frameEvents ++ [id] }
  | .frame r => { c with
      ptr := c.ptr + 1 + sizeofKrpMask + r.data.length
      frameType := c.frameType ++ [r.type]
      frameData := fun k => c.frameData k ++ cell k r.cells
      frameFlags := fun block => c.frameFlags block ++ r.maskBlock block }

/-- The columns after the type and mask of a frame row. -/
def pushMask (c : Columns) (type : UInt8) (mask : Bytes) : Columns :=
  { c with
    ptr := c.ptr + 1 + sizeofKrpMask
    frameType := c.frameType ++ [type]
    frameFlags := fun block => c.frameFlags block ++ (mask.drop (block * 8)).take 8 }

theorem push_frame (c : Columns) (r : FrameRecord) :
    push c (.frame r) = pushCells (pushMask c r.type r.mask) r.cells := by
  simp only [push, pushCells, pushMask, FrameRecord.maskBlock, r.length_cells]

theorem transposeRecord_frame {krpr mask rest : Bytes} {c : Columns} {type : UInt8}
    (ht : type = krpFrametypeDelta ∨ type = krpFrametypeKeyframe)
    (hd : krpr.drop c.ptr = type :: (mask ++ rest)) (hm : mask.length = sizeofKrpMask) :
    transposeRecord krpr c = (setBits mask).foldlM (pushByte krpr) (pushMask c type mask) := by
  have hd' : krpr.drop (c.ptr + 1) = mask ++ rest := drop_add_of_drop (v := [type]) hd
  have hl := congrArg List.length hd'
  rw [List.length_drop, List.length_append, hm] at hl
  have hlen : ¬ krpr.length < c.ptr + 1 + sizeofKrpMask := by unfold sizeofKrpMask at hl ⊢; omega
  unfold transposeRecord
  rw [readAt_of_drop hd, ok_bind, if_pos ht, if_neg hlen,
    memcpy_of_drop hd' hm (by decide), ok_bind]
  change (transposeMask krpr mask (List.range sizeofKrpMask) (pushMask c type mask, 0) >>=
    fun st => Except.ok st.1) = _
  rw [transposeMask_eq]
  cases (setBits mask).foldlM (pushByte krpr) (pushMask c type mask) <;> rfl

/-- **One pass reads one record.** -/
theorem transposeRecord_eq_ok {krpr : Bytes} {c c' : Columns} :
    transposeRecord krpr c = .ok c' ↔
      ∃ r rest, krpr.drop c.ptr = Record.encode r ++ rest ∧ c' = push c r := by
  constructor
  · intro h
    obtain ⟨type, ht, -⟩ := bind_eq_ok.mp h
    have hd := readAt_eq_ok.mp ht
    by_cases hf : type = krpFrametypeDelta ∨ type = krpFrametypeKeyframe
    · by_cases hlen : krpr.length < c.ptr + 1 + sizeofKrpMask
      · unfold transposeRecord at h
        rw [ht, ok_bind, if_pos hf, if_pos hlen] at h
        cases h
      have hm : ((krpr.drop (c.ptr + 1)).take sizeofKrpMask).length = sizeofKrpMask := by
        rw [List.length_take, List.length_drop]; omega
      rw [← List.take_append_drop sizeofKrpMask (krpr.drop (c.ptr + 1))] at hd
      rw [transposeRecord_frame hf hd hm] at h
      obtain ⟨ds, rest, hl, hds, rfl⟩ := pushBytes_eq_ok.mp h
      have hr : ∃ r : FrameRecord, r.type = type ∧
          r.mask = (krpr.drop (c.ptr + 1)).take sizeofKrpMask ∧ r.data = ds := by
        refine ⟨⟨decide (type = krpFrametypeKeyframe), _, ds, hm, hl⟩, ?_, rfl, rfl⟩
        unfold FrameRecord.type
        rcases hf with rfl | rfl
        · rfl
        · rfl
      obtain ⟨r, hrt, hrm, hrd⟩ := hr
      refine ⟨.frame r, rest, ?_, ?_⟩
      · have hds' : (krpr.drop (c.ptr + 1)).drop sizeofKrpMask = ds ++ rest := by
          rw [List.drop_drop]; exact hds
        rw [Record.encode, hrt, hrm, hrd, hd, hds', List.cons_append, List.append_assoc]
      · rw [push_frame, FrameRecord.cells, hrt, hrm, hrd]
    · unfold transposeRecord at h
      rw [ht, ok_bind, if_neg hf] at h
      split_ifs at h with he hlen
      obtain ⟨e, hev, h⟩ := bind_eq_ok.mp h
      have hde := readAt_eq_ok.mp hev
      cases h
      subst he
      refine ⟨.event e, krpr.drop (c.ptr + 1 + 1), ?_, rfl⟩
      rw [hd]
      exact congrArg (krpFrametypeEvent :: ·) hde
  · rintro ⟨r, rest, hd, rfl⟩
    cases r with
    | event id =>
      have hd' : krpr.drop (c.ptr + 1) = id :: rest :=
        drop_add_of_drop (v := [krpFrametypeEvent]) hd
      have hlen : ¬ krpr.length ≤ c.ptr + 1 := fun hle => by
        rw [List.drop_eq_nil_of_le hle] at hd'; cases hd'
      unfold transposeRecord
      rw [readAt_of_drop (r := id :: rest) hd, ok_bind, if_neg (by decide), if_pos rfl,
        if_neg hlen, readAt_of_drop hd', ok_bind]
      rfl
    | frame r =>
      have hd' : krpr.drop c.ptr = r.type :: (r.mask ++ (r.data ++ rest)) := by
        rw [hd]; simp [Record.encode]
      rw [transposeRecord_frame r.type_mem hd' r.mask_len, push_frame]
      refine pushBytes_eq_ok.mpr ⟨r.data, rest, r.data_len, ?_, rfl⟩
      have := drop_add_of_drop (v := r.type :: r.mask) hd'
      rw [List.length_cons, r.mask_len] at this
      rw [← this]
      congr 1

theorem transposeRecord_ne_oob {krpr : Bytes} {c : Columns} (h : c.ptr < krpr.length) :
    Sat (transposeRecord krpr c) (fun _ => True) (· ≠ .oob) := by
  by_cases hf : krpr[c.ptr] = krpFrametypeDelta ∨ krpr[c.ptr] = krpFrametypeKeyframe
  · by_cases hlen : krpr.length < c.ptr + 1 + sizeofKrpMask
    · unfold transposeRecord
      rw [readAt_of_lt h, ok_bind, if_pos hf, if_pos hlen]
      simp
    · have hd := List.drop_eq_getElem_cons h
      rw [← List.take_append_drop sizeofKrpMask (krpr.drop (c.ptr + 1))] at hd
      rw [transposeRecord_frame hf hd (by rw [List.length_take, List.length_drop]; omega)]
      exact pushBytes_ne_oob _ _
  · unfold transposeRecord
    rw [readAt_of_lt h, ok_bind, if_neg hf]
    split_ifs with he hlen
    · simp
    · rw [readAt_of_lt (not_le.mp hlen), ok_bind, sat_ok]; trivial
    · simp

/-! ### All records -/

theorem Record_length_encode_pos (r : Record) : 0 < r.encode.length := by
  cases r <;> simp [Record.encode]

theorem push_ptr (c : Columns) (r : Record) : (push c r).ptr = c.ptr + r.encode.length := by
  cases r with
  | event id => rfl
  | frame r =>
    simp only [push, Record.encode, List.length_cons, List.length_append, r.mask_len]; omega

/-- **The loop reads all records.** -/
theorem transposeLoop_eq_ok {krpr : Bytes} : ∀ {n : ℕ} {c c' : Columns}, c.ptr ≤ krpr.length →
    krpr.length - c.ptr ≤ n →
      (transposeLoop krpr n c = .ok c' ↔
        ∃ rs, krpr.drop c.ptr = encodeAll rs ∧ c' = rs.foldl push c)
  | 0, c, c', hc, hn => by
    have hnil : krpr.drop c.ptr = [] := List.drop_eq_nil_of_le (by omega)
    rw [transposeLoop]
    constructor
    · intro h
      cases h
      exact ⟨[], hnil, rfl⟩
    · rintro ⟨rs, hrs, rfl⟩
      cases rs with
      | nil => rfl
      | cons r rs =>
        have := Record_length_encode_pos r
        have hl := congrArg List.length (hnil.symm.trans hrs)
        rw [encodeAll_cons, List.length_append, List.length_nil] at hl
        omega
  | n + 1, c, c', hc, hn => by
    rw [transposeLoop]
    split_ifs with hlt
    · rw [bind_eq_ok]
      constructor
      · rintro ⟨c₁, h1, h2⟩
        obtain ⟨r, rest, hd, rfl⟩ := transposeRecord_eq_ok.mp h1
        have hpos := Record_length_encode_pos r
        have hl := congrArg List.length hd
        rw [List.length_drop, List.length_append] at hl
        have hp := push_ptr c r
        obtain ⟨rs, hrs, rfl⟩ := (transposeLoop_eq_ok (by omega) (by omega)).mp h2
        refine ⟨r :: rs, ?_, rfl⟩
        rw [encodeAll_cons, ← hrs, hp, drop_add_of_drop hd, hd]
      · rintro ⟨rs, hrs, rfl⟩
        cases rs with
        | nil => exact absurd (congrArg List.length hrs) (by simp [encodeAll]; omega)
        | cons r rs =>
          rw [encodeAll_cons] at hrs
          have hpos := Record_length_encode_pos r
          have hl := congrArg List.length hrs
          rw [List.length_drop, List.length_append] at hl
          have hp := push_ptr c r
          refine ⟨push c r, transposeRecord_eq_ok.mpr ⟨r, _, hrs, rfl⟩, ?_⟩
          refine (transposeLoop_eq_ok (by omega) (by omega)).mpr ⟨rs, ?_, rfl⟩
          rw [hp, drop_add_of_drop hrs]
    · have hnil : krpr.drop c.ptr = [] := List.drop_eq_nil_of_le (not_lt.mp hlt)
      rw [hnil]
      constructor
      · intro h
        cases h
        exact ⟨[], rfl, rfl⟩
      · rintro ⟨rs, hrs, rfl⟩
        cases rs with
        | nil => rfl
        | cons r rs =>
          have := Record_length_encode_pos r
          have hl := congrArg List.length hrs
          rw [encodeAll_cons, List.length_append, List.length_nil] at hl
          omega

theorem transposeLoop_ne_oob {krpr : Bytes} : ∀ (n : ℕ) (c : Columns),
    Sat (transposeLoop krpr n c) (fun _ => True) (· ≠ .oob)
  | 0, _ => sat_ok.mpr trivial
  | n + 1, c => by
    rw [transposeLoop]
    split_ifs with hlt
    · exact sat_bind (transposeRecord_ne_oob hlt) fun c' _ => transposeLoop_ne_oob n c'
    · exact sat_ok.mpr trivial

theorem foldl_push : ∀ (rs : List Record) (c : Columns), rs.foldl push c =
    ⟨c.ptr + (encodeAll rs).length, c.frameType ++ typesOf rs,
      fun k => c.frameData k ++ columnOf rs k, c.frameEvents ++ eventIds rs,
      fun block => c.frameFlags block ++ blockOf rs block⟩
  | [], c => by simp [encodeAll, typesOf, columnOf, frames, eventIds, blockOf]
  | r :: rs, c => by
    rw [List.foldl_cons, foldl_push rs, push_ptr]
    cases r with
    | event id =>
      simp [push, encodeAll_cons, typesOf, Record.type, columnOf, frames, eventIds, blockOf,
        Nat.add_assoc]
    | frame r =>
      simp [push, encodeAll_cons, typesOf, Record.type, columnOf, frames, eventIds, blockOf,
        Nat.add_assoc]

/-- **`build_krpz_body` turns raw layouts into columnar ones, and nothing else.** -/
theorem buildKrpzBody_eq_ok {krpr out : Bytes} (hlen : sizeofKrpHeader ≤ krpr.length) :
    buildKrpzBody krpr = .ok out ↔ ∃ h rs, krpr = krprOf h rs ∧ out = krpzOf h rs := by
  obtain ⟨h, body, rfl⟩ : ∃ (h : KrpHeader) (body : Bytes), krpr = h.bytes ++ body :=
    ⟨⟨krpr.take sizeofKrpHeader, by rw [List.length_take]; omega⟩, krpr.drop sizeofKrpHeader,
      (List.take_append_drop _ _).symm⟩
  have hdrop : (h.bytes ++ body).drop sizeofKrpHeader = body := List.drop_left' h.size_eq
  have hout : ∀ rs : List Record, (Columns.header (rs.foldl push
      ⟨sizeofKrpHeader, [], fun _ => [], [], fun _ => []⟩) h).bytes ++ (rs.foldl push
      ⟨sizeofKrpHeader, [], fun _ => [], [], fun _ => []⟩).body = krpzOf h rs := by
    intro rs
    rw [foldl_push, krpzOf, headerOf]
    simp only [Columns.header, Columns.body, List.nil_append, length_typesOf]
    rw [flagsOf, dataOf, concat, List.length_flatMap, List.length_flatMap]
  unfold buildKrpzBody
  rw [bind_eq_ok, readHeader_append]
  constructor
  · rintro ⟨c, hc, h2⟩
    obtain ⟨rs, hrs, rfl⟩ := (transposeLoop_eq_ok hlen (by omega)).mp hc
    cases h2
    refine ⟨h, rs, ?_, hout rs⟩
    rw [krprOf, ← hrs, hdrop]
  · rintro ⟨h', rs, hk, rfl⟩
    obtain ⟨hb, rfl⟩ := List.append_inj hk (by rw [h.size_eq, h'.size_eq])
    obtain rfl := KrpHeader.ext hb
    refine ⟨_, (transposeLoop_eq_ok hlen (by omega)).mpr ⟨rs, hdrop, rfl⟩, ?_⟩
    rw [ok_bind, hout]

/-- **`build_krpz_body` reads inside its input.** -/
theorem buildKrpzBody_ne_oob {krpr : Bytes} (hlen : sizeofKrpHeader ≤ krpr.length) :
    buildKrpzBody krpr ≠ .error .oob := by
  have h : Sat (buildKrpzBody krpr) (fun _ => True) (· ≠ .oob) := by
    refine sat_bind (transposeLoop_ne_oob _ _) fun c _ => ?_
    unfold readHeader
    rw [dif_pos hlen, ok_bind, sat_ok]
    trivial
  intro he
  exact h.of_error he rfl

end KzGlobal.Krp.Compress
