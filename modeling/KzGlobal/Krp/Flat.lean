import KzGlobal.Krp.Roundtrip

/-! # The raw stream read record by record

What the format document says of a `.krpr`: after the header, records that begin with their type; an
event has its id, and a frame a mask and a data byte for each byte of the frame that the mask
selects, lowest first, which a keyframe copies and a delta XORs into the frame before
(`decodeKrpr`). On the output of `build_krpr` this gives what `for_each_record` reports of the
sections (`decoders_agree`). -/

namespace KzGlobal.Krp.Flat

open KzGlobal.Lib.Loop KzGlobal.Lib.Sparse
open KzGlobal.Krp.Format KzGlobal.Krp.Codec KzGlobal.Krp.Records KzGlobal.Krp.Sections
open KzGlobal.Krp.Walk KzGlobal.Krp.Roundtrip

/-! ### The decoder -/

/-- The frame so far and what is left of the stream. -/
abbrev Decoder := (ℕ → UInt8) × Bytes

/-- The data byte of byte `i` of the frame. -/
def decodeData (key : Bool) (i : ℕ) : Decoder → Result Decoder
  | (_, []) => .error (.error .truncated)
  | (dst, data :: rest) =>
    .ok (Function.update dst i (if key then data else dst i ^^^ data), rest)

/-- The bytes of a frame whose mask bits are set, in order. -/
def decodeMask (key : Bool) (mask : Bytes) (d : Decoder) : Result Decoder :=
  (List.range sizeofKrpFrame).foldlM
    (fun d i => if hasBit (mask.getD (i / 8) 0) (i % 8) then decodeData key i d else .ok d) d

/-- An event's id. -/
def decodeEvent (t : ℕ) : Decoder → Result (Call × Decoder)
  | (_, []) => .error (.error .truncated)
  | (dst, id :: rest) => .ok (.onEvent t id, (dst, rest))

/-- A frame's mask and data. -/
def decodeFrame (t : ℕ) (type : UInt8) (d : Decoder) : Result (Call × Decoder) :=
  if d.2.length < sizeofKrpMask then .error (.error .truncated)
  else do
    let d ← decodeMask (type = krpFrametypeKeyframe) (d.2.take sizeofKrpMask)
      (d.1, d.2.drop sizeofKrpMask)
    .ok (.onFrame t type (.ofFn d.1), d)

/-- The record at the beginning of a stream. -/
def decodeRecord (t : ℕ) : Decoder → Result (Call × Decoder)
  | (_, []) => .error (.error .truncated)
  | (dst, type :: rest) =>
    if type = krpFrametypeEvent then decodeEvent t (dst, rest)
    else if type = krpFrametypeDelta ∨ type = krpFrametypeKeyframe then
      decodeFrame t type (dst, rest)
    else .error (.error .corruptSections)

/-- The records of a stream, `n` at most, numbered from `t` on. -/
def decodeRecords : ℕ → ℕ → Decoder → Result (List Call)
  | 0, _, d => if d.2 = [] then .ok [] else .error (.error .truncated)
  | n + 1, t, d =>
    if d.2 = [] then .ok []
    else do
      let (call, d) ← decodeRecord t d
      (call :: ·) <$> decodeRecords n (t + 1) d

/-- A raw replay, from an all-zero frame. It has no more records than bytes. -/
def decodeKrpr (krpr : Bytes) : Result (List Call) :=
  decodeRecords krpr.length 0 (fun _ => 0, krpr.drop sizeofKrpHeader)

/-! ### The two decoders -/

theorem foldlM_decodeData (key : Bool) : ∀ (cells : List (ℕ × UInt8)) (dst : ℕ → UInt8)
    (rest : Bytes), (keys cells).foldlM (fun d i => decodeData key i d)
        (dst, cells.map Prod.snd ++ rest) =
      .ok (cells.foldl (fun b c => applyByte key b c.1 c.2) dst, rest)
  | [], _, _ => rfl
  | c :: cells, dst, rest => by
    rw [keys_cons, List.foldlM_cons, List.map_cons, List.cons_append, decodeData, ok_bind,
      foldlM_decodeData key cells]
    rfl

/-- **A frame record.** -/
theorem decodeMask_eq (r : FrameRecord) (dst : ℕ → UInt8) (rest : Bytes) :
    decodeMask r.key r.mask (dst, r.data ++ rest) = .ok (applyFrame dst r, rest) := by
  have hskip : decodeMask r.key r.mask (dst, r.data ++ rest) =
      (setBits r.mask).foldlM (fun d i => decodeData r.key i d) (dst, r.data ++ rest) :=
    foldlM_skip (maskBit r.mask) (fun _ _ => rfl) _ _
  rw [hskip, ← r.keys_cells, ← map_snd_cells r, foldlM_decodeData, applyFrame]

theorem decodeRecord_event (t : ℕ) (id : UInt8) (dst : ℕ → UInt8) (rest : Bytes) :
    decodeRecord t (dst, (Record.event id).encode ++ rest) = .ok (.onEvent t id, (dst, rest)) := by
  rw [Record.encode, List.cons_append, decodeRecord, if_pos rfl]
  rfl

theorem decodeRecord_frame (t : ℕ) (r : FrameRecord) (dst : ℕ → UInt8) (rest : Bytes) :
    decodeRecord t (dst, (Record.frame r).encode ++ rest) =
      .ok (.onFrame t r.type (.ofFn (applyFrame dst r)), (applyFrame dst r, rest)) := by
  have hlen : ¬ (r.mask ++ (r.data ++ rest)).length < sizeofKrpMask := by
    rw [List.length_append, r.mask_len]
    omega
  have hkey : decide (r.type = krpFrametypeKeyframe) = r.key := by
    rw [Bool.eq_iff_iff, decide_eq_true_iff, r.type_eq_keyframe]
  rw [Record.encode, List.cons_append, decodeRecord, if_neg r.type_ne_event, if_pos r.type_mem,
    List.append_assoc, decodeFrame]
  dsimp only
  rw [if_neg hlen, ← r.mask_len, List.take_left, List.drop_left, hkey, decodeMask_eq, ok_bind]

theorem encode_ne_nil (r : Record) (rest : Bytes) : r.encode ++ rest ≠ [] := by
  cases r <;> exact List.cons_ne_nil _ _

/-- **The records of a stream** play as they were written. -/
theorem decodeRecords_encodeAll : ∀ (rs : List Record) (n t : ℕ) (dst : ℕ → UInt8),
    rs.length ≤ n → decodeRecords n t (dst, encodeAll rs) = .ok (playback dst t rs)
  | [], n, t, dst, _ => by
    cases n <;> rfl
  | r :: rs, 0, t, dst, h => absurd h (Nat.not_succ_le_zero _)
  | .event id :: rs, n + 1, t, dst, h => by
    rw [encodeAll_cons, decodeRecords, if_neg (encode_ne_nil _ _), decodeRecord_event, ok_bind]
    dsimp only
    rw [decodeRecords_encodeAll rs n (t + 1) dst (Nat.le_of_succ_le_succ h), map_ok, playback]
  | .frame r :: rs, n + 1, t, dst, h => by
    rw [encodeAll_cons, decodeRecords, if_neg (encode_ne_nil _ _), decodeRecord_frame, ok_bind]
    dsimp only
    rw [decodeRecords_encodeAll rs n (t + 1) _ (Nat.le_of_succ_le_succ h), map_ok, playback]

theorem decodeKrpr_krprOf (h : KrpHeader) (rs : List Record) :
    decodeKrpr (krprOf h rs) = .ok (playback (fun _ => 0) 0 rs) := by
  have hdrop : (krprOf h rs).drop sizeofKrpHeader = encodeAll rs := by
    rw [krprOf, ← h.size_eq, List.drop_left]
  rw [decodeKrpr, hdrop]
  refine decodeRecords_encodeAll rs _ _ _ ?_
  rw [krprOf, List.length_append, length_encodeAll]
  omega

/-- **Two ways of decoding agree**: the walk over the sections of an accepted body, and the raw
replay made of them, read record by record. -/
theorem decoders_agree {body : Bytes} {s : Sections} (hm : mapSections body = .ok s) :
    ∃ krpr calls, buildKrpr s = .ok krpr ∧ forEachRecord s = .ok calls ∧
      decodeKrpr krpr = .ok calls := by
  obtain ⟨h, rs, tail, -, -, hfit, -, rfl⟩ := mapSections_eq_ok.mp hm
  exact ⟨_, _, buildKrpr_sectionsOf h hfit, forEachRecord_sectionsOf h hfit,
    decodeKrpr_krprOf (clearSizes h) rs⟩

theorem decoders_agree_sample : ∃ krpr calls,
    buildKrpr (sectionsOf sampleHeader sampleRecords) = .ok krpr ∧
      forEachRecord (sectionsOf sampleHeader sampleRecords) = .ok calls ∧
      decodeKrpr krpr = .ok calls := by
  have hfit : Fits sampleRecords :=
    fits_of_length (h := sampleHeader) (by rw [length_krprOf_sample]; decide)
  exact decoders_agree (mapSections_krpzOf sampleHeader_valid sampleRecords_keyframe hfit)

end KzGlobal.Krp.Flat
