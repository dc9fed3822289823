import KzGlobal.Krp.Walk
import KzGlobal.Replay.Writer

/-! # The frame records of the writer

The writer writes a frame as a keyframe, with all mask bits set and all bytes, or as a delta against
the last frame: `deltaLoop` sets the bits of the bytes that differ and collects their differences
(`deltaLoop_spec`). Played back over a state that shows the last frame, the record shows the
frame (`shows_keyframe`, `shows_delta`). -/

namespace KzGlobal.Replay.Frames

open KzGlobal.Lib.Sparse KzGlobal.Krp.Format KzGlobal.Krp.Records KzGlobal.Krp.Walk
open KzGlobal.Replay.Writer

/-! ### The bytes of a frame -/

theorem map_byte (f : KrpFrame) : (List.range sizeofKrpFrame).map f.byte = f.bytes := by
  refine List.ext_getElem (by rw [List.length_map, List.length_range, f.size_eq]) fun i _ hi => ?_
  rw [List.getElem_map, List.getElem_range, KrpFrame.byte, List.getD_eq_getElem?_getD,
    List.getElem?_eq_getElem hi]
  rfl

/-- The bytes of a playback show a frame. -/
def Shows (b : ℕ → UInt8) (f : KrpFrame) : Prop := ∀ k < sizeofKrpFrame, b k = f.byte k

theorem Shows.ofFn_eq {b : ℕ → UInt8} {f : KrpFrame} (h : Shows b f) : KrpFrame.ofFn b = f := by
  have hb : (KrpFrame.ofFn b).bytes = f.bytes := by
    rw [← map_byte f]
    exact List.map_congr_left fun k hk => h k (List.mem_range.mp hk)
  cases f
  exact KrpFrame.mk.injEq .. ▸ hb

/-! ### The loop over the bytes of a delta -/

theorem maskBit_or {mask : Bytes} {i : ℕ} (hi : i / 8 < mask.length) (k : ℕ) :
    maskBit (mask.set (i / 8) (mask.getD (i / 8) 0 ||| UInt8.ofNat (2 ^ (i % 8)))) k =
      (maskBit mask k || decide (k = i)) := by
  have hlt : (2 : ℕ) ^ (i % 8) < 2 ^ 8 := Nat.pow_lt_pow_right (by omega) (by omega)
  unfold maskBit hasBit
  rw [List.getD_eq_getElem?_getD, List.getElem?_set]
  by_cases hk : i / 8 = k / 8
  · rw [if_pos hk, if_pos hi, Option.getD_some, UInt8.toNat_or, Nat.testBit_or, UInt8.toNat_ofNat',
      Nat.mod_eq_of_lt hlt, Nat.testBit_two_pow, hk]
    congr 1
    exact decide_eq_decide.mpr ⟨fun h => by omega, fun h => by rw [h]⟩
  · have hne : k ≠ i := fun h => hk (by rw [h])
    rw [if_neg hk, ← List.getD_eq_getElem?_getD, decide_eq_false hne, Bool.or_false]

theorem deltaLoop_succ (curr last : KrpFrame) (n : ℕ) : deltaLoop curr last (n + 1) =
    if diff curr last n ≠ 0 then
      ((deltaLoop curr last n).1.set (n / 8)
        ((deltaLoop curr last n).1.getD (n / 8) 0 ||| UInt8.ofNat (2 ^ (n % 8))),
        (deltaLoop curr last n).2 ++ [diff curr last n])
    else deltaLoop curr last n := by
  rw [deltaLoop, List.range_succ, List.foldl_append]
  rfl

/-- The bytes below `n` that differ. -/
def changed (curr last : KrpFrame) (n : ℕ) : List ℕ :=
  (List.range n).filter fun k => decide (diff curr last k ≠ 0)

theorem changed_succ (curr last : KrpFrame) (n : ℕ) : changed curr last (n + 1) =
    if diff curr last n ≠ 0 then changed curr last n ++ [n] else changed curr last n := by
  rw [changed, List.range_succ, List.filter_append, List.filter_singleton]
  by_cases h : diff curr last n ≠ 0
  · rw [if_pos h, decide_eq_true h]; rfl
  · rw [if_neg h, decide_eq_false h]; exact List.append_nil _

/-- **The mask and the buffer after the first `n` bytes.** -/
theorem deltaLoop_spec (curr last : KrpFrame) : ∀ n ≤ sizeofKrpFrame,
    (deltaLoop curr last n).1.length = sizeofKrpMask ∧
      (∀ k, maskBit (deltaLoop curr last n).1 k =
        (decide (k < n) && decide (diff curr last k ≠ 0))) ∧
      (deltaLoop curr last n).2 = (changed curr last n).map (diff curr last)
  | 0, _ => by
    refine ⟨List.length_replicate, fun k => ?_, rfl⟩
    have h0 : (List.replicate sizeofKrpMask (0 : UInt8)).getD (k / 8) 0 = 0 := by
      rw [List.getD_eq_getElem?_getD, List.getElem?_replicate]
      split_ifs <;> rfl
    simp only [deltaLoop, List.range_zero, List.foldl_nil, maskBit, hasBit, h0]
    simp
  | n + 1, hn => by
    obtain ⟨hl, hm, hb⟩ := deltaLoop_spec curr last n (by omega)
    have hlt : n / 8 < sizeofKrpMask := by
      unfold sizeofKrpFrame at hn; unfold sizeofKrpMask; omega
    rw [deltaLoop_succ, changed_succ]
    by_cases h0 : diff curr last n ≠ 0
    · rw [if_pos h0, if_pos h0]
      refine ⟨by rw [List.length_set]; exact hl, fun k => ?_, ?_⟩
      · rw [maskBit_or (by rw [hl]; exact hlt), hm]
        rcases Nat.lt_trichotomy k n with hk | rfl | hk
        · simp [hk, hk.ne, Nat.lt_succ_of_lt hk]
        · simp [h0]
        · simp [hk.not_gt, hk.ne', show ¬ k < n + 1 by omega]
      · rw [hb, List.map_append]; rfl
    · rw [if_neg h0, if_neg h0]
      refine ⟨hl, fun k => ?_, hb⟩
      rw [hm]
      rcases Nat.lt_trichotomy k n with hk | rfl | hk
      · simp [hk, Nat.lt_succ_of_lt hk]
      · simp [not_not.mp h0]
      · simp [hk.not_gt, show ¬ k < n + 1 by omega]

theorem length_deltaLoop (curr last : KrpFrame) :
    (deltaLoop curr last sizeofKrpFrame).1.length = sizeofKrpMask :=
  (deltaLoop_spec curr last sizeofKrpFrame le_rfl).1

theorem setBits_deltaLoop (curr last : KrpFrame) :
    setBits (deltaLoop curr last sizeofKrpFrame).1 = changed curr last sizeofKrpFrame := by
  refine List.filter_congr fun k hk => ?_
  rw [(deltaLoop_spec curr last sizeofKrpFrame le_rfl).2.1 k, decide_eq_true (List.mem_range.mp hk),
    Bool.true_and]

theorem deltaLoop_data (curr last : KrpFrame) : (deltaLoop curr last sizeofKrpFrame).2 =
    (setBits (deltaLoop curr last sizeofKrpFrame).1).map (diff curr last) := by
  rw [setBits_deltaLoop]
  exact (deltaLoop_spec curr last sizeofKrpFrame le_rfl).2.2

/-! ### The two kinds of record -/

theorem setBits_ones : setBits (List.replicate sizeofKrpMask 0xFF) = List.range sizeofKrpFrame := by
  decide

/-- A frame as a KEYFRAME record. -/
def keyframe (f : KrpFrame) : FrameRecord where
  key := true
  mask := List.replicate sizeofKrpMask 0xFF
  data := f.bytes
  mask_len := List.length_replicate
  data_len := by rw [setBits_ones, List.length_range, f.size_eq]

/-- A frame as a DELTA record against the last one. -/
def delta (curr last : KrpFrame) : FrameRecord where
  key := false
  mask := (deltaLoop curr last sizeofKrpFrame).1
  data := (deltaLoop curr last sizeofKrpFrame).2
  mask_len := length_deltaLoop curr last
  data_len := by rw [deltaLoop_data, List.length_map]

theorem foldl_applyByte (key : Bool) : ∀ {cells : List (ℕ × UInt8)} (b : ℕ → UInt8),
    (keys cells).Nodup → ∀ k, cells.foldl (fun b c => applyByte key b c.1 c.2) b k =
      match cell k cells with
      | [] => b k
      | v :: _ => if key then v else b k ^^^ v
  | [], b, _, k => rfl
  | c :: cells, b, hn, k => by
    rw [keys_cons, List.nodup_cons] at hn
    rw [List.foldl_cons, foldl_applyByte key _ hn.2, cell_cons]
    by_cases hk : c.1 = k
    · subst hk
      rw [cell_eq_nil hn.1, if_pos rfl]
      exact Function.update_self ..
    · rw [if_neg hk, applyByte, Function.update_of_ne (Ne.symm hk)]

/-- **Playing back a record whose data bytes are given by a function.** -/
theorem applyFrame_of_map {r : FrameRecord} {g : ℕ → UInt8} (hg : r.data = (setBits r.mask).map g)
    (b : ℕ → UInt8) (k : ℕ) : applyFrame b r k =
      if k ∈ setBits r.mask then (if r.key then g k else b k ^^^ g k) else b k := by
  have hc : r.cells = (setBits r.mask).map fun k => (k, g k) := by
    rw [FrameRecord.cells, hg]
    exact (List.zip_of_prod (by simp [Function.comp_def]) (by simp)).symm
  rw [applyFrame, foldl_applyByte r.key b r.nodup_keys]
  by_cases hk : k ∈ setBits r.mask
  · have hm : (k, g k) ∈ r.cells := by rw [hc]; exact List.mem_map_of_mem hk
    rw [cell_eq_singleton r.nodup_keys hm, if_pos hk]
  · rw [cell_eq_nil (by rw [r.keys_cells]; exact hk), if_neg hk]

/-- **A keyframe shows its frame, whatever was shown before.** -/
theorem shows_keyframe (b : ℕ → UInt8) (f : KrpFrame) : Shows (applyFrame b (keyframe f)) f := by
  intro k hk
  have hdata : (keyframe f).data = (setBits (keyframe f).mask).map f.byte := by
    rw [keyframe, setBits_ones, map_byte]
  have hmem : k ∈ setBits (keyframe f).mask := by
    rw [keyframe, setBits_ones]; exact List.mem_range.mpr hk
  rw [applyFrame_of_map hdata, if_pos hmem]
  rfl

/-- **A delta shows its frame where the last one was shown.** -/
theorem shows_delta {b : ℕ → UInt8} {last : KrpFrame} (hb : Shows b last) (curr : KrpFrame) :
    Shows (applyFrame b (delta curr last)) curr := by
  intro k hk
  have hmem : k ∈ setBits (delta curr last).mask ↔ diff curr last k ≠ 0 := by
    change k ∈ setBits (deltaLoop curr last sizeofKrpFrame).1 ↔ _
    rw [setBits_deltaLoop, changed, List.mem_filter, List.mem_range, decide_eq_true_eq]
    exact and_iff_right hk
  rw [applyFrame_of_map (deltaLoop_data curr last), hb k hk]
  split_ifs with hd hkey
  · cases hkey
  · rw [diff, UInt8.xor_comm (curr.byte k), ← UInt8.xor_assoc, UInt8.xor_self, UInt8.zero_xor]
  · rw [hmem, not_not] at hd
    exact (UInt8.xor_eq_zero_iff.mp hd).symm

end KzGlobal.Replay.Frames
