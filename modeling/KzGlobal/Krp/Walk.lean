import KzGlobal.Krp.Sections

/-! # The walkers over the sections of a body

`build_krpr` and `for_each_record` walk the frame types with a cursor in each of the 112 columns and
one in the events. On the sections of a columnar layout the state after the records `pre` is known:
the cursor of column `k` stands `(columnOf pre k).length` past the column's beginning. So one pass
reads the record that comes next (`rawRecord_eq`, `walkRecord_eq`), `build_krpr` writes the raw
layout again (`rawWalk_eq`), and the calls of `for_each_record` are `playback`: the events, and the
frames rebuilt from the data bytes (`recordWalk_eq`). -/

namespace KzGlobal.Krp.Walk

open KzGlobal.Lib.Loop KzGlobal.Lib.Packed KzGlobal.Lib.Sparse
open KzGlobal.Krp.Format KzGlobal.Krp.Codec KzGlobal.Krp.Records KzGlobal.Krp.Compress
open KzGlobal.Krp.Sections

/-! ### Cursors -/

theorem columnCursors_foldl (s : Sections) : ∀ n : ℕ,
    (List.range n).foldl (fun (acc : (ℕ → ℕ) × ℕ) i =>
        (Function.update acc.1 i acc.2, acc.2 + s.colSizes i)) (fun _ => 0, 0) =
      (fun k => if k < n then start s.colSizes k else 0, start s.colSizes n)
  | 0 => by simp
  | n + 1 => by
    rw [List.range_succ, List.foldl_append, columnCursors_foldl s n, List.foldl_cons,
      List.foldl_nil, start_succ]
    refine congrArg (·, _) (funext fun k => ?_)
    dsimp only
    rcases Nat.lt_trichotomy k n with h | rfl | h
    · rw [Function.update_of_ne h.ne, if_pos h, if_pos (by omega)]
    · rw [Function.update_self, if_pos (by omega)]
    · rw [Function.update_of_ne h.ne', if_neg h.not_gt, if_neg (by omega)]

theorem columnCursors_eq (s : Sections) {k : ℕ} (hk : k < sizeofKrpFrame) :
    columnCursors s k = start s.colSizes k := by
  rw [columnCursors, columnCursors_foldl]
  exact if_pos hk

/-- The cursor of column `k` after the records `pre`. -/
def cursorAt (s : Sections) (pre : List Record) (k : ℕ) : ℕ :=
  columnCursors s k + (columnOf pre k).length

theorem cursorAt_nil (s : Sections) : cursorAt s [] = columnCursors s := rfl

theorem cursorAt_event (s : Sections) (pre : List Record) (id : UInt8) :
    cursorAt s (pre ++ [.event id]) = cursorAt s pre := by
  funext k; simp [cursorAt, columnOf, frames]

theorem cursorAt_frame (s : Sections) (pre : List Record) (r : FrameRecord) :
    cursorAt s (pre ++ [.frame r]) = fun k => cursorAt s pre k + (cell k r.cells).length := by
  funext k; simp [cursorAt, columnOf, frames, Nat.add_assoc]

/-- **A cursor stands at the data byte of the next row.** -/
theorem data_at_cursor (h : KrpHeader) {rs pre post : List Record} {r : FrameRecord}
    (hrs : rs = pre ++ .frame r :: post) {c : ℕ × UInt8} (hc : c ∈ r.cells) :
    (sectionsOf h rs).data[cursorAt (sectionsOf h rs) pre c.1]? = some c.2 := by
  obtain ⟨k, v⟩ := c
  have hk : k < sizeofKrpFrame := by
    have hm : k ∈ keys r.cells := List.mem_map_of_mem hc
    rw [r.keys_cells, mem_setBits] at hm
    exact hm.1
  have hcol : columnOf rs k = column k
      (((frames pre).map FrameRecord.cells) ++ r.cells :: (frames post).map FrameRecord.cells) := by
    rw [columnOf, hrs, frames_append, List.map_append]; rfl
  have hget : (columnOf rs k)[(columnOf pre k).length]? = some v := by
    rw [hcol]; exact getElem?_column _ _ r.nodup_keys hc
  have hlt : (columnOf pre k).length < (columnOf rs k).length :=
    (List.getElem?_eq_some_iff.mp hget).1
  rw [cursorAt, columnCursors_eq _ hk]
  exact (getElem?_concat hlt hk).trans hget

theorem readAt_of_getElem? {mem : Bytes} {i : ℕ} {v : UInt8} (h : mem[i]? = some v) :
    readAt mem i = .ok v := by
  rw [readAt, h]

/-- **The loop over the data bytes of a row**, for any state with a cursor for each column: pass `k`
reads at the cursor of column `k` and moves no other cursor. -/
theorem foldlM_cells {σ : Type} {data : Bytes} {col : σ → ℕ → ℕ} {upd : σ → ℕ → UInt8 → σ}
    (st : σ) (hcol : ∀ st k v k', k' ≠ k → col (upd st k v) k' = col st k') :
    ∀ {cells : List (ℕ × UInt8)}, (keys cells).Nodup →
      (∀ c ∈ cells, data[col st c.1]? = some c.2) →
      (keys cells).foldlM (fun st k => readAt data (col st k) >>= fun v => .ok (upd st k v)) st =
        .ok (cells.foldl (fun st c => upd st c.1 c.2) st)
  | [], _, _ => rfl
  | c :: cells, hn, h => by
    rw [keys_cons, List.nodup_cons] at hn
    have hread := readAt_of_getElem? (h c List.mem_cons_self)
    rw [keys_cons, List.foldlM_cons, hread, ok_bind, ok_bind]
    refine foldlM_cells _ hcol hn.2 fun c' hc' => ?_
    have hne : c'.1 ≠ c.1 := fun he => hn.1 (he ▸ List.mem_map_of_mem hc')
    rw [hcol _ _ _ _ hne]
    exact h c' (List.mem_cons_of_mem _ hc')

theorem foldl_cursor : ∀ (cells : List (ℕ × UInt8)) (col : ℕ → ℕ),
    cells.foldl (fun col c => Function.update col c.1 (col c.1 + 1)) col =
      fun k => col k + (cell k cells).length
  | [], col => rfl
  | c :: cells, col => by
    rw [List.foldl_cons, foldl_cursor cells]
    funext k
    rw [cell_cons]
    by_cases h : c.1 = k
    · subst h
      rw [Function.update_self, if_pos rfl, List.length_cons]; omega
    · rw [Function.update_of_ne (Ne.symm h), if_neg h]

/-! ### The next record -/

section Next
variable (h : KrpHeader) {rs pre post : List Record} {r : Record} (hrs : rs = pre ++ r :: post)
include hrs

theorem type_at : readAt (sectionsOf h rs).types pre.length = .ok r.type := by
  refine readAt_of_drop (r := typesOf post) ?_
  have hl : (typesOf pre).length = pre.length := length_typesOf pre
  change (typesOf rs).drop pre.length = _
  rw [hrs, typesOf_append, ← hl, List.drop_left]
  rfl

theorem event_at {id : UInt8} (hr : r = .event id) :
    readAt (sectionsOf h rs).events (eventIds pre).length = .ok id := by
  refine readAt_of_drop (r := eventIds post) ?_
  change (eventIds rs).drop _ = _
  rw [hrs, hr, eventIds_append, List.drop_left]
  rfl

theorem row_at {f : FrameRecord} (hr : r = .frame f) :
    frames rs = frames pre ++ f :: frames post := by
  rw [hrs, hr, frames_append]
  rfl

theorem row_lt {f : FrameRecord} (hr : r = .frame f) :
    (frames pre).length < (sectionsOf h rs).numFrames := by
  change _ < (frames rs).length
  rw [row_at hrs hr, List.length_append, List.length_cons]
  omega

end Next

/-! ### `build_krpr` -/

/-- The state of `build_krpr` after the records `pre`. -/
def rawAt (s : Sections) (pre : List Record) : Raw where
  out := (clearSizes s.header).bytes ++ encodeAll pre
  col := cursorAt s pre
  ev := (eventIds pre).length
  row := (frames pre).length

/-- A data byte of `build_krpr`. -/
def pushRaw (r : Raw) (k : ℕ) (v : UInt8) : Raw :=
  { r with out := r.out ++ [v], col := Function.update r.col k (r.col k + 1) }

theorem foldl_pushRaw : ∀ (cells : List (ℕ × UInt8)) (r : Raw),
    cells.foldl (fun r c => pushRaw r c.1 c.2) r =
      { r with
        out := r.out ++ cells.map Prod.snd
        col := cells.foldl (fun col c => Function.update col c.1 (col c.1 + 1)) r.col }
  | [], r => by simp
  | c :: cells, r => by
    rw [List.foldl_cons, foldl_pushRaw cells]
    simp [pushRaw]

theorem foldlM_blocks {s : Sections} (hs : Shaped s) {row : ℕ} (hrow : row < s.numFrames) :
    (List.range krpMaskBlocks).foldlM (fun mask block => do
      let b ← memcpy s.flags (block * s.blockStreamSize + row * 8) 8
      .ok (mask ++ b)) [] = .ok (rowMask s row) := by
  have h := foldlM_eq_ok (n := krpMaskBlocks) (f := fun mask block => do
      let b ← memcpy s.flags (block * s.blockStreamSize + row * 8) 8
      (.ok (mask ++ b) : Result Bytes)) (fun t => (rowMask s row).take (8 * t)) fun t ht => ?_
  · rwa [show 8 * krpMaskBlocks = sizeofKrpMask from rfl,
      List.take_of_length_le (hs.length_rowMask hrow).le, Nat.mul_zero, List.take_zero] at h
  · rw [hs.memcpy_block hrow ht, ok_bind, Nat.mul_succ 8 t, List.take_add, Nat.mul_comm t 8]

theorem map_snd_cells (f : FrameRecord) : f.cells.map Prod.snd = f.data :=
  List.map_snd_zip f.data_len.le

theorem rawCells {data : Bytes} {f : FrameRecord} {r : Raw}
    (hdata : ∀ c ∈ f.cells, data[r.col c.1]? = some c.2) :
    (List.range sizeofKrpFrame).foldlM (fun r i =>
      if hasBit (f.mask.getD (i / 8) 0) (i % 8) then do
        let v ← readAt data (r.col i)
        .ok { r with out := r.out ++ [v], col := Function.update r.col i (r.col i + 1) }
      else .ok r) r =
    .ok { r with out := r.out ++ f.data, col := fun k => r.col k + (cell k f.cells).length } := by
  have hupd : ∀ (st : Raw) k v k', k' ≠ k → (pushRaw st k v).col k' = st.col k' :=
    fun st k v k' hne => Function.update_of_ne hne _ _
  have hloop := foldlM_cells r hupd f.nodup_keys hdata
  rw [f.keys_cells, foldl_pushRaw, foldl_cursor, map_snd_cells] at hloop
  rw [← hloop, setBits]
  exact foldlM_skip (maskBit f.mask) (fun _ _ => rfl) _ r

/-- **`build_krpr` writes the next record.** -/
theorem rawRecord_eq (h : KrpHeader) {rs pre post : List Record} {r : Record} (hfit : Fits rs)
    (hrs : rs = pre ++ r :: post) :
    rawRecord (sectionsOf h rs) (rawAt (sectionsOf h rs) pre) pre.length =
      .ok (rawAt (sectionsOf h rs) (pre ++ [r])) := by
  unfold rawRecord
  rw [type_at h hrs, ok_bind]
  dsimp only [rawAt]
  cases r with
  | event id =>
    have ht : (Record.event id).type = krpFrametypeEvent := rfl
    rw [if_pos ht, event_at h hrs rfl, ok_bind]
    simp [cursorAt_event, eventIds, frames, Record.encode, encodeAll, ht]
  | frame f =>
    have hf := row_at hrs rfl
    have hrow := row_lt h hrs rfl
    have hblocks := foldlM_blocks (sectionsOf_shaped h hfit) hrow
    rw [rowMask_sectionsOf hfit hf] at hblocks
    have ht : (Record.frame f).type ≠ krpFrametypeEvent := f.type_ne_event
    rw [if_neg ht, hblocks, ok_bind]
    rw [rawCells fun c hc => data_at_cursor h hrs hc, ok_bind]
    simp [cursorAt_frame, eventIds, frames, Record.encode, encodeAll, Record.type]

/-- **`build_krpr` writes the raw layout.** -/
theorem rawWalk_eq (h : KrpHeader) {rs : List Record} (hfit : Fits rs) :
    rawWalk (sectionsOf h rs) = .ok (rawAt (sectionsOf h rs) rs) := by
  have hn : (sectionsOf h rs).header.num .sizeTypes = rs.length := headerOf_sizeTypes h hfit
  have hrun := foldlM_eq_ok (n := rs.length) (f := rawRecord (sectionsOf h rs))
    (fun t => rawAt (sectionsOf h rs) (rs.take t)) fun t ht => ?_
  · rw [List.take_length] at hrun
    rw [rawWalk, hn, ← hrun]
    simp [rawAt, encodeAll, cursorAt_nil, eventIds, frames]
  · have hsplit : rs = rs.take t ++ rs[t] :: rs.drop (t + 1) := by
      rw [← List.drop_eq_getElem_cons ht, List.take_append_drop]
    have hstep := rawRecord_eq h hfit hsplit
    rw [List.length_take_of_le ht.le] at hstep
    rw [hstep, List.take_add_one, List.getElem?_eq_getElem ht]
    rfl

theorem clearSizes_congr {h h' : KrpHeader}
    (hb : ∀ i, i < 173 ∨ 189 ≤ i → h.bytes[i]? = h'.bytes[i]?) : clearSizes h = clearSizes h' := by
  refine KrpHeader.ext (List.ext_getElem? fun i => ?_)
  refine KrpHeader.getElem?_setNum_congr 0 fun h4 => KrpHeader.getElem?_setNum_congr 0 fun h3 =>
    KrpHeader.getElem?_setNum_congr 0 fun h2 => KrpHeader.getElem?_setNum_congr 0 fun h1 => hb i ?_
  simp only [Member.field] at h1 h2 h3 h4
  omega

theorem headerOf_getElem? (h : KrpHeader) (rs : List Record) {i : ℕ} (hi : i < 173 ∨ 189 ≤ i) :
    (headerOf h rs).bytes[i]? = h.bytes[i]? := by
  unfold headerOf
  rw [KrpHeader.getElem?_setNum_of_out _ _ (by simp only [Member.field]; omega),
    KrpHeader.getElem?_setNum_of_out _ _ (by simp only [Member.field]; omega),
    KrpHeader.getElem?_setNum_of_out _ _ (by simp only [Member.field]; omega),
    KrpHeader.getElem?_setNum_of_out _ _ (by simp only [Member.field]; omega)]

theorem clearSizes_headerOf (h : KrpHeader) (rs : List Record) :
    clearSizes (headerOf h rs) = clearSizes h :=
  clearSizes_congr fun _ hi => headerOf_getElem? h rs hi

theorem buildKrpr_sectionsOf (h : KrpHeader) {rs : List Record} (hfit : Fits rs) :
    buildKrpr (sectionsOf h rs) = .ok (krprOf (clearSizes h) rs) := by
  rw [buildKrpr, rawWalk_eq h hfit, map_ok, rawAt, krprOf]
  exact congrArg (fun h => Except.ok (KrpHeader.bytes h ++ _)) (clearSizes_headerOf h rs)

/-! ### `for_each_record` -/

/-- A data byte applied to a frame: copied by a keyframe, XORed in by a delta. -/
def applyByte (key : Bool) (b : ℕ → UInt8) (k : ℕ) (v : UInt8) : ℕ → UInt8 :=
  Function.update b k (if key then v else b k ^^^ v)

/-- **The frame after a row.** -/
def applyFrame (b : ℕ → UInt8) (r : FrameRecord) : ℕ → UInt8 :=
  r.cells.foldl (fun b c => applyByte r.key b c.1 c.2) b

/-- The frame after the rows of a list of records. -/
def frameAfter (b : ℕ → UInt8) (rs : List Record) : ℕ → UInt8 := (frames rs).foldl applyFrame b

/-- **What a list of records plays**: its events and frames, numbered from `t` on. -/
def playback (b : ℕ → UInt8) (t : ℕ) : List Record → List Call
  | [] => []
  | .event id :: rs => .onEvent t id :: playback b (t + 1) rs
  | .frame r :: rs =>
    .onFrame t r.type (.ofFn (applyFrame b r)) :: playback (applyFrame b r) (t + 1) rs

theorem frameAfter_append (b : ℕ → UInt8) (rs rs' : List Record) :
    frameAfter b (rs ++ rs') = frameAfter (frameAfter b rs) rs' := by
  simp [frameAfter]

theorem playback_append : ∀ (rs rs' : List Record) (b : ℕ → UInt8) (t : ℕ),
    playback b t (rs ++ rs') = playback b t rs ++ playback (frameAfter b rs) (t + rs.length) rs'
  | [], _, _, _ => rfl
  | .event id :: rs, rs', b, t => by
    rw [List.cons_append, playback, playback, playback_append rs, List.cons_append,
      List.length_cons, Nat.add_right_comm, Nat.add_assoc]
    rfl
  | .frame r :: rs, rs', b, t => by
    rw [List.cons_append, playback, playback, playback_append rs, List.cons_append,
      List.length_cons, Nat.add_right_comm, Nat.add_assoc]
    rfl

/-- The state of `for_each_record` after the records `pre`. -/
def walkAt (s : Sections) (pre : List Record) : Walk where
  col := cursorAt s pre
  frameBytes := frameAfter (fun _ => 0) pre
  ev := (eventIds pre).length
  row := (frames pre).length
  calls := playback (fun _ => 0) 0 pre

/-- A data byte of `for_each_record`. -/
def pushWalk (type : UInt8) (w : Walk) (k : ℕ) (v : UInt8) : Walk :=
  { w with
    frameBytes := Function.update w.frameBytes k
      (if type = krpFrametypeKeyframe then v else w.frameBytes k ^^^ v)
    col := Function.update w.col k (w.col k + 1) }

theorem foldl_pushWalk (f : FrameRecord) : ∀ (cells : List (ℕ × UInt8)) (w : Walk),
    cells.foldl (fun w c => pushWalk f.type w c.1 c.2) w =
      { w with
        frameBytes := cells.foldl (fun b c => applyByte f.key b c.1 c.2) w.frameBytes
        col := cells.foldl (fun col c => Function.update col c.1 (col c.1 + 1)) w.col }
  | [], w => rfl
  | c :: cells, w => by
    rw [List.foldl_cons, foldl_pushWalk f cells]
    simp only [pushWalk, List.foldl_cons, applyByte, f.type_eq_keyframe]

theorem walkBit_eq (s : Sections) (type : UInt8) (block v : ℕ) (w : Walk) (bit : ℕ) :
    walkBit s type block v w bit =
      if v.testBit bit = true ∧ block * 64 + bit < sizeofKrpFrame then
        readAt s.data (w.col (block * 64 + bit)) >>= fun b =>
          .ok (pushWalk type w (block * 64 + bit) b)
      else .ok w := by
  unfold walkBit
  by_cases hv : v.testBit bit = true
  · by_cases hlt : sizeofKrpFrame ≤ block * 64 + bit
    · have h : ¬ (v.testBit bit = true ∧ block * 64 + bit < sizeofKrpFrame) :=
        fun h => absurd h.2 (not_lt.mpr hlt)
      rw [if_neg (not_not.mpr hv), if_neg h]
      exact if_pos hlt
    · have h : v.testBit bit = true ∧ block * 64 + bit < sizeofKrpFrame := ⟨hv, not_le.mp hlt⟩
      rw [if_neg (not_not.mpr hv), if_pos h]
      exact if_neg hlt
  · rw [if_pos hv, if_neg fun h => hv h.1]

theorem walkCells {s : Sections} {f : FrameRecord} {w : Walk} {read : ℕ → Result ℕ}
    (hread : ∀ block < krpMaskBlocks, read block = .ok (le ((f.mask.drop (block * 8)).take 8)))
    (hdata : ∀ c ∈ f.cells, s.data[w.col c.1]? = some c.2) :
    (List.range krpMaskBlocks).foldlM (fun w block => do
      let blockVal ← read block
      (List.range 64).foldlM (walkBit s f.type block blockVal) w) w =
    .ok { w with
      frameBytes := applyFrame w.frameBytes f
      col := fun k => w.col k + (cell k f.cells).length } := by
  have hupd : ∀ (st : Walk) k v k', k' ≠ k → (pushWalk f.type st k v).col k' = st.col k' :=
    fun st k v k' hne => Function.update_of_ne hne _ _
  have hloop := foldlM_cells w hupd f.nodup_keys hdata
  rw [f.keys_cells, foldl_pushWalk, foldl_cursor] at hloop
  rw [foldlM_mask (fun w k => readAt s.data (w.col k) >>= fun b => .ok (pushWalk f.type w k b))
    hread (walkBit_eq s f.type), hloop]
  rfl

/-- **`for_each_record` plays the next record.** -/
theorem walkRecord_eq (h : KrpHeader) {rs pre post : List Record} {r : Record} (hfit : Fits rs)
    (hrs : rs = pre ++ r :: post) :
    walkRecord (sectionsOf h rs) (walkAt (sectionsOf h rs) pre) pre.length =
      .ok (walkAt (sectionsOf h rs) (pre ++ [r])) := by
  unfold walkRecord
  rw [type_at h hrs, ok_bind]
  cases r with
  | event id =>
    have ht : (Record.event id).type = krpFrametypeEvent := rfl
    rw [if_pos ht]
    dsimp only [walkAt]
    rw [event_at h hrs rfl, ok_bind]
    simp [cursorAt_event, eventIds, frames, playback_append, playback, frameAfter]
  | frame f =>
    have hf := row_at hrs rfl
    have hrow := row_lt h hrs rfl
    have ht : (Record.frame f).type ≠ krpFrametypeEvent := f.type_ne_event
    have hread : ∀ block < krpMaskBlocks, memcpyU64 (sectionsOf h rs).flags
        (block * (sectionsOf h rs).blockStreamSize + (frames pre).length * 8) =
          .ok (le ((f.mask.drop (block * 8)).take 8)) := by
      intro block hb
      rw [(sectionsOf_shaped h hfit).memcpyU64_block hrow hb, rowMask_sectionsOf hfit hf]
    rw [if_neg ht]
    have hcells := walkCells (w := walkAt (sectionsOf h rs) pre) hread
      fun c hc => data_at_cursor h hrs hc
    rw [Record.type]
    dsimp only [walkAt] at hcells ⊢
    rw [hcells, ok_bind]
    simp [cursorAt_frame, eventIds, frames, playback_append, playback, frameAfter]

/-- **`for_each_record` plays the records.** -/
theorem recordWalk_eq (h : KrpHeader) {rs : List Record} (hfit : Fits rs) :
    recordWalk (sectionsOf h rs) = .ok (walkAt (sectionsOf h rs) rs) := by
  have hn : (sectionsOf h rs).header.num .sizeTypes = rs.length := headerOf_sizeTypes h hfit
  have hrun := foldlM_eq_ok (n := rs.length) (f := walkRecord (sectionsOf h rs))
    (fun t => walkAt (sectionsOf h rs) (rs.take t)) fun t ht => ?_
  · rw [List.take_length] at hrun
    rw [recordWalk, hn, ← hrun]
    rfl
  · have hsplit : rs = rs.take t ++ rs[t] :: rs.drop (t + 1) := by
      rw [← List.drop_eq_getElem_cons ht, List.take_append_drop]
    have hstep := walkRecord_eq h hfit hsplit
    rw [List.length_take_of_le ht.le] at hstep
    rw [hstep, List.take_add_one, List.getElem?_eq_getElem ht]
    rfl

theorem forEachRecord_sectionsOf (h : KrpHeader) {rs : List Record} (hfit : Fits rs) :
    forEachRecord (sectionsOf h rs) = .ok (playback (fun _ => 0) 0 rs) := by
  rw [forEachRecord, recordWalk_eq h hfit, map_ok]; rfl

end KzGlobal.Krp.Walk
