import KzGlobal.Lib.Loop
import KzGlobal.Krp.Format

/-! # The KRP codec

The functions of `krp_format.cpp`, `krp_header_validate.cpp` and `krp_codec.h`, read for read. A
computation returns a value, stops with one of the codec's errors, or faults with `oob`: a read
outside the bytes it may touch. Those are the whole input for `validateHeader`, `mapSections` and
`buildKrpzBody`, and the four sections, each by itself, for the walkers `buildKrpr` and
`forEachRecord`. A pointer into a section is its offset there, and an array of 112 cursors is a
function of the column. -/

namespace KzGlobal.Krp.Codec

open KzGlobal.Lib.Loop KzGlobal.Lib.Packed KzGlobal.Krp.Format

/-- `krp::error` but for `ok`, which is a returned value. -/
inductive Error
  | badMagic
  | badVersion
  | truncated
  | corruptSections
  | firstFrameNotKeyframe
  | zstdError
  deriving DecidableEq, Repr

/-- How a computation stops: with an error, or by a read outside its bounds. -/
inductive Fault
  | error (e : Error)
  | oob
  deriving DecidableEq, Repr

/-- A result of the codec, or the fault that ends it. -/
abbrev Result := Except Fault

/-- `mem[i]`. -/
def readAt (mem : Bytes) (i : ℕ) : Result UInt8 :=
  match mem[i]? with
  | some b => .ok b
  | none => .error .oob

/-- The `n` bytes from `mem + i` on. -/
def memcpy (mem : Bytes) (i n : ℕ) : Result Bytes :=
  if i + n ≤ mem.length then .ok ((mem.drop i).take n) else .error .oob

/-- A `uint64_t` copied from `mem + i`. -/
def memcpyU64 (mem : Bytes) (i : ℕ) : Result ℕ := le <$> memcpy mem i 8

/-- The header at the beginning of a buffer. -/
def readHeader (mem : Bytes) : Result KrpHeader :=
  if h : sizeofKrpHeader ≤ mem.length then
    .ok ⟨mem.take sizeofKrpHeader, by rw [List.length_take]; omega⟩
  else .error .oob

/-- `validate_header`: the header is there, and holds what it may. -/
def validateHeader (buf : Bytes) : Result Unit :=
  if buf.length < sizeofKrpHeader then .error (.error .truncated)
  else do
    let header ← readHeader buf
    if header.num .magic ≠ krpMagic then .error (.error .badMagic)
    else if header.num .version ≠ krpCurrentVersion then .error (.error .badVersion)
    else .ok ()

/-! ### The sections of a body -/

/-- `krp::sections`: the header and the four sections of a body, with the number of frame rows and
the length of each column. -/
structure Sections where
  header : KrpHeader
  types : Bytes
  flags : Bytes
  data : Bytes
  events : Bytes
  numFrames : ℕ
  colSizes : ℕ → ℕ

/-- The length of one block of masks. -/
def Sections.blockStreamSize (s : Sections) : ℕ := s.header.num .sizeFlags / krpMaskBlocks

/-- The counters of the pass over the frame types in `map_sections`. -/
structure Tally where
  rows : ℕ
  events : ℕ
  colSizes : ℕ → ℕ

/-- The bits of one mask block counted into the columns. -/
def countBlock (colSizes : ℕ → ℕ) (block blockVal : ℕ) : ℕ → ℕ :=
  (List.range 64).foldl (fun cs bit =>
    let idx := block * 64 + bit
    if idx < sizeofKrpFrame ∧ blockVal.testBit bit then Function.update cs idx (cs idx + 1) else cs)
    colSizes

/-- One pass of the loop over the frame types in `map_sections`. -/
def countType (s : Sections) (c : Tally) (t : ℕ) : Result Tally := do
  let type ← readAt s.types t
  if type = krpFrametypeEvent then .ok { c with events := c.events + 1 }
  else if type ≠ krpFrametypeDelta ∧ type ≠ krpFrametypeKeyframe then
    .error (.error .corruptSections)
  else if s.numFrames ≤ c.rows then .error (.error .corruptSections)
  else do
    let colSizes ← (List.range krpMaskBlocks).foldlM (fun cs block => do
      let blockVal ← memcpyU64 s.flags (block * s.blockStreamSize + c.rows * 8)
      .ok (countBlock cs block blockVal)) c.colSizes
    .ok { c with rows := c.rows + 1, colSizes }

/-- The sections a header describes, before any of them is looked at. -/
def sectionsAt (header : KrpHeader) (body : Bytes) : Sections :=
  let types := sizeofKrpHeader
  let flags := types + header.num .sizeTypes
  let data := flags + header.num .sizeFlags
  let events := data + header.num .sizeData
  { header
    types := (body.drop types).take (header.num .sizeTypes)
    flags := (body.drop flags).take (header.num .sizeFlags)
    data := (body.drop data).take (header.num .sizeData)
    events := (body.drop events).take (header.num .sizeEvents)
    numFrames := header.num .sizeFlags / krpMaskBlocks / 8
    colSizes := fun _ => 0 }

/-- The total a header claims: itself and the four sections. -/
def totalSize (header : KrpHeader) : ℕ :=
  sizeofKrpHeader + header.num .sizeTypes + header.num .sizeFlags + header.num .sizeData +
    header.num .sizeEvents

/-- `map_sections`: the sections lie in the order of the header's sizes. -/
def mapSections (body : Bytes) : Result Sections := do
  validateHeader body
  let header ← readHeader body
  if body.length < totalSize header then .error (.error .truncated)
  else if header.num .sizeFlags % (krpMaskBlocks * 8) ≠ 0 then .error (.error .corruptSections)
  else
    let out := sectionsAt header body
    if header.num .sizeTypes = 0 then .error (.error .firstFrameNotKeyframe)
    else do
      let first ← readAt out.types 0
      if first ≠ krpFrametypeKeyframe then .error (.error .firstFrameNotKeyframe)
      else do
        let c ← (List.range (header.num .sizeTypes)).foldlM (countType out) ⟨0, 0, fun _ => 0⟩
        if c.rows ≠ out.numFrames then .error (.error .corruptSections)
        else if c.events ≠ header.num .sizeEvents then .error (.error .corruptSections)
        else if ((List.range sizeofKrpFrame).map c.colSizes).sum ≠ header.num .sizeData then
          .error (.error .corruptSections)
        else .ok { out with colSizes := c.colSizes }

/-! ### From the raw stream to columns -/

/-- The vectors `build_krpz_body` fills, and its read pointer. -/
structure Columns where
  ptr : ℕ
  frameType : Bytes
  frameData : ℕ → Bytes
  frameEvents : Bytes
  frameFlags : ℕ → Bytes

/-- The inner loop over the bits of mask byte `m`, with its early break after the last byte of the
frame. The state is the pointer, the columns and `byte_idx`. -/
def transposeBits (krpr : Bytes) (m : UInt8) : List ℕ → Columns × ℕ → Result (Columns × ℕ)
  | [], st => .ok st
  | bit :: bits, (c, byteIdx) => do
    let c ← if hasBit m bit then
        if krpr.length ≤ c.ptr then .error (.error .truncated)
        else do
          let v ← readAt krpr c.ptr
          .ok { c with
            ptr := c.ptr + 1
            frameData := Function.update c.frameData byteIdx (c.frameData byteIdx ++ [v]) }
      else .ok c
    if sizeofKrpFrame ≤ byteIdx + 1 then .ok (c, byteIdx + 1)
    else transposeBits krpr m bits (c, byteIdx + 1)

/-- The outer loop over the mask bytes, which stops once `byte_idx` has left the frame. -/
def transposeMask (krpr mask : Bytes) : List ℕ → Columns × ℕ → Result (Columns × ℕ)
  | [], st => .ok st
  | i :: is, st =>
    if st.2 < sizeofKrpFrame then do
      let st ← transposeBits krpr (mask.getD i 0) (List.range 8) st
      transposeMask krpr mask is st
    else .ok st

/-- One pass of the loop over the records. -/
def transposeRecord (krpr : Bytes) (c : Columns) : Result Columns := do
  let type ← readAt krpr c.ptr
  let c := { c with ptr := c.ptr + 1, frameType := c.frameType ++ [type] }
  if type = krpFrametypeDelta ∨ type = krpFrametypeKeyframe then
    if krpr.length < c.ptr + sizeofKrpMask then .error (.error .truncated)
    else do
      let mask ← memcpy krpr c.ptr sizeofKrpMask
      let c := { c with
        ptr := c.ptr + sizeofKrpMask
        frameFlags := fun block => c.frameFlags block ++ (mask.drop (block * 8)).take 8 }
      let st ← transposeMask krpr mask (List.range sizeofKrpMask) (c, 0)
      .ok st.1
  else if type = krpFrametypeEvent then
    if krpr.length ≤ c.ptr then .error (.error .truncated)
    else do
      let e ← readAt krpr c.ptr
      .ok { c with ptr := c.ptr + 1, frameEvents := c.frameEvents ++ [e] }
  else .error (.error .corruptSections)

/-- `while (ptr < end)`, for as many passes as there are bytes: each pass moves the pointer on. -/
def transposeLoop (krpr : Bytes) : ℕ → Columns → Result Columns
  | 0, c => .ok c
  | n + 1, c =>
    if c.ptr < krpr.length then do
      let c ← transposeRecord krpr c
      transposeLoop krpr n c
    else .ok c

/-- The columns in the order of the body. -/
def Columns.body (c : Columns) : Bytes :=
  c.frameType ++ (List.range krpMaskBlocks).flatMap c.frameFlags ++
    (List.range sizeofKrpFrame).flatMap c.frameData ++ c.frameEvents

/-- The header with the four section lengths, each cut to 32 bits. -/
def Columns.header (c : Columns) (header : KrpHeader) : KrpHeader :=
  (((header.setNum .sizeTypes c.frameType.length).setNum .sizeFlags
    ((List.range krpMaskBlocks).map fun i => (c.frameFlags i).length).sum).setNum .sizeData
    ((List.range sizeofKrpFrame).map fun i => (c.frameData i).length).sum).setNum .sizeEvents
    c.frameEvents.length

/-- `build_krpz_body`: the columns behind a header with their sizes. -/
def buildKrpzBody (krpr : Bytes) : Result Bytes := do
  let c ← transposeLoop krpr krpr.length ⟨sizeofKrpHeader, [], fun _ => [], [], fun _ => []⟩
  let header ← readHeader krpr
  .ok ((c.header header).bytes ++ c.body)

/-! ### From columns back to the raw stream -/

/-- Where each column begins in the data section. -/
def columnCursors (s : Sections) : ℕ → ℕ :=
  ((List.range sizeofKrpFrame).foldl (fun (acc : (ℕ → ℕ) × ℕ) i =>
    (Function.update acc.1 i acc.2, acc.2 + s.colSizes i)) (fun _ => 0, 0)).1

/-- The header with the four section lengths zeroed. -/
def clearSizes (header : KrpHeader) : KrpHeader :=
  (((header.setNum .sizeTypes 0).setNum .sizeFlags 0).setNum .sizeData 0).setNum .sizeEvents 0

/-- The output of `build_krpr` and its cursors. -/
structure Raw where
  out : Bytes
  col : ℕ → ℕ
  ev : ℕ
  row : ℕ

/-- One pass of the loop over the frame types in `build_krpr`. -/
def rawRecord (s : Sections) (r : Raw) (t : ℕ) : Result Raw := do
  let type ← readAt s.types t
  let r := { r with out := r.out ++ [type] }
  if type = krpFrametypeEvent then do
    let e ← readAt s.events r.ev
    .ok { r with out := r.out ++ [e], ev := r.ev + 1 }
  else do
    let mask ← (List.range krpMaskBlocks).foldlM (fun mask block => do
      let b ← memcpy s.flags (block * s.blockStreamSize + r.row * 8) 8
      .ok (mask ++ b)) []
    let r := { r with out := r.out ++ mask }
    let r ← (List.range sizeofKrpFrame).foldlM (fun r i =>
      if hasBit (mask.getD (i / 8) 0) (i % 8) then do
        let v ← readAt s.data (r.col i)
        .ok { r with out := r.out ++ [v], col := Function.update r.col i (r.col i + 1) }
      else .ok r) r
    .ok { r with row := r.row + 1 }

/-- The walk of `build_krpr`: its output and where its cursors end. -/
def rawWalk (s : Sections) : Result Raw :=
  (List.range (s.header.num .sizeTypes)).foldlM (rawRecord s)
    ⟨(clearSizes s.header).bytes, columnCursors s, 0, 0⟩

/-- `build_krpr`: the bytes that the walk over the sections puts out. -/
def buildKrpr (s : Sections) : Result Bytes := Raw.out <$> rawWalk s

/-! ### The walk over the reconstructed frames -/

/-- A call of `on_frame` or `on_event`. -/
inductive Call
  | onFrame (idx : ℕ) (type : UInt8) (frame : KrpFrame)
  | onEvent (idx : ℕ) (event : UInt8)
  deriving DecidableEq

/-- The state of `for_each_record`: the cursors, the frame so far and the calls made. -/
structure Walk where
  col : ℕ → ℕ
  frameBytes : ℕ → UInt8
  ev : ℕ
  row : ℕ
  calls : List Call

/-- One bit of a mask block: a data byte is copied into a keyframe and XORed into a delta. -/
def walkBit (s : Sections) (type : UInt8) (block blockVal : ℕ) (w : Walk) (bit : ℕ) : Result Walk :=
  if ¬ blockVal.testBit bit then .ok w
  else
    let idx := block * 64 + bit
    if sizeofKrpFrame ≤ idx then .ok w
    else do
      let v ← readAt s.data (w.col idx)
      let b := if type = krpFrametypeKeyframe then v else w.frameBytes idx ^^^ v
      .ok { w with
        frameBytes := Function.update w.frameBytes idx b
        col := Function.update w.col idx (w.col idx + 1) }

/-- One pass of the loop over the frame types in `for_each_record`. -/
def walkRecord (s : Sections) (w : Walk) (t : ℕ) : Result Walk := do
  let type ← readAt s.types t
  if type = krpFrametypeEvent then do
    let e ← readAt s.events w.ev
    .ok { w with ev := w.ev + 1, calls := w.calls ++ [.onEvent t e] }
  else do
    let row := w.row
    let w ← (List.range krpMaskBlocks).foldlM (fun w block => do
      let blockVal ← memcpyU64 s.flags (block * s.blockStreamSize + row * 8)
      (List.range 64).foldlM (walkBit s type block blockVal) w) w
    .ok { w with row := w.row + 1, calls := w.calls ++ [.onFrame t type (.ofFn w.frameBytes)] }

/-- The walk of `for_each_record`: the calls it makes and where its cursors end. -/
def recordWalk (s : Sections) : Result Walk :=
  (List.range (s.header.num .sizeTypes)).foldlM (walkRecord s)
    ⟨columnCursors s, fun _ => 0, 0, 0, []⟩

/-- `for_each_record`: the calls that the walk over the sections makes. -/
def forEachRecord (s : Sections) : Result (List Call) := Walk.calls <$> recordWalk s

end KzGlobal.Krp.Codec
