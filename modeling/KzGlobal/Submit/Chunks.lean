import KzGlobal.Lib.Stdio
import KzGlobal.Replay.Checksum

/-! # The chunks of an upload

`kz_rp_upload_thread` reads a file in pieces that fill a buffer behind the packed header of a chunk.
The number of chunks is the size of the file by the size of a piece, rounded up, so no piece is
empty and none is left (`upload_partition`). -/

namespace KzGlobal.Submit.Chunks

open KzGlobal.Krp.Format KzGlobal.Lib.Packed KzGlobal.Lib.Stdio KzGlobal.Replay.Checksum

/-! ### The packed header -/

/-- `ws_uchunk_header`. -/
inductive HeaderField
  | localUid | id | chunkChecksum | chunkIndex | chunkTotal
  deriving DecidableEq, Repr

/-- Where a field lies in the header. -/
def HeaderField.field : HeaderField → Field
  | .localUid => ⟨0, 64⟩
  | .id => ⟨64, 8⟩
  | .chunkChecksum => ⟨72, 4⟩
  | .chunkIndex => ⟨76, 8⟩
  | .chunkTotal => ⟨84, 8⟩

/-- `sizeof(ws_uchunk_header)`. -/
def sizeofHeader : ℕ := 92

/-- A field of the header is written. -/
def setField (f : HeaderField) (v header : Bytes) : Bytes := f.field.put v header

/-- The number in a field. -/
def num (f : HeaderField) (message : Bytes) : ℕ := le (f.field.get message)

/-- What is behind the header. -/
def payload (message : Bytes) : Bytes := message.drop sizeofHeader

/-! ### The thread -/

/-- The fields of `ws_upload` that the chunks need. -/
structure WsUpload where
  localUid : Bytes
  id : ℕ
  length_localUid : localUid.length = 64
  id_lt : id < 2 ^ 64

/-- The bytes of a message, at most. -/
def chunkSize : ℕ := 64 * 1024

/-- The bytes of the file in a message, at most. -/
def maxDataPerChunk : ℕ := chunkSize - sizeofHeader

/-- The size comes from `ftell`; `size_t` has 32 bits. -/
def totalChunks (size : ℕ) : ℕ := (size + (maxDataPerChunk - 1)) % 2 ^ 32 / maxDataPerChunk

/-- What the thread writes to the fields for chunk `i`. -/
def headerValue (item : WsUpload) (total i : ℕ) (data : Bytes) : HeaderField → Bytes
  | .localUid => item.localUid
  | .id => leBytes 8 item.id
  | .chunkChecksum => leBytes 4 (utilCrc32 data).toNat
  | .chunkIndex => leBytes 8 i
  | .chunkTotal => leBytes 8 total

/-- The message with chunk `i`: the fields, in the order they are written, and the data. -/
def chunkMessage (item : WsUpload) (total i : ℕ) (data : Bytes) : Bytes :=
  [.id, .chunkIndex, .chunkChecksum, .chunkTotal, .localUid].foldl
    (fun header f => setField f (headerValue item total i data f) header)
    (List.replicate sizeofHeader 0) ++ data

/-- The chunks from `i` on, `n` at most. -/
def chunkLoop (item : WsUpload) (total : ℕ) : ℕ → ℕ → OpenFile UInt8 → List Bytes
  | 0, _, _ => []
  | n + 1, i, fp =>
    let (data, fp) := fp.read maxDataPerChunk
    let rest := chunkLoop item total n (i + 1) fp
    if data.length > 0 then chunkMessage item total i data :: rest else rest

/-- What `kz_rp_upload_thread` sends of an open file. -/
def kzRpUploadThread (item : WsUpload) (file : Bytes) : List Bytes :=
  let total := totalChunks (OpenFile.seekEnd ⟨file, 0⟩).pos
  chunkLoop item total total 0 ⟨file, 0⟩

/-! ### A message -/

section Message
variable {item : WsUpload} {total i : ℕ} {data : Bytes}

theorem length_headerValue (f : HeaderField) :
    (headerValue item total i data f).length = f.field.size := by
  cases f <;> simp [headerValue, HeaderField.field, item.length_localUid]

theorem end_le_sizeofHeader (f : HeaderField) : f.field.off + f.field.size ≤ sizeofHeader := by
  cases f <;> decide

theorem disjoint_of_ne {f g : HeaderField} (hne : f ≠ g) : f.field.Disjoint g.field := by
  cases f <;> cases g <;> first | exact absurd rfl hne | decide

theorem length_setField {f : HeaderField} {v header : Bytes} (hh : header.length = sizeofHeader)
    (hv : v.length = f.field.size) : (setField f v header).length = sizeofHeader := by
  have hend := end_le_sizeofHeader f
  rw [setField, Field.length_put (by omega), hh]

/-- **What fields that are written hold**, whatever the order of the writes. -/
theorem foldl_setField {v : HeaderField → Bytes} (hv : ∀ f, (v f).length = f.field.size) :
    ∀ (fs : List HeaderField) {header : Bytes}, header.length = sizeofHeader →
      (fs.foldl (fun header f => setField f (v f) header) header).length = sizeofHeader ∧
      ∀ g, g ∈ fs ∨ g.field.get header = v g →
        g.field.get (fs.foldl (fun header f => setField f (v f) header) header) = v g
  | [], header, hh => ⟨hh, fun g hg => hg.resolve_left List.not_mem_nil⟩
  | f :: fs, header, hh => by
    have hend := end_le_sizeofHeader f
    obtain ⟨hlen, hget⟩ := foldl_setField hv fs (length_setField hh (hv f))
    refine ⟨hlen, fun g hg => hget g ?_⟩
    by_cases hgf : g = f
    · right
      rw [hgf]
      exact Field.get_put (by omega) (hv f)
    · refine hg.imp (fun h => (List.mem_cons.mp h).resolve_left hgf) fun h => ?_
      rw [← h]
      exact Field.get_put_of_disjoint (disjoint_of_ne (Ne.symm hgf)) (hv f) (by omega)

variable (item total i data) in
theorem header_chunkMessage : ∃ header : Bytes, chunkMessage item total i data = header ++ data ∧
    header.length = sizeofHeader ∧ ∀ f, f.field.get header = headerValue item total i data f := by
  obtain ⟨hlen, hget⟩ := foldl_setField (v := headerValue item total i data) length_headerValue
    [.id, .chunkIndex, .chunkChecksum, .chunkTotal, .localUid]
    (List.length_replicate (n := sizeofHeader) (a := 0))
  refine ⟨_, rfl, hlen, fun f => hget f (Or.inl ?_)⟩
  cases f <;> decide

theorem get_chunkMessage (f : HeaderField) :
    f.field.get (chunkMessage item total i data) = headerValue item total i data f := by
  obtain ⟨header, hm, hlen, hget⟩ := header_chunkMessage item total i data
  have hend := end_le_sizeofHeader f
  rw [hm, ← hget f, Field.get, Field.get, List.drop_append_of_le_length (by omega),
    List.take_append_of_le_length (by rw [List.length_drop]; omega)]

theorem payload_chunkMessage : payload (chunkMessage item total i data) = data := by
  obtain ⟨header, hm, hlen, -⟩ := header_chunkMessage item total i data
  rw [hm, payload, ← hlen, List.drop_left]

theorem length_chunkMessage :
    (chunkMessage item total i data).length = sizeofHeader + data.length := by
  obtain ⟨header, hm, hlen, -⟩ := header_chunkMessage item total i data
  rw [hm, List.length_append, hlen]

end Message

/-! ### The loop -/

section Loop
variable (item : WsUpload) {file : Bytes}

theorem totalChunks_spec (h0 : file ≠ []) (hsize : file.length < 2 ^ 31) :
    (∀ i, i < totalChunks file.length ↔ i * maxDataPerChunk < file.length) ∧
      file.length ≤ totalChunks file.length * maxDataPerChunk ∧
      totalChunks file.length < 2 ^ 64 := by
  have hpos : 0 < file.length := List.length_pos_iff.mpr h0
  have hmax : maxDataPerChunk = 65444 := rfl
  have htotal : totalChunks file.length = (file.length + 65443) / 65444 := by
    rw [totalChunks, hmax, Nat.mod_eq_of_lt (by omega)]
  rw [htotal, hmax]
  refine ⟨fun i => ?_, ?_, ?_⟩
  · rw [Nat.lt_iff_add_one_le, Nat.le_div_iff_mul_le (by decide)]
    omega
  · omega
  · omega

/-- **The loop sends every piece once**, in order. -/
theorem chunkLoop_eq (total : ℕ) : ∀ (n i : ℕ),
    (∀ j < i + n, j * maxDataPerChunk < file.length) →
    chunkLoop item total n i ⟨file, min (i * maxDataPerChunk) file.length⟩ =
      (List.range' i n).map fun j =>
        chunkMessage item total j (OpenFile.piece maxDataPerChunk j file)
  | 0, _, _ => rfl
  | n + 1, i, h => by
    have hi : i * maxDataPerChunk < file.length := h i (by omega)
    have hdata : (OpenFile.piece maxDataPerChunk i file).length > 0 := by
      have hmax : 0 < maxDataPerChunk := by decide
      rw [OpenFile.piece, List.length_take, List.length_drop]
      omega
    have ih := chunkLoop_eq total n (i + 1) fun j hj => h j (by omega)
    rw [chunkLoop, OpenFile.read_piece, List.range'_succ, List.map_cons, ← ih]
    exact if_pos hdata

end Loop

/-! ### The partition -/

/-- **A chunk**: its place among the others, and a payload that its checksum is the CRC-32 of. -/
structure IsChunk (item : WsUpload) (total i : ℕ) (message : Bytes) : Prop where
  localUid : HeaderField.localUid.field.get message = item.localUid
  id : num .id message = item.id
  index : num .chunkIndex message = i
  total : num .chunkTotal message = total
  checksum : num .chunkChecksum message = (crc32 (payload message)).toNat
  length : message.length ≤ 65536
  payload : payload message ≠ []

theorem isChunk_chunkMessage (item : WsUpload) {file : Bytes} (h0 : file ≠ [])
    (hsize : file.length < 2 ^ 31) {i : ℕ} (hi : i < totalChunks file.length) :
    IsChunk item (totalChunks file.length) i (chunkMessage item (totalChunks file.length) i
      (OpenFile.piece maxDataPerChunk i file)) := by
  obtain ⟨hlt, -, hbound⟩ := totalChunks_spec h0 hsize
  have hpiece : i * maxDataPerChunk < file.length := (hlt i).mp hi
  have hmax : sizeofHeader + maxDataPerChunk = 65536 := rfl
  have hmax' : 0 < maxDataPerChunk := by decide
  have hlen : (OpenFile.piece maxDataPerChunk i file).length =
      min maxDataPerChunk (file.length - i * maxDataPerChunk) := by
    rw [OpenFile.piece, List.length_take, List.length_drop]
  constructor
  · exact get_chunkMessage _
  · rw [num, get_chunkMessage, headerValue, le_leBytes]
    exact Nat.mod_eq_of_lt item.id_lt
  · rw [num, get_chunkMessage, headerValue, le_leBytes]
    exact Nat.mod_eq_of_lt (hi.trans hbound)
  · rw [num, get_chunkMessage, headerValue, le_leBytes]
    exact Nat.mod_eq_of_lt hbound
  · rw [num, get_chunkMessage, headerValue, le_leBytes, payload_chunkMessage, utilCrc32_eq]
    exact Nat.mod_eq_of_lt (BitVec.isLt _)
  · rw [length_chunkMessage, hlen]
    omega
  · rw [payload_chunkMessage, ← List.length_pos_iff, hlen]
    omega

/-- **An upload is an exact partition of the file.** -/
theorem upload_partition (item : WsUpload) {file : Bytes} (h0 : file ≠ [])
    (hsize : file.length < 2 ^ 31) :
    (kzRpUploadThread item file).length = totalChunks file.length ∧
    (∀ (i : ℕ) (hi : i < (kzRpUploadThread item file).length),
      IsChunk item (totalChunks file.length) i (kzRpUploadThread item file)[i]) ∧
    ((kzRpUploadThread item file).map payload).flatten = file := by
  obtain ⟨hlt, hall, -⟩ := totalChunks_spec h0 hsize
  have hsent : kzRpUploadThread item file = (List.range (totalChunks file.length)).map fun i =>
      chunkMessage item (totalChunks file.length) i (OpenFile.piece maxDataPerChunk i file) := by
    have h := chunkLoop_eq item (totalChunks file.length) (totalChunks file.length) 0 fun j hj =>
      (hlt j).mp (by omega)
    rw [Nat.zero_mul, Nat.zero_min, ← List.range_eq_range'] at h
    exact h
  rw [hsent]
  refine ⟨by rw [List.length_map, List.length_range], fun i hi => ?_, ?_⟩
  · rw [List.length_map, List.length_range] at hi
    rw [List.getElem_map, List.getElem_range]
    exact isChunk_chunkMessage item h0 hsize hi
  · rw [List.map_map]
    have hpieces : (payload ∘ fun i => chunkMessage item (totalChunks file.length) i
        (OpenFile.piece maxDataPerChunk i file)) = fun i => OpenFile.piece maxDataPerChunk i file :=
      funext fun i => payload_chunkMessage
    rw [hpieces, OpenFile.flatten_pieces, List.take_of_length_le hall]

/-- An upload with a uid of full length. -/
def sampleUpload : WsUpload where
  localUid := List.replicate 64 97
  id := 7
  length_localUid := List.length_replicate
  id_lt := by decide

/-- A file of one byte more than a chunk holds. -/
def sampleFile : Bytes := List.replicate (maxDataPerChunk + 1) 0

theorem upload_partition_sample :
    (kzRpUploadThread sampleUpload sampleFile).length = 2 ∧
      ((kzRpUploadThread sampleUpload sampleFile)[1]?.map (num .chunkIndex)) = some 1 ∧
      ((kzRpUploadThread sampleUpload sampleFile).map payload).flatten = sampleFile := by
  have hsize : sampleFile.length = 65445 := List.length_replicate
  have hne : sampleFile ≠ [] := List.ne_nil_of_length_eq_add_one hsize
  obtain ⟨hlen, hchunks, hfile⟩ := upload_partition sampleUpload hne (by rw [hsize]; decide)
  have htwo : (kzRpUploadThread sampleUpload sampleFile).length = 2 := by
    rw [hlen, hsize]
    rfl
  refine ⟨htwo, ?_, hfile⟩
  have hlt : 1 < (kzRpUploadThread sampleUpload sampleFile).length := by omega
  rw [List.getElem?_eq_getElem hlt, Option.map_some, (hchunks 1 hlt).index]

end KzGlobal.Submit.Chunks
