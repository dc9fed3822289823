import KzGlobal.Krp.Roundtrip

/-! # Replays in the archive

`krp::compress` and `krp::decompress` over a compressor that is documented, not read. A raw replay
that was compressed is decompressed again unless it is larger than the reader takes or does not
begin with a keyframe (`decompress_compress`). Of a file that anyone may have written, the reader
asks for no more memory than its limit, and what it delivers is bounded by what it was given
(`decompress_bounded`). -/

namespace KzGlobal.Krp.Archive

open KzGlobal.Lib.Loop KzGlobal.Lib.Packed KzGlobal.Krp.Format KzGlobal.Krp.Codec
open KzGlobal.Krp.Records KzGlobal.Krp.Compress KzGlobal.Krp.Sections KzGlobal.Krp.Walk
open KzGlobal.Krp.Roundtrip

/-! ### The compressor -/

/-- `ZSTD_getFrameContentSize`, `ZSTD_decompress` into a buffer of a size, and `ZSTD_compress` with
a buffer that is large enough. -/
structure Zstd where
  getFrameContentSize : Bytes → Option ℕ
  decompress : ℕ → Bytes → Option Bytes
  compress : Bytes → Option Bytes

/-- What the documentation of `zstd` promises. -/
structure Zstd.Documented (z : Zstd) : Prop where
  /-- The buffer is not overrun. -/
  fits {n : ℕ} {src out : Bytes} : z.decompress n src = some out → out.length ≤ n
  /-- The content size is written into the frame. -/
  contentSize {b c : Bytes} : z.compress b = some c → z.getFrameContentSize c = some b.length
  decompress_compress {b c : Bytes} : z.compress b = some c → z.decompress b.length c = some b
  compress_ne_nil {b : Bytes} : z.compress b ≠ some []

/-- `krp::zstd_decompress`. -/
def zstdDecompress (z : Zstd) (src : Bytes) : Result Bytes :=
  if src = [] then .error (.error .truncated)
  else
    match z.getFrameContentSize src with
    | none => .error (.error .zstdError)
    | some contentSize =>
      if contentSize = 0 ∨ krpMaxDecompressedBytes < contentSize then .error (.error .zstdError)
      else
        match z.decompress contentSize src with
        | none => .error (.error .zstdError)
        | some out => .ok out

/-- `krp::compress`. -/
def compress (z : Zstd) (krpr : Bytes) : Result Bytes := do
  validateHeader krpr
  let columnar ← buildKrpzBody krpr
  match z.compress columnar with
  | none => .error (.error .zstdError)
  | some out => .ok out

/-- `krp::decompress`. -/
def decompress (z : Zstd) (krpz : Bytes) : Result Bytes := do
  let body ← zstdDecompress z krpz
  let s ← mapSections body
  buildKrpr s

/-! ### What is read back -/

theorem mapSections_firstFrame {h : KrpHeader} {rs : List Record} (hv : ValidHeader h)
    (hf : Fits rs) (hk : ¬ StartsWithKeyframe rs) :
    mapSections (krpzOf h rs) = .error (.error .firstFrameNotKeyframe) := by
  have hb : krpzOf h rs = (headerOf h rs).bytes ++
      (typesOf rs ++ (flagsOf rs ++ (dataOf rs ++ eventIds rs))) := by
    simp only [krpzOf, List.append_assoc]
  have hvalid : validateHeader (krpzOf h rs) = .ok () :=
    validateHeader_eq_ok.mpr ⟨_, _, hb, (headerOf_valid h).mpr hv⟩
  have hread : readHeader (krpzOf h rs) = .ok (headerOf h rs) := by
    rw [hb]
    exact readHeader_append ..
  have hlen : ¬ (krpzOf h rs).length < totalSize (headerOf h rs) := by
    rw [headerOf_total h hf]
    exact lt_irrefl _
  have hflags : ¬ (headerOf h rs).num .sizeFlags % (krpMaskBlocks * 8) ≠ 0 := by
    rw [headerOf_sizeFlags h hf, length_flagsOf, krpMaskBlocks]
    omega
  have hs := sectionsAt_krpzOf h hf []
  rw [List.append_nil] at hs
  unfold mapSections
  rw [hvalid, ok_bind, hread, ok_bind, if_neg hlen, if_neg hflags, headerOf_sizeTypes h hf, hs]
  dsimp only
  split_ifs with hnil
  · rfl
  · cases rs with
    | nil => exact absurd rfl hnil
    | cons r rs =>
      have htype : r.type ≠ krpFrametypeKeyframe := fun ht =>
        hk (head?_typesOf.mp (congrArg some ht))
      have hfirst : readAt (typesOf (r :: rs)) 0 = .ok r.type := rfl
      rw [hfirst, ok_bind, if_pos htype]

section
variable {z : Zstd} (hz : z.Documented)

/-- **Compression accepts the raw layouts under a valid header.** -/
theorem compress_eq_ok {krpr c : Bytes} : compress z krpr = .ok c ↔
    ∃ h rs, krpr = krprOf h rs ∧ ValidHeader h ∧ z.compress (krpzOf h rs) = some c := by
  constructor
  · intro hc
    obtain ⟨⟨⟩, hval, hc⟩ := bind_eq_ok.mp hc
    obtain ⟨columnar, hbody, hc⟩ := bind_eq_ok.mp hc
    obtain ⟨h, rest, rfl, hv⟩ := validateHeader_eq_ok.mp hval
    have hsize : sizeofKrpHeader ≤ (h.bytes ++ rest).length := by
      rw [List.length_append, h.size_eq]
      exact Nat.le_add_right ..
    obtain ⟨h', rs, hraw, rfl⟩ := (buildKrpzBody_eq_ok hsize).mp hbody
    obtain ⟨hh, -⟩ := List.append_inj hraw (h.size_eq.trans h'.size_eq.symm)
    obtain rfl := KrpHeader.ext hh
    refine ⟨h, rs, hraw, hv, ?_⟩
    rcases hcomp : z.compress (krpzOf h rs) with _ | out
    · rw [hcomp] at hc
      cases hc
    · rw [hcomp] at hc
      exact congrArg some (Except.ok.inj hc)
  · rintro ⟨h, rs, rfl, hv, hc⟩
    have hval : validateHeader (krprOf h rs) = .ok () := validateHeader_eq_ok.mpr ⟨h, _, rfl, hv⟩
    rw [compress, hval, ok_bind, buildKrpzBody_krprOf, ok_bind, hc]

include hz

theorem zstdDecompress_compress {b c : Bytes} (hb : b ≠ []) (hc : z.compress b = some c) :
    zstdDecompress z c =
      if krpMaxDecompressedBytes < b.length then .error (.error .zstdError) else .ok b := by
  have hne : c ≠ [] := fun h0 => hz.compress_ne_nil (h0 ▸ hc)
  have h0 : b.length ≠ 0 := fun h0 => hb (List.eq_nil_of_length_eq_zero h0)
  unfold zstdDecompress
  rw [if_neg hne, hz.contentSize hc]
  dsimp only
  rw [hz.decompress_compress hc]
  split_ifs with h1 h2 h3
  · rfl
  · exact absurd (h1.resolve_left h0) h2
  · exact absurd (Or.inr h3) h1
  · rfl

/-- **A compressed replay is decompressed to what it was**, but for the sizes of the sections in its
header, which a raw replay does not use; unless it is larger than the reader takes, or does not
begin with a keyframe. -/
theorem decompress_compress {krpr c : Bytes} (hc : compress z krpr = .ok c) :
    ∃ h rs, krpr = krprOf h rs ∧ decompress z c =
      if krpMaxDecompressedBytes < krpr.length then .error (.error .zstdError)
      else if StartsWithKeyframe rs then .ok (krprOf (clearSizes h) rs)
      else .error (.error .firstFrameNotKeyframe) := by
  obtain ⟨h, rs, rfl, hv, hcomp⟩ := compress_eq_ok.mp hc
  have hlen := length_krpzOf h h rs
  have hne : krpzOf h rs ≠ [] := by
    intro h0
    have hle := sizeofKrpHeader_le h rs
    rw [← hlen, h0] at hle
    exact absurd hle (by decide)
  refine ⟨h, rs, rfl, ?_⟩
  rw [decompress, zstdDecompress_compress hz hne hcomp, hlen]
  split_ifs with hlarge hk
  · rfl
  · have hf := fits_of_length (h := h) (lt_of_le_of_lt (not_lt.mp hlarge) (by decide))
    rw [ok_bind, mapSections_krpzOf hv hk hf, ok_bind, buildKrpr_sectionsOf h hf]
  · have hf := fits_of_length (h := h) (lt_of_le_of_lt (not_lt.mp hlarge) (by decide))
    rw [ok_bind, mapSections_firstFrame hv hf hk, error_bind]

end

/-! ### What it costs to read a file -/

theorem length_records : ∀ rs : List Record,
    rs.length = (frames rs).length + (eventIds rs).length
  | [] => rfl
  | .event id :: rs => by
    rw [List.length_cons, length_records rs]
    rfl
  | .frame r :: rs => by
    rw [List.length_cons, length_records rs]
    exact Nat.add_right_comm ..

theorem zstdDecompress_eq_ok {z : Zstd} {src body : Bytes} (h : zstdDecompress z src = .ok body) :
    ∃ n ≤ krpMaxDecompressedBytes, z.getFrameContentSize src = some n ∧
      z.decompress n src = some body := by
  unfold zstdDecompress at h
  split_ifs at h
  rcases hn : z.getFrameContentSize src with _ | n
  · rw [hn] at h
    cases h
  · rw [hn] at h
    dsimp only at h
    split_ifs at h with hbad
    rcases hd : z.decompress n src with _ | out
    · rw [hd] at h
      cases h
    · rw [hd] at h
      obtain rfl := Except.ok.inj h
      exact ⟨n, not_lt.mp fun hlt => hbad (Or.inr hlt), rfl, hd⟩

/-- **What a file makes the reader do is bounded**, whoever wrote it: the buffer is no larger than
the limit, the calls are made, 17 bytes of the body stand behind each frame and 2 behind each event,
and the raw replay is no larger than the body. -/
theorem decompress_bounded {z : Zstd} (hz : z.Documented) {src body : Bytes} {s : Sections}
    (hbody : zstdDecompress z src = .ok body) (hs : mapSections body = .ok s) :
    body.length ≤ krpMaxDecompressedBytes ∧
      (∃ calls, forEachRecord s = .ok calls ∧ sizeofKrpHeader + 17 * calls.countP Call.isFrame +
        2 * calls.countP (fun c => !Call.isFrame c) ≤ body.length) ∧
      ∃ krpr, buildKrpr s = .ok krpr ∧ krpr.length ≤ body.length := by
  obtain ⟨n, hn, -, hd⟩ := zstdDecompress_eq_ok hbody
  obtain ⟨h, rs, tail, -, -, hf, rfl, rfl⟩ := mapSections_eq_ok.mp hs
  refine ⟨(hz.fits hd).trans hn, ⟨_, forEachRecord_sectionsOf h hf, ?_⟩,
    _, buildKrpr_sectionsOf h hf, ?_⟩
  · obtain ⟨hframes, hevents⟩ := countP_playback rs (fun _ => 0) 0
    rw [hframes, hevents, List.length_append, length_krpzOf h h, krprOf, List.length_append,
      h.size_eq, length_encodeAll, length_records]
    omega
  · rw [List.length_append, length_krpzOf h (clearSizes h)]
    exact Nat.le_add_right ..

/-! ### A sample compressor -/

/-- A frame of one raw block, which stores at most 128 KiB. -/
def storedZstd : Zstd where
  getFrameContentSize src :=
    if src.take 5 = [0x28, 0xB5, 0x2F, 0xFD, 0xA0] ∧ 12 ≤ src.length then
      some (le ((src.drop 5).take 4))
    else none
  decompress n src :=
    if (src.drop 12).length = le ((src.drop 5).take 4) ∧ (src.drop 12).length ≤ n then
      some (src.drop 12)
    else none
  compress b :=
    if b.length ≤ 2 ^ 17 then
      some ([0x28, 0xB5, 0x2F, 0xFD, 0xA0] ++
        (leBytes 4 b.length ++ (leBytes 3 (8 * b.length + 1) ++ b)))
    else none

theorem storedZstd_compress {b c : Bytes} (h : storedZstd.compress b = some c) :
    12 ≤ c.length ∧ c.take 5 = [0x28, 0xB5, 0x2F, 0xFD, 0xA0] ∧
      le ((c.drop 5).take 4) = b.length ∧ c.drop 12 = b := by
  unfold storedZstd at h
  dsimp only at h
  split_ifs at h with hsmall
  obtain rfl := Option.some.inj h
  refine ⟨?_, rfl, ?_, rfl⟩
  · simp only [List.length_append, List.length_cons, List.length_nil, length_leBytes]
    omega
  · have hsize : le (leBytes 4 b.length) = b.length := by
      rw [le_leBytes]
      exact Nat.mod_eq_of_lt (lt_of_le_of_lt hsmall (by decide))
    exact hsize

theorem storedZstd_documented : storedZstd.Documented where
  fits h := by
    unfold storedZstd at h
    dsimp only at h
    split_ifs at h with hfit
    rw [← Option.some.inj h]
    exact hfit.2
  contentSize h := by
    obtain ⟨hlen, hmagic, hsize, -⟩ := storedZstd_compress h
    exact (if_pos ⟨hmagic, hlen⟩).trans (congrArg some hsize)
  decompress_compress h := by
    obtain ⟨-, -, hsize, hb⟩ := storedZstd_compress h
    unfold storedZstd
    dsimp only
    rw [hb, hsize, if_pos ⟨rfl, le_refl _⟩]
  compress_ne_nil h := by
    obtain ⟨hlen, -⟩ := storedZstd_compress h
    exact absurd hlen (by decide)

theorem storedZstd_of_le {b : Bytes} (h : b.length ≤ 2 ^ 17) :
    ∃ c, storedZstd.compress b = some c := by
  unfold storedZstd
  dsimp only
  rw [if_pos h]
  exact ⟨_, rfl⟩

theorem stored_sample : ∃ c, storedZstd.compress (krpzOf sampleHeader sampleRecords) = some c := by
  refine storedZstd_of_le ?_
  rw [length_krpzOf sampleHeader sampleHeader, length_krprOf_sample]
  decide

theorem compress_sample : ∃ c, compress storedZstd (krprOf sampleHeader sampleRecords) = .ok c := by
  obtain ⟨c, hc⟩ := stored_sample
  exact ⟨c, compress_eq_ok.mpr ⟨sampleHeader, sampleRecords, rfl, sampleHeader_valid, hc⟩⟩

theorem decompress_compress_sample :
    ∃ c, compress storedZstd (krprOf sampleHeader sampleRecords) = .ok c ∧
      ∃ h rs, krprOf sampleHeader sampleRecords = krprOf h rs ∧ decompress storedZstd c =
        if krpMaxDecompressedBytes < (krprOf sampleHeader sampleRecords).length then
          .error (.error .zstdError)
        else if StartsWithKeyframe rs then .ok (krprOf (clearSizes h) rs)
        else .error (.error .firstFrameNotKeyframe) := by
  obtain ⟨c, hc⟩ := compress_sample
  exact ⟨c, hc, decompress_compress storedZstd_documented hc⟩

theorem decompress_bounded_sample : ∃ src body s, zstdDecompress storedZstd src = .ok body ∧
    mapSections body = .ok s ∧ body.length ≤ krpMaxDecompressedBytes ∧
      (∃ calls, forEachRecord s = .ok calls ∧ sizeofKrpHeader + 17 * calls.countP Call.isFrame +
        2 * calls.countP (fun c => !Call.isFrame c) ≤ body.length) ∧
      ∃ krpr, buildKrpr s = .ok krpr ∧ krpr.length ≤ body.length := by
  have hlen : (krprOf sampleHeader sampleRecords).length < 2 ^ 32 := by
    rw [length_krprOf_sample]
    decide
  have hsmall : (krpzOf sampleHeader sampleRecords).length = 277 :=
    (length_krpzOf ..).trans length_krprOf_sample
  obtain ⟨c, hstored⟩ := stored_sample
  have hne : krpzOf sampleHeader sampleRecords ≠ [] := fun h0 => by
    rw [h0] at hsmall
    cases hsmall
  have hbody := zstdDecompress_compress storedZstd_documented hne hstored
  rw [if_neg (by rw [hsmall]; decide)] at hbody
  have hs := mapSections_krpzOf sampleHeader_valid sampleRecords_keyframe (fits_of_length hlen)
  exact ⟨_, _, _, hbody, hs, decompress_bounded storedZstd_documented hbody hs⟩

end KzGlobal.Krp.Archive
