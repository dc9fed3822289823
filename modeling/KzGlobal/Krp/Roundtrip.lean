import KzGlobal.Krp.Walk

/-! # Round trips of the codec and the bounds of its reads

* `krpr_roundtrip`: a well-formed raw replay that begins with a keyframe is transposed, accepted
  and transposed back, with its section lengths zeroed;
* `body_roundtrip`, `mapSections_canonical`: every accepted body is the transpose of the raw replay
  that `build_krpr` makes of it, so a body is accepted exactly when it begins with such a transpose;
* `codec_in_bounds`: no function of the codec reads outside its input, and the walkers consume the
  sections to their ends. -/

namespace KzGlobal.Krp.Roundtrip

open KzGlobal.Lib.Loop KzGlobal.Lib.Packed KzGlobal.Lib.Sparse
open KzGlobal.Krp.Format KzGlobal.Krp.Codec KzGlobal.Krp.Records KzGlobal.Krp.Compress
open KzGlobal.Krp.Sections KzGlobal.Krp.Walk

/-! ### Zeroed section lengths -/

theorem headerOf_clearSizes (h : KrpHeader) (rs : List Record) :
    headerOf (clearSizes h) rs = headerOf h rs := by
  refine KrpHeader.ext (List.ext_getElem? fun i => ?_)
  refine KrpHeader.getElem?_setNum_congr _ fun h4 => KrpHeader.getElem?_setNum_congr _ fun h3 =>
    KrpHeader.getElem?_setNum_congr _ fun h2 => KrpHeader.getElem?_setNum_congr _ fun h1 => ?_
  unfold clearSizes
  rw [KrpHeader.getElem?_setNum_of_out _ _ h4, KrpHeader.getElem?_setNum_of_out _ _ h3,
    KrpHeader.getElem?_setNum_of_out _ _ h2, KrpHeader.getElem?_setNum_of_out _ _ h1]

theorem krpzOf_clearSizes (h : KrpHeader) (rs : List Record) :
    krpzOf (clearSizes h) rs = krpzOf h rs := by
  rw [krpzOf, headerOf_clearSizes]; rfl

/-! ### Raw replay, body, raw replay -/

theorem sizeofKrpHeader_le (h : KrpHeader) (rs : List Record) :
    sizeofKrpHeader ≤ (krprOf h rs).length := by
  rw [krprOf, List.length_append, h.size_eq]; omega

theorem buildKrpzBody_krprOf (h : KrpHeader) (rs : List Record) :
    buildKrpzBody (krprOf h rs) = .ok (krpzOf h rs) :=
  (buildKrpzBody_eq_ok (sizeofKrpHeader_le h rs)).mpr ⟨h, rs, rfl, rfl⟩

theorem fits_of_length {h : KrpHeader} {rs : List Record} (hl : (krprOf h rs).length < 2 ^ 32) :
    Fits rs :=
  Fits.of_length (h := h) (by rwa [length_krpzOf h h])

theorem mapSections_krpzOf {h : KrpHeader} {rs : List Record} (hv : ValidHeader h)
    (hk : StartsWithKeyframe rs) (hf : Fits rs) :
    mapSections (krpzOf h rs) = .ok (sectionsOf h rs) :=
  mapSections_eq_ok.mpr ⟨h, rs, [], hv, hk, hf, (List.append_nil _).symm, rfl⟩

/-- **Decompression undoes compression**: the transpose of a well-formed raw replay is as long,
accepted, and transposed back to the replay with its section lengths zeroed. -/
theorem krpr_roundtrip (h : KrpHeader) (rs : List Record) (hv : ValidHeader h)
    (hk : StartsWithKeyframe rs) (hl : (krprOf h rs).length < 2 ^ 32) :
    ∃ body s, buildKrpzBody (krprOf h rs) = .ok body ∧ body.length = (krprOf h rs).length ∧
      mapSections body = .ok s ∧ buildKrpr s = .ok (krprOf (clearSizes h) rs) :=
  ⟨krpzOf h rs, sectionsOf h rs, buildKrpzBody_krprOf h rs, length_krpzOf h h rs,
    mapSections_krpzOf hv hk (fits_of_length hl), buildKrpr_sectionsOf h (fits_of_length hl)⟩

/-- A header with the magic and the version alone. -/
def sampleHeader : KrpHeader := (KrpHeader.zero.setNum .magic krpMagic).setNum .version 1

/-- A keyframe that selects bytes 0 and 111 and sets the unused bit 127, then an event. -/
def sampleRecords : List Record :=
  [.frame ⟨true, [1, 0, 0, 0, 0, 0, 0, 0, 0, 0, 0, 0, 0, 128, 0, 128], [5, 6], rfl, by decide⟩,
    .event krpEventGocheck]

theorem sampleHeader_valid : ValidHeader sampleHeader := by
  unfold ValidHeader sampleHeader
  rw [KrpHeader.num_setNum_of_ne (by decide), KrpHeader.num_setNum, KrpHeader.num_setNum]
  decide

theorem sampleRecords_keyframe : StartsWithKeyframe sampleRecords := ⟨_, _, rfl, rfl⟩

theorem length_krprOf_sample : (krprOf sampleHeader sampleRecords).length = 277 := by
  rw [krprOf, List.length_append, sampleHeader.size_eq]
  decide

theorem krpr_roundtrip_sample : ∃ body s,
    buildKrpzBody (krprOf sampleHeader sampleRecords) = .ok body ∧
      body.length = (krprOf sampleHeader sampleRecords).length ∧ mapSections body = .ok s ∧
      buildKrpr s = .ok (krprOf (clearSizes sampleHeader) sampleRecords) :=
  krpr_roundtrip sampleHeader sampleRecords sampleHeader_valid sampleRecords_keyframe
    (by rw [length_krprOf_sample]; decide)

/-! ### Body, raw replay, body -/

theorem take_totalSize {body : Bytes} {s : Sections} (hm : mapSections body = .ok s) :
    ∃ h rs, ValidHeader h ∧ StartsWithKeyframe rs ∧ Fits rs ∧ s = sectionsOf h rs ∧
      body.take (totalSize s.header) = krpzOf h rs := by
  obtain ⟨h, rs, tail, hv, hk, hf, rfl, rfl⟩ := mapSections_eq_ok.mp hm
  refine ⟨h, rs, hv, hk, hf, rfl, ?_⟩
  change (krpzOf h rs ++ tail).take (totalSize (headerOf h rs)) = _
  rw [headerOf_total h hf, List.take_left]

theorem body_roundtrip {body : Bytes} {s : Sections} (hm : mapSections body = .ok s) :
    ∃ krpr, buildKrpr s = .ok krpr ∧
      buildKrpzBody krpr = .ok (body.take (totalSize s.header)) := by
  obtain ⟨h, rs, -, -, hf, rfl, htake⟩ := take_totalSize hm
  refine ⟨_, buildKrpr_sectionsOf h hf, ?_⟩
  rw [htake, buildKrpzBody_krprOf, krpzOf_clearSizes]

theorem mapSections_of_take {header h : KrpHeader} {body : Bytes} {rs : List Record}
    (hlen : body.length < 2 ^ 32) (hv : ValidHeader h) (hk : StartsWithKeyframe rs)
    (htake : body.take (totalSize header) = krpzOf h rs) : ∃ s, mapSections body = .ok s := by
  have hle : (krpzOf h rs).length ≤ body.length := by
    rw [← htake, List.length_take]; omega
  refine ⟨sectionsOf h rs, mapSections_eq_ok.mpr ⟨h, rs, body.drop (totalSize header), hv, hk,
    Fits.of_length (h := h) (by omega), ?_, rfl⟩⟩
  rw [← htake, List.take_append_drop]

/-- **The reader accepts only canonical bodies**: an accepted body is the transpose of the raw
replay made of it, and a body is accepted exactly when the bytes its header claims are the transpose
of a well-formed raw replay that begins with a keyframe. -/
theorem mapSections_canonical (body : Bytes) (hlen : body.length < 2 ^ 32) :
    (∀ s, mapSections body = .ok s → ∃ krpr, buildKrpr s = .ok krpr ∧
      buildKrpzBody krpr = .ok (body.take (totalSize s.header))) ∧
    ((∃ s, mapSections body = .ok s) ↔ ∃ header, readHeader body = .ok header ∧
      ∃ h rs, ValidHeader h ∧ StartsWithKeyframe rs ∧
        buildKrpzBody (krprOf h rs) = .ok (body.take (totalSize header))) := by
  refine ⟨fun s hm => body_roundtrip hm, fun ⟨s, hm⟩ => ?_, ?_⟩
  · obtain ⟨h, rs, hv, hk, hf, rfl, htake⟩ := take_totalSize hm
    refine ⟨headerOf h rs, ?_, h, rs, hv, hk, ?_⟩
    · obtain ⟨h', rs', tail, -, -, -, rfl, hs⟩ := mapSections_eq_ok.mp hm
      have hh : headerOf h rs = headerOf h' rs' := congrArg Sections.header hs
      rw [krpzOf, List.append_assoc, readHeader_append, hh]
    · rw [buildKrpzBody_krprOf]
      exact congrArg Except.ok htake.symm
  · rintro ⟨header, -, h, rs, hv, hk, hb⟩
    rw [buildKrpzBody_krprOf] at hb
    exact mapSections_of_take hlen hv hk (Except.ok.inj hb).symm

theorem mapSections_canonical_sample :
    (∀ s, mapSections (krpzOf sampleHeader sampleRecords) = .ok s → ∃ krpr, buildKrpr s = .ok krpr ∧
      buildKrpzBody krpr =
        .ok ((krpzOf sampleHeader sampleRecords).take (totalSize s.header))) ∧
    ((∃ s, mapSections (krpzOf sampleHeader sampleRecords) = .ok s) ↔ ∃ header,
      readHeader (krpzOf sampleHeader sampleRecords) = .ok header ∧
      ∃ h rs, ValidHeader h ∧ StartsWithKeyframe rs ∧ buildKrpzBody (krprOf h rs) =
        .ok ((krpzOf sampleHeader sampleRecords).take (totalSize header))) :=
  mapSections_canonical (krpzOf sampleHeader sampleRecords)
    (by rw [length_krpzOf sampleHeader sampleHeader, length_krprOf_sample]; decide)

/-! ### Bounds -/

/-- Where the column after column `k` begins, or the data section ends. -/
def nextColumn (s : Sections) (k : ℕ) : ℕ :=
  if k + 1 < sizeofKrpFrame then columnCursors s (k + 1) else s.data.length

/-- **A column's cursor ends where the next column begins.** -/
theorem cursorAt_end (h : KrpHeader) (rs : List Record) {k : ℕ} (hk : k < sizeofKrpFrame) :
    cursorAt (sectionsOf h rs) rs k = nextColumn (sectionsOf h rs) k := by
  have hc : cursorAt (sectionsOf h rs) rs k = start (sectionsOf h rs).colSizes (k + 1) := by
    rw [cursorAt, columnCursors_eq _ hk, start_succ]; rfl
  rw [hc, nextColumn]
  split_ifs with hlt
  · exact (columnCursors_eq _ hlt).symm
  · have hlast : k + 1 = sizeofKrpFrame := by omega
    rw [hlast]
    exact (length_concat (columnOf rs) sizeofKrpFrame).symm

/-- A call of `on_frame`. -/
def Call.isFrame : Call → Bool
  | .onFrame _ _ _ => true
  | .onEvent _ _ => false

theorem countP_playback : ∀ (rs : List Record) (b : ℕ → UInt8) (t : ℕ),
    (playback b t rs).countP Call.isFrame = (frames rs).length ∧
      (playback b t rs).countP (fun c => !Call.isFrame c) = (eventIds rs).length
  | [], _, _ => ⟨rfl, rfl⟩
  | .event id :: rs, b, t => by
    obtain ⟨hf, he⟩ := countP_playback rs b (t + 1)
    rw [playback, List.countP_cons_of_neg Bool.false_ne_true, List.countP_cons_of_pos rfl, hf, he]
    exact ⟨rfl, rfl⟩
  | .frame r :: rs, b, t => by
    obtain ⟨hf, he⟩ := countP_playback rs (applyFrame b r) (t + 1)
    rw [playback, List.countP_cons_of_pos rfl, List.countP_cons_of_neg Bool.false_ne_true, hf, he]
    exact ⟨rfl, rfl⟩

/-- **The walkers consume the sections to their ends.** -/
theorem walkers_in_bounds {body : Bytes} {s : Sections} (hm : mapSections body = .ok s) :
    ∃ w r, recordWalk s = .ok w ∧ rawWalk s = .ok r ∧
      (∀ k < sizeofKrpFrame, w.col k = nextColumn s k ∧ r.col k = nextColumn s k) ∧
      s.events.length = s.header.num .sizeEvents ∧
      w.ev = s.events.length ∧ r.ev = s.events.length ∧
      w.calls.countP Call.isFrame = s.numFrames ∧
      w.calls.countP (fun c => !Call.isFrame c) = s.header.num .sizeEvents := by
  obtain ⟨h, rs, -, -, hf, rfl, -⟩ := take_totalSize hm
  have he : (eventIds rs).length = (headerOf h rs).num .sizeEvents :=
    (headerOf_sizeEvents h hf).symm
  obtain ⟨hcf, hce⟩ := countP_playback rs (fun _ => 0) 0
  exact ⟨_, _, recordWalk_eq h hf, rawWalk_eq h hf,
    fun k hk => ⟨cursorAt_end h rs hk, cursorAt_end h rs hk⟩, he, rfl, rfl, hcf, hce.trans he⟩

/-- **The codec reads inside its input and consumes what it was given.** -/
theorem codec_in_bounds (bytes : Bytes) :
    mapSections bytes ≠ .error .oob ∧
    (validateHeader bytes = .ok () → buildKrpzBody bytes ≠ .error .oob) ∧
    ∀ s, mapSections bytes = .ok s →
      ∃ w r, recordWalk s = .ok w ∧ rawWalk s = .ok r ∧
        (∀ k < sizeofKrpFrame, w.col k = nextColumn s k ∧ r.col k = nextColumn s k) ∧
        s.events.length = s.header.num .sizeEvents ∧
        w.ev = s.events.length ∧ r.ev = s.events.length ∧
        w.calls.countP Call.isFrame = s.numFrames ∧
        w.calls.countP (fun c => !Call.isFrame c) = s.header.num .sizeEvents := by
  refine ⟨mapSections_ne_oob bytes, fun hv => ?_, fun s hm => walkers_in_bounds hm⟩
  obtain ⟨h, rest, rfl, -⟩ := validateHeader_eq_ok.mp hv
  exact buildKrpzBody_ne_oob (by rw [List.length_append, h.size_eq]; omega)

end KzGlobal.Krp.Roundtrip
