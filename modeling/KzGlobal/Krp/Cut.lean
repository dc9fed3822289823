import KzGlobal.Krp.Archive

/-! # Raw replays that are cut

A server that stops or a disk that is full leaves the beginning of a raw replay. A raw replay
delimits its own records, so the codec never takes a part of one for another run: of each beginning
of a replay it reads the records that are whole, in their order, or says that the replay is
truncated (`cut_replay`). -/

namespace KzGlobal.Krp.Cut

open KzGlobal.Lib.Loop KzGlobal.Krp.Format KzGlobal.Krp.Codec KzGlobal.Krp.Records
open KzGlobal.Krp.Compress KzGlobal.Krp.Sections KzGlobal.Krp.Walk KzGlobal.Krp.Roundtrip
open KzGlobal.Krp.Archive

/-- What the reader is told of a raw replay once `krp::compress` has transposed it: the checks and
the transpose of the one, the checks and the walk of the other. -/
def readBack (krpr : Bytes) : Result (List Call) := do
  validateHeader krpr
  let body ← buildKrpzBody krpr
  let s ← mapSections body
  forEachRecord s

/-- A beginning of `n` bytes ends with a record. -/
def EndsRecord (rs : List Record) (n : ℕ) : Prop :=
  ∃ pre post, rs = pre ++ post ∧ n = sizeofKrpHeader + (encodeAll pre).length

/-- The fault of a replay that is cut. -/
abbrev Truncated (e : Fault) : Prop := e = .error .truncated

/-! ### One record -/

theorem transposeRecord_truncated {krpr : Bytes} {c : Columns} (h : c.ptr < krpr.length)
    (ht : KnownType krpr[c.ptr]) : Sat (transposeRecord krpr c) (fun _ => True) Truncated := by
  have hpush (ks : List ℕ) : ∀ c : Columns,
      Sat (ks.foldlM (pushByte krpr) c) (fun _ => True) Truncated := by
    induction ks with
    | nil => exact fun _ => sat_ok.mpr trivial
    | cons k ks ih =>
      intro c
      rw [List.foldlM_cons]
      refine sat_bind (Q := fun _ => True) ?_ fun c' _ => ih c'
      unfold pushByte
      split_ifs with hend
      · exact sat_error.mpr rfl
      · rw [readAt_of_lt (not_le.mp hend), ok_bind]
        exact sat_ok.mpr trivial
  rcases ht with hevent | hframe
  · unfold transposeRecord
    rw [readAt_of_lt h, ok_bind, hevent, if_neg (by decide), if_pos rfl]
    split_ifs with hend
    · exact sat_error.mpr rfl
    · rw [readAt_of_lt (not_le.mp hend), ok_bind]
      exact sat_ok.mpr trivial
  · by_cases hmask : krpr.length < c.ptr + 1 + sizeofKrpMask
    · unfold transposeRecord
      rw [readAt_of_lt h, ok_bind, if_pos hframe, if_pos hmask]
      exact sat_error.mpr rfl
    · have hd := List.drop_eq_getElem_cons h
      rw [← List.take_append_drop sizeofKrpMask (krpr.drop (c.ptr + 1))] at hd
      rw [transposeRecord_frame hframe hd (by rw [List.length_take, List.length_drop]; omega)]
      exact hpush _ _

/-! ### All records -/

theorem eq_of_cons_starts {b : UInt8} {rest : Bytes} {r : Record} {rs : List Record}
    (h : b :: rest <+: encodeAll (r :: rs)) : b = r.type := by
  rw [encodeAll_cons] at h
  cases r with
  | event id => exact (List.cons_prefix_cons.mp h).1
  | frame r => exact (List.cons_prefix_cons.mp h).1

theorem transposeLoop_truncated {krpr : Bytes} : ∀ (n : ℕ) (c : Columns) (rs : List Record),
    krpr.drop c.ptr <+: encodeAll rs →
      Sat (transposeLoop krpr n c) (fun _ => True) Truncated
  | 0, _, _, _ => sat_ok.mpr trivial
  | n + 1, c, rs, hrs => by
    rw [transposeLoop]
    split_ifs with hlt
    swap
    · exact sat_ok.mpr trivial
    have hd := List.drop_eq_getElem_cons hlt
    cases rs with
    | nil =>
      rw [hd] at hrs
      exact absurd (List.prefix_nil.mp hrs) (List.cons_ne_nil _ _)
    | cons r rs =>
      have htype : KnownType krpr[c.ptr] := by
        rw [hd] at hrs
        rw [eq_of_cons_starts hrs]
        exact Record_knownType r
      have hrecord := transposeRecord_truncated hlt htype
      refine sat_bind (Q := fun c' => krpr.drop c'.ptr <+: encodeAll rs)
        ⟨fun {c'} hc' => ?_, hrecord.of_error⟩ fun c' hc' => transposeLoop_truncated n c' rs hc'
      obtain ⟨r', rest, hread, rfl⟩ := transposeRecord_eq_ok.mp hc'
      obtain ⟨tail, htail⟩ := hrs
      rw [hread, encodeAll_cons, List.append_assoc] at htail
      obtain ⟨-, hrest⟩ := Record.encode_append_inj htail
      rw [push_ptr, drop_add_of_drop hread]
      exact ⟨tail, hrest⟩

theorem prefix_of_encodeAll : ∀ {pre rs : List Record}, encodeAll pre <+: encodeAll rs → pre <+: rs
  | [], _, _ => List.nil_prefix
  | r :: pre, [], h => by
    have hnil : encodeAll (r :: pre) = [] := List.prefix_nil.mp h
    exact absurd (eq_nil_of_encodeAll hnil) (List.cons_ne_nil _ _)
  | r :: pre, r' :: rs, h => by
    obtain ⟨tail, htail⟩ := h
    rw [encodeAll_cons, encodeAll_cons, List.append_assoc] at htail
    obtain ⟨rfl, hrest⟩ := Record.encode_append_inj htail
    exact List.cons_prefix_cons.mpr ⟨rfl, prefix_of_encodeAll ⟨tail, hrest⟩⟩

/-! ### The cut replay -/

section Cut
variable (h : KrpHeader) (rs : List Record) {n : ℕ}

theorem take_krprOf (hn : sizeofKrpHeader ≤ n) :
    (krprOf h rs).take n = h.bytes ++ (encodeAll rs).take (n - sizeofKrpHeader) := by
  rw [krprOf, List.take_append, List.take_of_length_le (by rw [h.size_eq]; exact hn), h.size_eq]

theorem take_krprOf_of_ends {pre post : List Record} (hrs : rs = pre ++ post) :
    (krprOf h rs).take (sizeofKrpHeader + (encodeAll pre).length) = krprOf h pre := by
  have hall : encodeAll rs = encodeAll pre ++ encodeAll post := by
    rw [hrs, encodeAll, List.flatMap_append]
    rfl
  rw [take_krprOf h rs (Nat.le_add_right ..), Nat.add_sub_cancel_left, hall, List.take_left, krprOf]

theorem buildKrpzBody_truncated (hn : sizeofKrpHeader ≤ n) (hle : n ≤ (krprOf h rs).length)
    (hends : ¬ EndsRecord rs n) :
    buildKrpzBody ((krprOf h rs).take n) = .error (.error .truncated) := by
  have hcut := take_krprOf h rs hn
  have hlen : ((krprOf h rs).take n).length = n := List.length_take_of_le hle
  have hheader : sizeofKrpHeader ≤ ((krprOf h rs).take n).length := by rw [hlen]; exact hn
  have hsat : Sat (buildKrpzBody ((krprOf h rs).take n)) (fun _ => True) Truncated := by
    refine sat_bind (Q := fun _ => True) (transposeLoop_truncated _ _ rs ?_) fun c _ => ?_
    · dsimp only
      rw [hcut, List.drop_left' h.size_eq]
      exact List.take_prefix _ _
    · unfold readHeader
      rw [dif_pos hheader, ok_bind]
      exact sat_ok.mpr trivial
  cases hbuild : buildKrpzBody ((krprOf h rs).take n) with
  | error e => rw [hsat.of_error hbuild]
  | ok body =>
    obtain ⟨h', pre, hpre, -⟩ := (buildKrpzBody_eq_ok hheader).mp hbuild
    have hsize := congrArg List.length hpre
    rw [hlen, krprOf, List.length_append, h'.size_eq] at hsize
    rw [hcut] at hpre
    obtain ⟨-, henc⟩ := List.append_inj hpre (h.size_eq.trans h'.size_eq.symm)
    have hprefix : encodeAll pre <+: encodeAll rs := henc ▸ List.take_prefix _ _
    obtain ⟨post, hpost⟩ := prefix_of_encodeAll hprefix
    exact absurd ⟨pre, post, hpost.symm, hsize⟩ hends

theorem readBack_krprOf {h : KrpHeader} {rs : List Record} (hv : ValidHeader h)
    (hk : StartsWithKeyframe rs) (hl : (krprOf h rs).length < 2 ^ 32) :
    readBack (krprOf h rs) = .ok (playback (fun _ => 0) 0 rs) := by
  have hvalid : validateHeader (krprOf h rs) = .ok () :=
    validateHeader_eq_ok.mpr ⟨h, encodeAll rs, rfl, hv⟩
  rw [readBack, hvalid, ok_bind, buildKrpzBody_krprOf, ok_bind,
    mapSections_krpzOf hv hk (fits_of_length hl), ok_bind,
    forEachRecord_sectionsOf h (fits_of_length hl)]

theorem readBack_nil {h : KrpHeader} (hv : ValidHeader h) :
    readBack (krprOf h []) = .error (.error .firstFrameNotKeyframe) := by
  have hvalid : validateHeader (krprOf h []) = .ok () := validateHeader_eq_ok.mpr ⟨h, [], rfl, hv⟩
  have hfit : Fits [] := by
    unfold Fits
    decide
  have hkey : ¬ StartsWithKeyframe [] := by decide
  rw [readBack, hvalid, ok_bind, buildKrpzBody_krprOf, ok_bind, mapSections_firstFrame hv hfit hkey,
    error_bind]

end Cut

/-- **A cut replay is read up to the cut.** Of the beginnings of a well-formed raw replay those that
end with a record are read as a beginning of the run; a header alone and every other cut are
errors. -/
theorem cut_replay {h : KrpHeader} {rs : List Record} (hv : ValidHeader h)
    (hk : StartsWithKeyframe rs) (hl : (krprOf h rs).length < 2 ^ 32) :
    ∃ calls, readBack (krprOf h rs) = .ok calls ∧
      (∀ n ≤ (krprOf h rs).length, ¬ EndsRecord rs n →
        readBack ((krprOf h rs).take n) = .error (.error .truncated)) ∧
      (∀ n, EndsRecord rs n → sizeofKrpHeader < n →
        ∃ calls', readBack ((krprOf h rs).take n) = .ok calls' ∧ calls' <+: calls) ∧
      readBack ((krprOf h rs).take sizeofKrpHeader) = .error (.error .firstFrameNotKeyframe) := by
  refine ⟨_, readBack_krprOf hv hk hl, fun n hle hends => ?_, fun n hends hlt => ?_, ?_⟩
  · by_cases hn : sizeofKrpHeader ≤ n
    · have hcut := take_krprOf h rs hn
      have hvalid : validateHeader ((krprOf h rs).take n) = .ok () :=
        validateHeader_eq_ok.mpr ⟨h, _, hcut, hv⟩
      rw [readBack, hvalid, ok_bind, buildKrpzBody_truncated h rs hn hle hends, error_bind]
    · have hshort : ((krprOf h rs).take n).length < sizeofKrpHeader := by
        rw [List.length_take_of_le hle]
        exact not_le.mp hn
      rw [readBack, validateHeader, if_pos hshort, error_bind]
  · obtain ⟨pre, post, rfl, rfl⟩ := hends
    rw [take_krprOf_of_ends h _ rfl]
    have hstarts : StartsWithKeyframe pre := by
      cases pre with
      | nil => exact absurd hlt (by simp [encodeAll])
      | cons r pre =>
        obtain ⟨f, rest, hrs, hkey⟩ := hk
        rw [(List.cons.inj hrs).1]
        exact ⟨f, pre, rfl, hkey⟩
    have hlen : (krprOf h pre).length ≤ (krprOf h (pre ++ post)).length := by
      rw [← take_krprOf_of_ends h (pre ++ post) rfl]
      exact List.length_take_le' ..
    refine ⟨_, readBack_krprOf hv hstarts (hlen.trans_lt hl), ?_⟩
    rw [playback_append]
    exact List.prefix_append _ _
  · have hnil := take_krprOf_of_ends h rs (List.nil_append rs).symm
    rw [show sizeofKrpHeader = sizeofKrpHeader + (encodeAll []).length from rfl, hnil]
    exact readBack_nil hv

theorem cut_replay_sample :
    ∃ calls, readBack (krprOf sampleHeader sampleRecords) = .ok calls ∧
      (∀ n ≤ (krprOf sampleHeader sampleRecords).length, ¬ EndsRecord sampleRecords n →
        readBack ((krprOf sampleHeader sampleRecords).take n) = .error (.error .truncated)) ∧
      (∀ n, EndsRecord sampleRecords n → sizeofKrpHeader < n →
        ∃ calls', readBack ((krprOf sampleHeader sampleRecords).take n) = .ok calls' ∧
          calls' <+: calls) ∧
      readBack ((krprOf sampleHeader sampleRecords).take sizeofKrpHeader) =
        .error (.error .firstFrameNotKeyframe) :=
  cut_replay sampleHeader_valid sampleRecords_keyframe (by rw [length_krprOf_sample]; decide)

end KzGlobal.Krp.Cut
