import KzGlobal.Replay.Capture
import KzGlobal.Replay.Uid

/-! # What a uid says of its run

The uid that a FINISH formats holds class, time, player and start without loss, and the name of its
compressed file is read back as it was meant (`names_lossless`). The answer to an ADD_RECORD finds
the saved file under the uid exactly if the prefix that the plugin gave, if any, is a character of a
segment (`uid_accepted_iff`). -/

namespace KzGlobal.Replay.LocalUid

open KzGlobal.Lib.Numeral KzGlobal.Krp.Format KzGlobal.Replay.Text KzGlobal.Replay.Writer
  KzGlobal.Replay.Paths KzGlobal.Replay.Saves KzGlobal.Replay.Selection KzGlobal.Replay.Uid

/-! ### The buffer of `to_base36` -/

/-- The loop of `to_base36` with the place of `p` in `buff`, and nothing where it would write before
the buffer. -/
def toBase36Loop : ℕ → ℕ → Bytes → Option (ℕ × Bytes)
  | 0, _, _ => none
  | p + 1, value, acc =>
    let acc := digit (value % 36) :: acc
    if 0 < value / 36 then toBase36Loop p (value / 36) acc else some (p, acc)

/-- **The loop stays in a buffer** that the number fits. -/
theorem toBase36Loop_digits : ∀ (p n : ℕ) (acc : Bytes), n < 36 ^ (p + 1) →
    ∃ p', toBase36Loop (p + 1) n acc = some (p', digits 36 (p + 1) n acc)
  | p, n, acc, hn => by
    unfold toBase36Loop digits
    dsimp only
    by_cases h0 : 0 < n / 36
    · rw [if_pos h0, if_pos h0]
      obtain ⟨p, rfl⟩ : ∃ k, p = k + 1 := Nat.exists_eq_succ_of_ne_zero fun h => by
        subst h
        omega
      refine toBase36Loop_digits p (n / 36) _ ?_
      rw [Nat.pow_succ] at hn
      omega
    · rw [if_neg h0, if_neg h0]
      exact ⟨p, rfl⟩

/-- **The digits denote the number.** -/
theorem value_toBase36 {ts : ℕ} (h : ts < 2 ^ 64) : value value36 36 (toBase36 ts) = ts := by
  have hlt : ts < 36 ^ (14 + 1) := h.trans (by norm_num)
  rw [toBase36, value_digits (by decide) (fun d hd => (isdigit36_digit hd).2) 14 ts [] hlt]
  simp

/-! ### Names -/

/-- What `snprintf` formats for a uid, before it is cut to its buffer. -/
def uidText (gochecks timeMs : ℕ) (sid : Bytes) (ts : ℕ) : Bytes :=
  (if 0 < gochecks then 49 else 48) ::
    (str "_" ++ decimal8 timeMs ++ str "_" ++ sid ++ str "_" ++ toBase36 ts)

/-- A run as the uid names it: a time of 32 bits, a valid player that fits its buffer and a start of
64 bits. -/
structure NamedRun (timeMs : ℕ) (sid : Bytes) (ts : ℕ) : Prop where
  time : timeMs < 2 ^ 32
  valid : kzWsValidReplaySegment sid = true
  fits : sid.length ≤ 34
  start : ts < 2 ^ 64

theorem uidText_eq (gochecks timeMs : ℕ) (sid : Bytes) (ts : ℕ) :
    uidText gochecks timeMs sid ts =
    (if 0 < gochecks then 49 else 48) :: uidTail timeMs sid ts := by
  have hstr : str "_" = [95] := rfl
  simp [uidText, uidTail, hstr]

/-- **A uid without a prefix is the whole text**, with room for the NUL. -/
theorem uidStr_eq_uidText (gochecks timeMs ts : ℕ) {sid : Bytes} (hs : sid.length ≤ 34) :
    (uidText gochecks timeMs sid ts).length < 64 ∧
      uidStr gochecks timeMs sid ts false 0 = uidText gochecks timeMs sid ts := by
  have hl := length_uidTail_le timeMs ts hs
  rw [uidText_eq, uidStr_form gochecks timeMs ts hs, List.length_cons]
  exact ⟨by omega, rfl⟩

theorem uidText_krpz (gochecks timeMs : ℕ) (sid : Bytes) (ts : ℕ) :
    uidText gochecks timeMs sid ts ++ str ".krpz" =
    finishName (if 0 < gochecks then 1 else 0) timeMs (sid ++ 95 :: toBase36 ts) := by
  have hflag : (if 0 < gochecks then (49 : UInt8) else 48) =
      digit (if 0 < gochecks then 1 else 0) := by
    split_ifs
    · rfl
    · rfl
  rw [uidText_eq, hflag, uidTail, finishName]
  simp

/-- **What a uid says of its run**: class, time, player and start. -/
theorem uidText_inj {gochecks gochecks' timeMs timeMs' ts ts' : ℕ} {sid sid' : Bytes}
    (h : NamedRun timeMs sid ts)
    (h' : NamedRun timeMs' sid' ts')
    (heq : uidText gochecks timeMs sid ts = uidText gochecks' timeMs' sid' ts') :
    (0 < gochecks ↔ 0 < gochecks') ∧ timeMs = timeMs' ∧ sid = sid' ∧ ts = ts' := by
  rw [uidText_eq, uidText_eq, List.cons.injEq] at heq
  obtain ⟨hflag, htail⟩ := heq
  obtain ⟨htime, hsid, hstart⟩ := uidTail_inj htail
  refine ⟨?_, ?_, hsid, ?_⟩
  · by_cases h0 : 0 < gochecks
    · by_cases h1 : 0 < gochecks'
      · exact iff_of_true h0 h1
      · rw [if_pos h0, if_neg h1] at hflag
        cases hflag
    · by_cases h1 : 0 < gochecks'
      · rw [if_neg h0, if_pos h1] at hflag
        cases hflag
      · exact iff_of_false h0 h1
  · rw [← value_decimal8 h.time, htime, value_decimal8 h'.time]
  · rw [← value_toBase36 h.start, hstart, value_toBase36 h'.start]

/-- **Names encode a run without loss.** The uid fits its buffer, the name of the compressed file
gives class and time, `to_base36` stays in its buffer and its digits denote the start, and different
runs have different uids. -/
theorem names_lossless (gochecks : ℕ) {timeMs ts : ℕ} {sid : Bytes} (h : NamedRun timeMs sid ts) :
    ((uidText gochecks timeMs sid ts).length < 64 ∧
      uidStr gochecks timeMs sid ts false 0 = uidText gochecks timeMs sid ts) ∧
    kzReplayParseUid (uidStr gochecks timeMs sid ts false 0 ++ str ".krpz") =
      some (if 0 < gochecks then 1 else 0, timeMs) ∧
    ((∃ p, toBase36Loop 15 ts [] = some (p, toBase36 ts)) ∧ value value36 36 (toBase36 ts) = ts) ∧
    ∀ (gochecks' : ℕ) {timeMs' ts' : ℕ} {sid' : Bytes}, NamedRun timeMs' sid' ts' →
      uidStr gochecks timeMs sid ts false 0 = uidStr gochecks' timeMs' sid' ts' false 0 →
        (0 < gochecks ↔ 0 < gochecks') ∧ timeMs = timeMs' ∧ sid = sid' ∧ ts = ts' := by
  obtain ⟨hfits, hwhole⟩ := uidStr_eq_uidText gochecks timeMs ts h.fits
  refine ⟨⟨hfits, hwhole⟩, ?_, ⟨?_, value_toBase36 h.start⟩,
    fun gochecks' timeMs' ts' sid' h' heq => ?_⟩
  · rw [hwhole, uidText_krpz]
    refine parse_finishName ?_ h.time _
    split_ifs <;> decide
  · exact toBase36Loop_digits 14 ts [] (h.start.trans (by norm_num))
  · rw [hwhole, (uidStr_eq_uidText gochecks' timeMs' ts' h'.fits).2] at heq
    exact uidText_inj h h' heq

section Sample

theorem sampleRun_named : NamedRun 12345 (str "0123") 36 :=
  ⟨by decide, by decide, by decide, by decide⟩

theorem sampleRun_lossless :
    kzReplayParseUid (uidStr 0 12345 (str "0123") 36 false 0 ++ str ".krpz") = some (0, 12345) ∧
    value value36 36 (toBase36 36) = 36 :=
  ⟨(names_lossless 0 sampleRun_named).2.1, (names_lossless 0 sampleRun_named).2.2.1.2⟩

end Sample

/-! ### The answer to an ADD_RECORD -/

theorem segment_iff {c : UInt8} {tail : Bytes} (hlen : 2 ≤ tail.length)
    (htail : ∀ b ∈ tail, segmentChar b = true) :
    kzWsValidReplaySegment (c :: tail) = true ↔ segmentChar c = true := by
  have hdot : c :: tail ≠ str "." := fun h => by
    have hl := congrArg List.length h
    have hone : (str ".").length = 1 := rfl
    rw [List.length_cons, hone] at hl
    omega
  have hdots : c :: tail ≠ str ".." := fun h => by
    have hl := congrArg List.length h
    have htwo : (str "..").length = 2 := rfl
    rw [List.length_cons, htwo] at hl
    omega
  have hall : tail.all segmentChar = true := List.all_eq_true.mpr htail
  rw [kzWsValidReplaySegment, List.all_cons, hall]
  simp [hdot, hdots]

theorem two_le_uidTail (timeMs : ℕ) (sid : Bytes) (ts : ℕ) :
    2 ≤ (uidTail timeMs sid ts).length := by
  have htime := (length_decimal8 timeMs).1
  unfold uidTail
  rw [List.length_cons, List.length_append]
  omega

/-- **The uid of a FINISH is a segment** exactly if its first character is one of a segment. -/
theorem segment_uidStr_iff (gochecks timeMs ts : ℕ) {sid : CString 35}
    (hs : kzWsValidReplaySegment sid.bytes = true)
    (charPrefix : UInt8) :
    kzWsValidReplaySegment (uidStr gochecks timeMs sid.bytes ts false charPrefix) = true ↔
      charPrefix = 0 ∨ segmentChar charPrefix = true := by
  have hl : sid.bytes.length ≤ 34 := Nat.le_of_lt_succ sid.fits
  rw [uidStr_form gochecks timeMs ts hl, segment_iff (two_le_uidTail ..)
    (segmentChar_uidTail timeMs ts hs), uidHead]
  by_cases h0 : charPrefix = 0
  · subst h0
    refine iff_of_true ?_ (Or.inl rfl)
    rw [if_neg (by decide), if_neg Bool.false_ne_true]
    split_ifs
    · rfl
    · rfl
  · have hpos : 0 < charPrefix := UInt8.pos_iff_ne_zero.mpr h0
    rw [if_pos hpos, or_iff_right h0]

/-- What an ADD_RECORD says of the uid. -/
theorem addRecord_of_finishOutputs {env : Env} {timeMs : ℕ} {submit : Bool} {sid : CString 35}
    {mapname uid npath : Bytes} {s : Slot} {r : AddRecord}
    (h : .addRecord r ∈ finishOutputs env timeMs submit sid mapname uid npath s) :
    r.localUid = uid ∧ env.noSubmit = false := by
  unfold finishOutputs at h
  split_ifs at h with hno
  · rw [List.mem_singleton] at h
    cases h
  · rw [List.mem_singleton, Output.addRecord.injEq] at h
    rw [not_or] at hno
    exact ⟨by rw [h], by simpa using hno.2⟩

/-- **The uid of a submitted run is accepted** by the handler of the answer, and the path that the
handler builds from it is the one the file was renamed to, exactly if there is no prefix or it is a
character of a segment. -/
theorem uid_accepted_iff (amxxDatadir : CString 127) (s : Slot) (i : Input) {timeMs : ℕ}
    {submit : Bool} {charPrefix : UInt8} {sid : CString 35} {nickname : CString 32} {r : AddRecord}
    (hsig : i.signal = .finish timeMs submit charPrefix sid nickname)
    (hr : .addRecord r ∈ (step (gDataDir amxxDatadir) s i).2) :
    (kzWsValidReplaySegment r.localUid = true ∧
      .saved r.localUid (replayPath (gDataDir amxxDatadir) r.localUid (str ".krpr")) ∈
        (step (gDataDir amxxDatadir) s i).2) ↔ charPrefix = 0 ∨ segmentChar charPrefix = true := by
  rcases step_finish
    (gDataDir amxxDatadir) s i with hnone | ⟨t, sub, cp, sid', nick, ts, mapname, s',
    hsig', hv, hout⟩
  · rw [hnone] at hr
    cases hr
  · rw [hsig] at hsig'
    injection hsig' with ht hsub hcp hsid hnick
    subst ht hsub hcp hsid hnick
    have hlen : (finishUid s i timeMs charPrefix sid ts).length ≤ 63 := length_uidStr_le ..
    rw [hout, List.mem_cons, or_iff_right nofun] at hr
    obtain ⟨huid, hban⟩ := addRecord_of_finishOutputs hr
    have hpath : replayPath (gDataDir amxxDatadir) r.localUid (str ".krpr") =
        (finishPath (gDataDir amxxDatadir) (finishUid s i timeMs charPrefix sid ts)).take 254 := by
      rw [take_finishPath_uid (shortDir_gDataDir amxxDatadir) hlen, huid]
      rfl
    rw [hout, hpath, huid, and_iff_left List.mem_cons_self, finishUid, hban]
    exact segment_uidStr_iff _ _ _ hv charPrefix

section Sample
open Capture

theorem sampleDatadir_fits : (str "addons/amxmodx/data").length < 127 := by decide

theorem sampleDatadir_no_nul : (0 : UInt8) ∉ str "addons/amxmodx/data" := by decide

/-- The data directory of AMX Mod X. -/
def sampleDatadir : CString 127 :=
  ⟨str "addons/amxmodx/data", sampleDatadir_fits, sampleDatadir_no_nul⟩

/-- A run is in progress. -/
def sampleSlot : Slot := next (gDataDir sampleDatadir) (.init fun _ => none) sampleStart

/-- The ADD_RECORD of a run with a uid. -/
def sampleRecord (uid : Bytes) : AddRecord := ⟨str "STEAM_0:1:23", str "a", 12345, 0, 0, uid⟩

theorem sampleFinish_accepted : kzWsValidReplaySegment (str "0_00012345_0123_10") = true ∧
    .saved (str "0_00012345_0123_10")
    (replayPath (gDataDir sampleDatadir) (str "0_00012345_0123_10") (str ".krpr")) ∈
      (step (gDataDir sampleDatadir) sampleSlot sampleFinish).2 :=
  (uid_accepted_iff sampleDatadir sampleSlot sampleFinish
    (r := sampleRecord (str "0_00012345_0123_10")) rfl
    (by decide +kernel)).mpr (Or.inl rfl)

/-- **A prefix that is no character of a segment**: the file is saved and the record sent, and the
answer is refused. -/
theorem prefix_refused : ∃ r, .addRecord r ∈ (step (gDataDir sampleDatadir) sampleSlot
    (sampleInput (.finish 12345 true 35 samplePlayer sampleNickname))).2 ∧
      kzWsValidReplaySegment r.localUid = false :=
  ⟨sampleRecord (str "#_00012345_0123_10"), by decide +kernel, by decide⟩

end Sample

end KzGlobal.Replay.LocalUid
