import KzGlobal.Playback.Threads
import KzGlobal.Replay.LocalUid

/-! # The time of a parsed replay

The parser thread takes the time of a run from the eight characters behind the class of its name,
and the selection from the whole field. Of a longer time the first eight digits are left
(`msTotal_finishName`), so the two readers agree exactly on the times of at most eight digits
(`readers_agree_iff`). -/

namespace KzGlobal.Playback.MsTotal

open KzGlobal.Lib.Numeral KzGlobal.Lib.PosixPath KzGlobal.Krp.Format KzGlobal.Replay.Text
  KzGlobal.Replay.Writer
  KzGlobal.Replay.Selection KzGlobal.Replay.LocalUid KzGlobal.Playback.Threads

/-! ### The source -/

/-- `std::stoul` for an `unsigned long` of 32 bits: it throws where there is no number and where the
number has more. -/
def stoul (s : Bytes) : Option ℕ :=
  let text := cstr s
  let r := scanNumber text
  if r.2.2 = text then none
  else if 2 ^ 32 ≤ r.2.1 then none
  else some (if r.1 then (2 ^ 32 - r.2.1) % 2 ^ 32 else r.2.1)

/-- The time in milliseconds that `kz_pb_parser_thread` extracts from the name of a file. -/
def msTotal (filename : Bytes) : Option ℕ :=
  if filename.length < 10 then none else stoul ((filename.drop 2).take 8)

/-! ### Eight characters -/

theorem scanNumber_lt (s : Bytes) : (scanNumber s).2.1 < 10 ^ s.length := by
  have hlt (body : Bytes) (hb : body.length ≤ s.length) :
      (body.takeWhile isdigit).foldl (fun n c => n * 10 + digitValue c) 0 < 10 ^ s.length := by
    have hdec : ∀ c ∈ body.takeWhile isdigit, isdigit c = true :=
      fun c hc => List.mem_takeWhile_imp hc
    have hlen : (body.takeWhile isdigit).length ≤ s.length :=
      (List.takeWhile_prefix _).length_le.trans hb
    have hv := decimal.value_lt hdec
    rw [foldl_eq_value, Nat.zero_mul, Nat.zero_add]
    exact hv.trans_le (Nat.pow_le_pow_right (by decide) hlen)
  have hbody : (s.dropWhile isspace).length ≤ s.length := (List.dropWhile_suffix _).length_le
  have htail : (s.dropWhile isspace).tail.length ≤ s.length := by
    rw [List.length_tail]
    omega
  unfold scanNumber
  dsimp only
  by_cases hsign : (s.dropWhile isspace).head? = some 45 ∨ (s.dropWhile isspace).head? = some 43
  · rw [if_pos hsign]
    split_ifs
    · exact Nat.pow_pos (by decide)
    · exact hlt _ htail
  · rw [if_neg hsign]
    split_ifs
    · exact Nat.pow_pos (by decide)
    · exact hlt _ hbody

theorem strtoul_of_lt {s : Bytes} (h : (scanNumber s).2.1 < 2 ^ 32) : strtoul s =
    (if (scanNumber s).1 then (2 ^ 32 - (scanNumber s).2.1) % 2 ^ 32 else (scanNumber s).2.1,
      (scanNumber s).2.2) := by
  unfold strtoul
  dsimp only
  rw [if_neg (Nat.not_le.mpr h)]

theorem stoul_eq {s : Bytes} (h0 : (0 : UInt8) ∉ s) (h8 : s.length ≤ 8) :
    stoul s = if (strtoul s).2 = s then none else some (strtoul s).1 := by
  have htext : cstr s = s := by
    refine List.takeWhile_eq_self_iff.mpr fun c hc => ?_
    have hne : c ≠ 0 := fun hc0 => h0 (hc0 ▸ hc)
    simpa using hne
  have hlt : (scanNumber s).2.1 < 2 ^ 32 := by
    have hscan := scanNumber_lt s
    have hpow : 10 ^ s.length ≤ 10 ^ 8 := Nat.pow_le_pow_right (by decide) h8
    omega
  rw [stoul, strtoul_of_lt hlt, htext]
  dsimp only
  rw [if_neg (Nat.not_le.mpr hlt)]

/-- **A parsed replay** by the time of its name, which holds no NUL. -/
theorem parseFile_eq (unzstd : Bytes → Option Bytes) {file : Path} (src : Bytes)
    (h0 : (0 : UInt8) ∉ file.filename) : parseFile unzstd file src =
      if src = [] ∨ extension file.filename ≠ str ".krpz" then none
      else (msTotal file.filename).bind fun ms =>
        if 1 < (parsePlayback unzstd src).2.length then
          some {
            filepath := file
            header := (parsePlayback unzstd src).1
            frames := (parsePlayback unzstd src).2
            timeMs := ms }
        else none := by
  have hfield : (0 : UInt8) ∉ (file.filename.drop 2).take 8 :=
    fun h => h0 (List.mem_of_mem_drop (List.mem_of_mem_take h))
  unfold parseFile msTotal
  dsimp only
  rw [stoul_eq hfield (List.length_take_le ..)]
  split_ifs
  all_goals rfl

/-- **The time of a parsed replay** is the one of its name, which holds no NUL. -/
theorem timeMs_parseFile {unzstd : Bytes → Option Bytes} {file : Path} {src : Bytes}
    {pb : KrpPlayback}
    (h0 : (0 : UInt8) ∉ file.filename) (h : parseFile unzstd file src = some pb) :
    msTotal file.filename = some pb.timeMs := by
  rw [parseFile_eq unzstd src h0] at h
  by_cases hfile : src = [] ∨ extension file.filename ≠ str ".krpz"
  · rw [if_pos hfile] at h
    exact nomatch h
  · rw [if_neg hfile] at h
    obtain ⟨ms, hms, hpb⟩ := Option.bind_eq_some_iff.mp h
    split_ifs at hpb with hframes
    rw [hms, ← Option.some.inj hpb]

/-! ### Names that the FINISH branch builds -/

theorem length_decimal8_iff {t : ℕ} (ht : t < 2 ^ 32) : (decimal8 t).length = 8 ↔ t < 10 ^ 8 := by
  constructor
  · intro hlen
    have hv := decimal.value_lt (isdigit_decimal8 t)
    rwa [value_decimal8 ht, hlen] at hv
  · intro h8
    obtain ⟨k, hk, hle⟩ := pow_le_of_digits 9 t []
    have hk8 : k < 8 := by
      refine (Nat.pow_lt_pow_iff_right (by decide : 1 < 10)).mp ?_
      omega
    rw [List.length_nil] at hk
    unfold decimal8
    dsimp only
    rw [List.length_append, List.length_replicate, hk]
    omega

/-- **What the parser thread extracts**: the first eight digits of the time. -/
theorem msTotal_finishName (cls : ℕ) {t : ℕ} (ht : t < 2 ^ 32) (rest : Bytes) :
    msTotal (finishName cls t rest) = some (t / 10 ^ ((decimal8 t).length - 8)) := by
  have h8 := (length_decimal8 t).1
  have hfield : ((finishName cls t rest).drop 2).take 8 = (decimal8 t).take 8 := by
    change (decimal8 t ++ 95 :: (rest ++ str ".krpz")).take 8 = (decimal8 t).take 8
    exact List.take_append_of_le_length h8
  have hlong : ¬ (finishName cls t rest).length < 10 := by
    unfold finishName
    rw [List.length_cons, List.length_cons, List.length_append]
    omega
  have hdec : ∀ c ∈ (decimal8 t).take 8, isdigit c = true :=
    fun c hc => isdigit_decimal8 t c (List.mem_of_mem_take hc)
  have hlen : ((decimal8 t).take 8).length = 8 := by
    rw [List.length_take]
    omega
  have hne : (decimal8 t).take 8 ≠ [] := fun h0 => by
    rw [h0, List.length_nil] at hlen
    omega
  have hvalue : value digitValue 10 ((decimal8 t).take 8) = t / 10 ^ ((decimal8 t).length - 8) := by
    rw [value_take decimal.base fun c hc => decimal.lt (isdigit_decimal8 t c hc), value_decimal8 ht]
  have hlt := decimal.value_lt hdec
  rw [hlen] at hlt
  unfold msTotal stoul
  dsimp only
  rw [if_neg hlong, hfield, cstr_digits hdec, scanNumber_digits hne hdec]
  dsimp only
  rw [if_neg hne.symm, if_neg (by omega), if_neg Bool.false_ne_true, hvalue]

theorem div_pow_eq_iff {t : ℕ} (ht : t < 2 ^ 32) :
    t / 10 ^ ((decimal8 t).length - 8) = t ↔ t < 10 ^ 8 := by
  constructor
  · intro heq
    by_contra h8
    have hlen := (length_decimal8 t).1
    have hne : (decimal8 t).length ≠ 8 := fun h => h8 ((length_decimal8_iff ht).mp h)
    have hpow : 1 < 10 ^ ((decimal8 t).length - 8) := Nat.one_lt_pow (by omega) (by decide)
    have hless := Nat.div_lt_self (by omega : 0 < t) hpow
    omega
  · intro h8
    rw [(length_decimal8_iff ht).mpr h8, Nat.sub_self, Nat.pow_zero, Nat.div_one]

/-- **The two readers of a time agree** exactly on the times of at most eight digits. -/
theorem readers_agree_iff (gochecks : ℕ) {timeMs ts : ℕ} {sid : Bytes}
    (h : NamedRun timeMs sid ts) :
    (∃ cls ms,
      kzReplayParseUid (uidStr gochecks timeMs sid ts false 0 ++ str ".krpz") = some (cls, ms) ∧
      msTotal (uidStr gochecks timeMs sid ts false 0 ++ str ".krpz") = some ms) ↔
      timeMs < 10 ^ 8 := by
  have hcls : (if 0 < gochecks then 1 else 0) < 10 := by split_ifs <;> decide
  rw [(uidStr_eq_uidText gochecks timeMs ts h.fits).2, uidText_krpz, parse_finishName hcls h.time,
    msTotal_finishName _ h.time, ← div_pow_eq_iff h.time]
  constructor
  · rintro ⟨cls, ms, hparse, htotal⟩
    cases hparse
    exact Option.some.inj htotal
  · intro heq
    exact ⟨_, timeMs, rfl, congrArg some heq⟩

section Sample

theorem sampleRun_agrees : ∃ cls ms,
    kzReplayParseUid (uidStr 0 12345 (str "0123") 36 false 0 ++ str ".krpz") = some (cls, ms) ∧
      msTotal (uidStr 0 12345 (str "0123") 36 false 0 ++ str ".krpz") = some ms :=
  (readers_agree_iff 0 sampleRun_named).mpr (by decide)

/-- **A run of a hundred thousand seconds** is parsed as one of ten thousand. -/
theorem long_run_misread : NamedRun 100000000 (str "0123") 36 ∧
    kzReplayParseUid (uidStr 1 100000000 (str "0123") 36 false 0 ++ str ".krpz") =
    some (1, 100000000) ∧
    msTotal (uidStr 1 100000000 (str "0123") 36 false 0 ++ str ".krpz") = some 10000000 :=
  ⟨⟨by decide, by decide, by decide, by decide⟩, by decide +kernel, by decide +kernel⟩

end Sample

end KzGlobal.Playback.MsTotal
