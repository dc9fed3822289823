import Mathlib.Data.UInt
import KzGlobal.Lib.Numeral
import KzGlobal.Replay.Paths

/-! # The names of replays and the best of a directory

A name gives the class and the time of its run (`kz_replay_parse_uid`), and the best replay of a map
is the first one listed of the least class and time. The names that the FINISH branch builds are
read as they were meant (`parse_finishName`). As texts they are in the order of their runs but for
times of different widths: there the first digits of the longer one decide (`finishName_lt_iff`). -/

namespace KzGlobal.Replay.Selection

open KzGlobal.Lib.Numeral KzGlobal.Lib.FileProgram KzGlobal.Krp.Format
open KzGlobal.Replay.Text KzGlobal.Replay.Writer KzGlobal.Replay.Paths

/-! ### Numbers -/

/-- `isspace`, in the C locale. -/
def isspace (c : UInt8) : Bool := (9 ≤ c && c ≤ 13) || c == 32

/-- `isdigit`. -/
def isdigit (c : UInt8) : Bool := 48 ≤ c && c ≤ 57

/-- What a decimal digit stands for. -/
def digitValue (c : UInt8) : ℕ := c.toNat - 48

/-- The number at the beginning of a C string in base 10, with its sign and where it ends. Without a
digit it ends where the string begins. -/
def scanNumber (s : Bytes) : Bool × ℕ × Bytes :=
  let body := s.dropWhile isspace
  let neg := body.head? = some 45
  let ds := if body.head? = some 45 ∨ body.head? = some 43 then body.tail else body
  let number := ds.takeWhile isdigit
  if number = [] then (false, 0, s)
  else (neg, number.foldl (fun n c => n * 10 + digitValue c) 0, ds.dropWhile isdigit)

/-- `strtol(s, &end, 10)` for a `long` of 32 bits, and what is left at `end`. -/
def strtol (s : Bytes) : ℤ × Bytes :=
  let r := scanNumber s
  (if r.1 then max (-r.2.1) (-2 ^ 31) else min r.2.1 (2 ^ 31 - 1), r.2.2)

/-- `strtoul(s, &end, 10)` for an `unsigned long` of 32 bits, and what is left at `end`. -/
def strtoul (s : Bytes) : ℕ × Bytes :=
  let r := scanNumber s
  (if 2 ^ 32 ≤ r.2.1 then 2 ^ 32 - 1 else if r.1 then (2 ^ 32 - r.2.1) % 2 ^ 32 else r.2.1, r.2.2)

/-! ### The source -/

/-- Class and time of a run, from the name of its file. -/
def kzReplayParseUid (filename : Bytes) : Option (ℕ × ℕ) :=
  let stem := if (str ".krpz").isSuffixOf filename then filename.take (filename.length - 5)
    else filename
  let classStr := stem.takeWhile (· ≠ 95)
  match stem.dropWhile (· ≠ 95) with
  | [] => none
  | _ :: rest =>
    let timeStr := rest.takeWhile (· ≠ 95)
    if classStr = [] ∨ rest.dropWhile (· ≠ 95) = [] ∨ timeStr = [] then none
    else
      let cls := strtol (cstr classStr)
      let ms := strtoul (cstr timeStr)
      if cls.2 ≠ [] ∨ cls.1 < 0 ∨ 9 < cls.1 then none
      else if ms.2 ≠ [] then none
      else some (cls.1.toNat, ms.1)

/-- `kz_replay_uid_is_better`: the smaller first number, or the smaller second one. -/
def kzReplayUidIsBetter (a b : ℕ × ℕ) : Bool := if a.1 ≠ b.1 then a.1 < b.1 else a.2 < b.2

/-- One entry of the directory: the best file so far, with its class and time. -/
def pickBest (best : Option (Bytes × ℕ × ℕ)) (entry : Bytes) : Option (Bytes × ℕ × ℕ) :=
  if extension entry ≠ str ".krpz" then best
  else
    match kzReplayParseUid (filename entry) with
    | none => best
    | some run =>
      match best with
      | none => some (entry, run)
      | some b => if kzReplayUidIsBetter run b.2 then some (entry, run) else best

/-- A directory that is not there has no entries. -/
def kzReplayFindBestInDir (mapDir : Bytes) : Files (Option Bytes) := do
  let entries ← listDirectory mapDir
  pure ((entries.foldl pickBest none).map Prod.fst)

/-! ### Decimal numbers -/

theorem isdigit_iff {c : UInt8} : isdigit c = true ↔ 48 ≤ c.toNat ∧ c.toNat ≤ 57 := by
  rw [isdigit, Bool.and_eq_true, decide_eq_true_iff, decide_eq_true_iff, UInt8.le_iff_toNat_le,
    UInt8.le_iff_toNat_le]
  rfl

/-- **The decimal digits.** -/
theorem decimal : Digits digitValue 10 fun c => isdigit c = true where
  base := by decide
  lt h := by
    rw [isdigit_iff] at h
    unfold digitValue
    omega
  lt_iff hc hd := by
    rw [isdigit_iff] at hc hd
    rw [UInt8.lt_iff_toNat_lt]
    unfold digitValue
    omega
  inj hc hd h := by
    rw [isdigit_iff] at hc hd
    unfold digitValue at h
    exact UInt8.toNat_inj.mp (by omega)

theorem forall_digits {P : UInt8 → Prop} {base : ℕ} (hb : 0 < base) (h : ∀ d < base, P (digit d)) :
    ∀ (fuel value : ℕ) {acc : Bytes}, (∀ c ∈ acc, P c) → ∀ c ∈ digits base fuel value acc, P c
  | 0, _, _, ha => ha
  | fuel + 1, value, acc, ha => by
    have ha' : ∀ c ∈ digit (value % base) :: acc, P c :=
      List.forall_mem_cons.mpr ⟨h _ (Nat.mod_lt _ hb), ha⟩
    rw [digits]
    split_ifs
    · exact forall_digits hb h fuel _ ha'
    · exact ha'

theorem isdigit_digit {d : ℕ} (h : d < 10) :
    isdigit (digit d) = true ∧ digitValue (digit d) = d := by
  interval_cases d <;> decide

/-- **The digits of a number give it back**, in front of what follows them. -/
theorem value_digits {val : UInt8 → ℕ} {base : ℕ} (hb : 1 < base)
    (hval : ∀ d < base, val (digit d) = d) :
    ∀ (fuel n : ℕ) (acc : Bytes), n < base ^ (fuel + 1) →
      value val base (digits base (fuel + 1) n acc) = n * base ^ acc.length + value val base acc
  | fuel, n, acc, hn => by
    have hd := hval (n % base) (Nat.mod_lt n (by omega))
    have hacc : value val base (digit (n % base) :: acc) =
        n % base * base ^ acc.length + value val base acc := by
      rw [value_cons, hd]
    have hsplit : n / base * base + n % base = n := Nat.div_add_mod' n base
    rw [digits]
    split_ifs with h0
    · obtain ⟨fuel, rfl⟩ : ∃ k, fuel = k + 1 := Nat.exists_eq_succ_of_ne_zero fun h => by
        subst h
        rw [Nat.zero_add, Nat.pow_one] at hn
        rw [Nat.div_eq_of_lt hn] at h0
        omega
      have hquot : n / base < base ^ (fuel + 1) := by
        rw [Nat.div_lt_iff_lt_mul (by omega)]
        rwa [Nat.pow_succ] at hn
      rw [value_digits hb hval fuel (n / base) _ hquot, hacc, List.length_cons]
      conv_rhs => rw [← hsplit]
      ring
    · have hquot : n / base = 0 := Nat.eq_zero_of_not_pos h0
      rw [hquot, Nat.zero_mul, Nat.zero_add] at hsplit
      rw [hacc, hsplit]

theorem length_digits_le (base : ℕ) : ∀ (fuel value : ℕ) (acc : Bytes),
    (digits base fuel value acc).length ≤ fuel + acc.length
  | 0, _, _ => by simp [digits]
  | fuel + 1, value, acc => by
    rw [digits]
    split_ifs
    · have h := length_digits_le base fuel (value / base) (digit (value % base) :: acc)
      rw [List.length_cons] at h
      omega
    · rw [List.length_cons]
      omega

theorem isdigit_decimal8 (t : ℕ) : ∀ c ∈ decimal8 t, isdigit c = true := by
  intro c hc
  rcases List.mem_append.mp hc with hc | hc
  · rw [List.eq_of_mem_replicate hc]
    rfl
  · exact forall_digits (P := fun c => isdigit c = true) (by decide)
      (fun d hd => (isdigit_digit hd).1) 10 t (by simp) c hc

theorem value_replicate_zero (n : ℕ) : value digitValue 10 (List.replicate n 48) = 0 := by
  induction n with
  | zero => rfl
  | succ n ih =>
    rw [List.replicate_succ, value_cons, ih]
    simp [digitValue]

/-- **The time field gives the time.** -/
theorem value_decimal8 {t : ℕ} (h : t < 2 ^ 32) : value digitValue 10 (decimal8 t) = t := by
  unfold decimal8
  dsimp only
  rw [value_append, value_digits (by decide) (fun d hd => (isdigit_digit hd).2) 9 t [] (by omega),
    value_replicate_zero]
  simp

theorem length_decimal8 (t : ℕ) : 8 ≤ (decimal8 t).length ∧ (decimal8 t).length ≤ 10 := by
  have h := length_digits_le 10 10 t []
  unfold decimal8
  simp only [List.length_append, List.length_replicate]
  simp only [List.length_nil] at h
  omega

/-! ### What is read of a name -/

/-- The name of the file of a run: class, time, and the player and the start as far as they are
kept. -/
def finishName (cls timeMs : ℕ) (rest : Bytes) : Bytes :=
  digit cls :: 95 :: (decimal8 timeMs ++ 95 :: (rest ++ str ".krpz"))

theorem not_isspace_of_isdigit {c : UInt8} (h : isdigit c = true) :
    isspace c = false ∧ c ≠ 45 ∧ c ≠ 43 ∧ c ≠ 95 ∧ c ≠ 0 := by
  rw [isdigit_iff] at h
  refine ⟨?_, ?_, ?_, ?_, ?_⟩
  · rw [Bool.eq_false_iff, isspace, Ne, Bool.or_eq_true, Bool.and_eq_true, decide_eq_true_iff,
      decide_eq_true_iff, UInt8.le_iff_toNat_le, UInt8.le_iff_toNat_le, beq_iff_eq]
    rintro (⟨-, h13⟩ | rfl)
    · change c.toNat ≤ 13 at h13
      omega
    · exact absurd h.1 (by decide)
  all_goals
    rintro rfl
    exact absurd h (by decide)

theorem sep_not_mem_decimal8 (t : ℕ) : (95 : UInt8) ∉ decimal8 t := fun h =>
  (not_isspace_of_isdigit (isdigit_decimal8 t _ h)).2.2.2.1 rfl

theorem scanNumber_digits {s : Bytes} (h0 : s ≠ []) (h : ∀ c ∈ s, isdigit c = true) :
    scanNumber s = (false, value digitValue 10 s, []) := by
  obtain ⟨c, t, rfl⟩ := List.exists_cons_of_ne_nil h0
  obtain ⟨hsp, h45, h43, -⟩ := not_isspace_of_isdigit (h c List.mem_cons_self)
  have hbody : (c :: t).dropWhile isspace = c :: t := by rw [List.dropWhile_cons, hsp]; rfl
  have htake : (c :: t).takeWhile isdigit = c :: t := List.takeWhile_eq_self_iff.mpr h
  have hdrop : (c :: t).dropWhile isdigit = [] := List.dropWhile_eq_nil_iff.mpr h
  unfold scanNumber
  simp [hbody, htake, hdrop, h45, h43, foldl_eq_value, value_cons]

theorem cstr_digits {s : Bytes} (h : ∀ c ∈ s, isdigit c = true) : cstr s = s := by
  refine List.takeWhile_eq_self_iff.mpr fun c hc => ?_
  simpa using (not_isspace_of_isdigit (h c hc)).2.2.2.2

theorem decimal8_ne_nil (t : ℕ) : decimal8 t ≠ [] := by
  intro h0
  have hlen := (length_decimal8 t).1
  rw [h0, List.length_nil] at hlen
  omega

theorem strtol_digit {cls : ℕ} (hc : cls < 10) : strtol (cstr [digit cls]) = (↑cls, []) := by
  obtain ⟨hcd, hcv⟩ := isdigit_digit hc
  have hall : ∀ c ∈ [digit cls], isdigit c = true := by simpa using hcd
  rw [cstr_digits hall, strtol, scanNumber_digits (by simp) hall]
  simp only [value_singleton, hcv]
  simp
  omega

theorem strtoul_decimal8 {t : ℕ} (ht : t < 2 ^ 32) : strtoul (cstr (decimal8 t)) = (t, []) := by
  have hdec := isdigit_decimal8 t
  rw [cstr_digits hdec, strtoul, scanNumber_digits (decimal8_ne_nil t) hdec]
  simp only [value_decimal8 ht]
  rw [if_neg (by omega)]
  rfl

theorem stem_finishName (cls t : ℕ) (rest : Bytes) :
    (if (str ".krpz").isSuffixOf (finishName cls t rest) then
      (finishName cls t rest).take ((finishName cls t rest).length - 5)
      else finishName cls t rest) =
      digit cls :: 95 :: (decimal8 t ++ 95 :: rest) := by
  have hn : finishName cls t rest = (digit cls :: 95 :: (decimal8 t ++ 95 :: rest)) ++
      str ".krpz" := by
    simp [finishName]
  have hsuffix : (str ".krpz").isSuffixOf (finishName cls t rest) = true := by
    rw [List.isSuffixOf_iff_suffix, hn]
    exact List.suffix_append ..
  rw [if_pos hsuffix, hn, List.length_append]
  exact List.take_left

/-- **The class and the time of a name are those of its run.** -/
theorem parse_finishName {cls t : ℕ} (hc : cls < 10) (ht : t < 2 ^ 32) (rest : Bytes) :
    kzReplayParseUid (finishName cls t rest) = some (cls, t) := by
  have hd95 : (95 : UInt8) ∉ [digit cls] := by
    rw [List.mem_singleton]
    exact (not_isspace_of_isdigit (isdigit_digit hc).1).2.2.2.1.symm
  -- the two fields
  have h1 : (digit cls :: 95 :: (decimal8 t ++ 95 :: rest)).takeWhile (· ≠ 95) = [digit cls] :=
    takeWhile_ne hd95 _
  have h2 : (digit cls :: 95 :: (decimal8 t ++ 95 :: rest)).dropWhile (· ≠ 95) =
      95 :: (decimal8 t ++ 95 :: rest) := dropWhile_ne hd95 _
  have h3 : (decimal8 t ++ 95 :: rest).takeWhile (· ≠ 95) = decimal8 t :=
    takeWhile_ne (sep_not_mem_decimal8 t) rest
  unfold kzReplayParseUid
  dsimp only
  rw [stem_finishName, h1, h2]
  dsimp only
  rw [h3, if_neg (by simp [decimal8_ne_nil]), strtol_digit hc, strtoul_decimal8 ht]
  simp
  omega

/-! ### The names of the FINISH branch -/

/-- The name of the compressed file of a run that the FINISH branch saves, with its class flag. -/
def BuiltName (dataDir name : Bytes) : Prop :=
  ∃ (gochecks timeMs ts : ℕ) (steamidShort : CString 35), timeMs < 2 ^ 32 ∧
    kzWsValidReplaySegment steamidShort.bytes = true ∧
    name = filename (replaceExtension
      (finishPath dataDir (uidStr gochecks timeMs steamidShort.bytes ts false 0)) (str ".krpz"))

theorem slash_not_mem_toBase36 (ts : ℕ) : (47 : UInt8) ∉ toBase36 ts := by
  refine fun h => forall_digits (P := fun c => c ≠ 47) (by decide : 0 < 36)
    (fun d hd => ?_) 15 ts (by simp)
    47 h rfl
  interval_cases d <;> decide

theorem uidStr_eq (gochecks t ts : ℕ) {sid : Bytes} (hs : kzWsValidReplaySegment sid = true) :
    ∃ rest, uidStr gochecks t sid ts false 0 =
        (if 0 < gochecks then 49 else 48) :: 95 :: (decimal8 t ++ 95 :: rest) ∧
        (47 : UInt8) ∉ rest := by
  have hl := (length_decimal8 t).2
  obtain ⟨k, hk⟩ : ∃ k, 63 = (decimal8 t).length + (k + 1) + 1 + 1 :=
    ⟨60 - (decimal8 t).length, by omega⟩
  refine ⟨(sid ++ str "_" ++ toBase36 ts).take k, ?_, fun h => ?_⟩
  · have hstr : str "_" = [95] := rfl
    rw [uidStr]
    simp only [Bool.false_eq_true, if_false, hstr]
    rw [hk]
    simp [List.take_succ_cons, List.take_length_add_append]
  · have h := List.mem_of_mem_take h
    rw [List.mem_append, List.mem_append] at h
    rcases h with (h | h) | h
    · exact no_slash_of_segment hs h
    · exact absurd h (by decide)
    · exact slash_not_mem_toBase36 ts h

theorem filename_krpz (dataDir : Bytes) {uid : Bytes} (h0 : uid ≠ []) (h47 : (47 : UInt8) ∉ uid) :
    ∃ stem, (stem = uid ∨ ∃ tail, uid = stem ++ 46 :: tail) ∧ (47 : UInt8) ∉ stem ++ str ".krpz" ∧
      filename (replaceExtension (finishPath dataDir uid) (str ".krpz")) = stem ++ str ".krpz" := by
  obtain ⟨stem, hne, hstem, he⟩ := replaceExtension_stem h47 h0 (replaysDir dataDir)
  have h47s : (47 : UInt8) ∉ stem := fun h => h47 <| by
    rcases hstem with rfl | ⟨tail, rfl⟩
    · exact h
    · exact List.mem_append_left _ h
  have hname : (47 : UInt8) ∉ stem ++ str ".krpz" := by
    rw [List.mem_append, not_or]
    exact ⟨h47s, by decide⟩
  refine ⟨stem, hstem, hname, ?_⟩
  have hdot : replaceExtension (replaysDir dataDir ++ 47 :: (stem ++ str ".krpr")) (str ".krpz") =
      replaysDir dataDir ++ 47 :: (stem ++ str ".krpz") :=
    replaceExtension_dot hne h47s (by decide) (by decide) _ _
  rw [finishPath, joinPath_replaysDir _ h47, he, hdot, filename_append hname]

/-- How a name begins. -/
def nameStart (cls t : ℕ) : Bytes := digit cls :: 95 :: (decimal8 t ++ [95])

theorem nameStart_append (cls t : ℕ) (rest : Bytes) :
    nameStart cls t ++ (rest ++ str ".krpz") = finishName cls t rest := by
  simp [nameStart, finishName]

theorem mem_nameStart {cls t : ℕ} (hc : cls < 10) {c : UInt8} (h : c ∈ nameStart cls t) :
    isdigit c = true ∨ c = 95 := by
  simp only [nameStart, List.mem_cons, List.mem_append, List.not_mem_nil, or_false] at h
  rcases h with rfl | rfl | h | rfl
  · exact Or.inl (isdigit_digit hc).1
  · exact Or.inr rfl
  · exact Or.inl (isdigit_decimal8 t c h)
  · exact Or.inr rfl

/-- **A name that the FINISH branch builds** begins with the class and the time. -/
theorem builtName_eq {dataDir name : Bytes} (h : BuiltName dataDir name) :
    ∃ cls t rest, cls < 2 ∧ t < 2 ^ 32 ∧ (47 : UInt8) ∉ name ∧ name = finishName cls t rest := by
  obtain ⟨gochecks, t, ts, sid, ht, hs, hn⟩ := h
  obtain ⟨rest, huid, h47r⟩ := uidStr_eq gochecks t ts hs
  obtain ⟨cls, hcls, hflag⟩ : ∃ cls, cls < 2 ∧
      (if 0 < gochecks then (49 : UInt8) else 48) = digit cls := by
    split_ifs
    · exact ⟨1, by decide, rfl⟩
    · exact ⟨0, by decide, rfl⟩
  have hstart : uidStr gochecks t sid.bytes ts false 0 = nameStart cls t ++ rest := by
    rw [huid, hflag, nameStart]
    simp
  have hnot (c : UInt8) (hd : isdigit c = false) (h95 : c ≠ 95) : c ∉ nameStart cls t := fun h => by
    rcases mem_nameStart (by omega) h with h | h
    · rw [h] at hd
      cases hd
    · exact h95 h
  have h47 : (47 : UInt8) ∉ uidStr gochecks t sid.bytes ts false 0 := by
    rw [hstart, List.mem_append, not_or]
    exact ⟨hnot 47 (by decide) (by decide), h47r⟩
  obtain ⟨stem, hstem, h47s, hname⟩ := filename_krpz dataDir (by rw [huid]; simp) h47
  rw [hstart] at hstem
  -- The last dot, if there is one, is behind the time.
  obtain ⟨kept, rfl⟩ := stem_keeps (hnot 46 (by decide) (by decide)) hstem
  rw [hn, hname]
  refine ⟨cls, t, kept, hcls, ht, h47s, ?_⟩
  rw [List.append_assoc, nameStart_append]

/-- What the selection needs of a name: it is one, its extension is that of a compressed replay, and
class and time can be read. -/
structure Reads (dir name : Bytes) : Prop where
  no_slash : (47 : UInt8) ∉ name
  krpz : extension (joinPath dir name) = str ".krpz"
  parses : ∃ run, kzReplayParseUid name = some run

theorem reads_of_builtName {dataDir name : Bytes} (h : BuiltName dataDir name) (dir : Bytes) :
    Reads dir name := by
  obtain ⟨cls, t, rest, hc, ht, h47, rfl⟩ := builtName_eq h
  refine ⟨h47, ?_, _, parse_finishName (by omega) ht rest⟩
  rw [← nameStart_append, ← List.append_assoc] at h47 ⊢
  have h47s : (47 : UInt8) ∉ nameStart cls t ++ rest ++ str "krpz" := by
    intro hm
    refine h47 ((List.mem_append.mp hm).elim (List.mem_append_left _) fun hm => ?_)
    exact absurd hm (by decide)
  rw [extension_congr (q := [] ++ 47 :: (nameStart cls t ++ rest ++ 46 :: str "krpz"))
    ((filename_joinPath h47 dir).trans (filename_append h47 []).symm)]
  exact extension_dot (by simp [nameStart]) h47s (by decide) (by decide) []

/-! ### The best of a directory -/

theorem isBetter_iff {a b : ℕ × ℕ} :
    kzReplayUidIsBetter a b = true ↔ a.1 < b.1 ∨ a.1 = b.1 ∧ a.2 < b.2 := by
  unfold kzReplayUidIsBetter
  split_ifs with h
  · rw [decide_eq_true_iff]
    omega
  · rw [decide_eq_true_iff]
    omega

theorem not_isBetter_iff {a b : ℕ × ℕ} :
    kzReplayUidIsBetter a b = false ↔ ¬ (a.1 < b.1 ∨ a.1 = b.1 ∧ a.2 < b.2) := by
  rw [Bool.eq_false_iff, Ne, isBetter_iff]

/-- The first name listed of the best runs. -/
def FirstBest (names : List Bytes) (name : Bytes) (run : ℕ × ℕ) : Prop :=
  kzReplayParseUid name = some run ∧
    (∀ b ∈ names, ∀ other, kzReplayParseUid b = some other →
      kzReplayUidIsBetter other run = false) ∧
    ∃ before after, names = before ++ name :: after ∧ ∀ b ∈ before, kzReplayParseUid b ≠ some run

theorem FirstBest.mem {names : List Bytes} {n : Bytes} {run : ℕ × ℕ} (h : FirstBest names n run) :
    n ∈ names := by
  obtain ⟨-, -, before, after, hl, -⟩ := h
  rw [hl]
  exact List.mem_append_right _ List.mem_cons_self

theorem FirstBest.unique {names : List Bytes} {n n' : Bytes} {run run' : ℕ × ℕ}
    (h : FirstBest names n run) (h' : FirstBest names n' run') : n = n' := by
  obtain ⟨hp, hbest, l₁, l₂, hl, hfirst⟩ := h
  obtain ⟨hp', hbest', l₁', l₂', hl', hfirst'⟩ := h'
  have h1 := hbest n' (by simp [hl']) run' hp'
  have h2 := hbest' n (by simp [hl]) run hp
  rw [not_isBetter_iff] at h1 h2
  obtain rfl : run = run' := Prod.ext (by omega) (by omega)
  rcases List.append_eq_append_iff.mp (hl.symm.trans hl') with ⟨a, ha, hn⟩ | ⟨a, ha, hn⟩
  · rcases a with _ | ⟨b, a⟩
    · exact (List.cons.inj hn).1
    · rw [List.cons_append, List.cons.injEq] at hn
      exact absurd hp (hfirst' n (by rw [ha, hn.1]; simp))
  · rcases a with _ | ⟨b, a⟩
    · exact (List.cons.inj hn).1.symm
    · rw [List.cons_append, List.cons.injEq] at hn
      exact absurd hp' (hfirst n' (by rw [ha, hn.1]; simp))

/-- **The selection takes the first of the best runs.** -/
theorem foldl_pickBest {dir : Bytes} {names : List Bytes} (hn : ∀ n ∈ names, Reads dir n)
    (h0 : names ≠ []) : ∃ name run,
      (names.map (joinPath dir)).foldl pickBest none = some (joinPath dir name, run) ∧
      FirstBest names name run := by
  induction names using List.reverseRecOn with
  | nil => exact absurd rfl h0
  | append_singleton names x ih =>
    obtain ⟨hx47, hxk, rx, hrx⟩ := hn x (by simp)
    rw [List.map_append, List.foldl_append]
    have hstep (best : Option (Bytes × ℕ × ℕ)) : ([x].map (joinPath dir)).foldl pickBest best =
        match best with
        | none => some (joinPath dir x, rx)
        | some b => if kzReplayUidIsBetter rx b.2 then some (joinPath dir x, rx) else best := by
      simp [pickBest, hxk, filename_joinPath hx47, hrx]
    rw [hstep]
    by_cases hnil : names = []
    · subst hnil
      refine ⟨x, rx, rfl, hrx, fun b hb other ho => ?_, [], [], rfl, by simp⟩
      rw [List.nil_append, List.mem_singleton] at hb
      rw [hb, hrx, Option.some.injEq] at ho
      rw [← ho, not_isBetter_iff]
      omega
    · obtain ⟨name, run, hfold, hp, hbest, l₁, l₂, hl, hfirst⟩ :=
        ih (fun n hm => hn n (List.mem_append_left _ hm)) hnil
      rw [hfold]
      dsimp only
      split_ifs with hbetter
      · rw [isBetter_iff] at hbetter
        refine ⟨x, rx, rfl, hrx, fun b hb other ho => ?_, names, [], rfl, fun b hb ho => ?_⟩
        · rw [not_isBetter_iff]
          rcases List.mem_append.mp hb with hb | hb
          · have hworse := hbest b hb other ho
            rw [not_isBetter_iff] at hworse
            omega
          · rw [List.mem_singleton.mp hb, hrx, Option.some.injEq] at ho
            rw [← ho]
            omega
        · have hworse := hbest b hb rx ho
          rw [not_isBetter_iff] at hworse
          exact hworse hbetter
      · refine ⟨name, run, rfl, hp, fun b hb other ho => ?_, l₁, l₂ ++ [x], by simp [hl], hfirst⟩
        rcases List.mem_append.mp hb with hb | hb
        · exact hbest b hb other ho
        · rw [List.mem_singleton.mp hb, hrx, Option.some.injEq] at ho
          rw [← ho]
          simpa using hbetter

/-! ### Names in the order of texts -/

theorem pow_le_of_digits : ∀ (fuel n : ℕ) (acc : Bytes),
    ∃ k, (digits 10 (fuel + 1) n acc).length = acc.length + k + 1 ∧ 10 ^ k ≤ max n 1
  | fuel, n, acc => by
    rw [digits]
    split_ifs with h0
    · rcases fuel with _ | fuel
      · exact ⟨0, rfl, by simp⟩
      · obtain ⟨k, hk, hle⟩ := pow_le_of_digits fuel (n / 10) (digit (n % 10) :: acc)
        refine ⟨k + 1, by rw [hk, List.length_cons]; omega, ?_⟩
        rw [Nat.pow_succ]
        omega
    · exact ⟨0, rfl, by simp⟩

theorem length_decimal8_mono {t t' : ℕ} (h : t ≤ t') (ht' : t' < 2 ^ 32) :
    (decimal8 t).length ≤ (decimal8 t').length := by
  by_contra hlt
  rw [not_le] at hlt
  have h8 := (length_decimal8 t').1
  obtain ⟨k, hk, hle⟩ := pow_le_of_digits 9 t []
  have h10 : (decimal8 t).length = 8 - (digits 10 10 t []).length + (digits 10 10 t []).length := by
    simp [decimal8]
  have hlen : (decimal8 t).length = k + 1 := by
    rw [hk, List.length_nil] at h10
    omega
  have hv := decimal.value_lt (isdigit_decimal8 t')
  rw [value_decimal8 ht'] at hv
  have hpow : 10 ^ (decimal8 t').length ≤ 10 ^ k := Nat.pow_le_pow_right (by decide) (by omega)
  have h1 : 1 < 10 ^ k := Nat.one_lt_pow (by omega) (by decide)
  omega

theorem finishName_lt_of_class {c c' : ℕ} (h : c < c') (hc' : c' < 10) (t t' : ℕ)
    (rest rest' : Bytes) :
    finishName c t rest < finishName c' t' rest' := by
  obtain ⟨hd, hv⟩ := isdigit_digit (h.trans hc')
  obtain ⟨hd', hv'⟩ := isdigit_digit hc'
  refine List.cons_lt_cons_iff.mpr (Or.inl ((decimal.lt_iff hd hd').mpr ?_))
  rwa [hv, hv']

/-- **Runs of one class are in the order of their times** where the first digits of the longer
time allow it. -/
theorem finishName_lt_iff {t t' : ℕ} (h : t < t') (ht' : t' < 2 ^ 32) (c : ℕ) (rest rest' : Bytes) :
    finishName c t rest < finishName c t' rest' ↔
      t < t' / 10 ^ ((decimal8 t').length - (decimal8 t).length) := by
  have ht : t < 2 ^ 32 := h.trans ht'
  have hdec := isdigit_decimal8 t
  have hdec' := isdigit_decimal8 t'
  have hlt : finishName c t rest < finishName c t' rest' ↔
      decimal8 t ++ 95 :: (rest ++ str ".krpz") < decimal8 t' ++ 95 :: (rest' ++ str ".krpz") := by
    simp [finishName]
  rw [hlt]
  rcases (length_decimal8_mono h.le ht').lt_or_eq with hlen | hlen
  · have h95 : ∀ d, isdigit d = true → ¬ (95 : UInt8) < d ∧ (95 : UInt8) ≠ d := by
      intro d hd
      rw [isdigit_iff] at hd
      refine ⟨fun h => ?_, fun h => ?_⟩
      · rw [UInt8.lt_iff_toNat_lt] at h
        change 95 < d.toNat at h
        omega
      · rw [← h] at hd
        exact absurd hd.2 (by decide)
    rw [decimal.lt_wide_iff hdec hdec' h95 hlen, value_decimal8 ht, value_decimal8 ht']
  · rw [append_lt_append_iff hlen, (decimal.lt_iff_value hdec hdec' hlen).1, value_decimal8 ht,
      value_decimal8 ht', hlen, Nat.sub_self, Nat.pow_zero, Nat.div_one]
    exact ⟨fun _ => h, fun _ => Or.inl h⟩

end KzGlobal.Replay.Selection
