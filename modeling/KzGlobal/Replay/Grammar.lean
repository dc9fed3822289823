import KzGlobal.Replay.Selection

/-! # The grammar of names

A name is the class `0` or `1`, an underscore, the digits of a time of 32 bits, another underscore
and anything else (`Conforms`). `kz_replay_parse_uid` accepts all such names with their class and
time (`parse_of_conforms`), but it reads the two fields as C reads a number: what is in front of a
NUL, with white space and a sign, a class up to nine and a time of any length. So a name outside the
grammar is accepted exactly if both fields are numbers in this sense (`accepts_grammar_iff`). -/

namespace KzGlobal.Replay.Grammar

open KzGlobal.Lib.Numeral KzGlobal.Krp.Format KzGlobal.Replay.Text KzGlobal.Replay.Writer
  KzGlobal.Replay.Selection

/-! ### The grammar -/

/-- A name without its extension. -/
def stem (filename : Bytes) : Bytes :=
  if (str ".krpz").isSuffixOf filename then filename.take (filename.length - 5) else filename

/-- **The grammar**: class, time and anything else, with underscores between them. -/
def Conforms (filename : Bytes) (cls timeMs : ℕ) : Prop :=
  ∃ time rest, stem filename = digit cls :: 95 :: (time ++ 95 :: rest) ∧ cls < 2 ∧ time ≠ [] ∧
    (∀ c ∈ time, isdigit c = true) ∧ value digitValue 10 time = timeMs ∧ timeMs < 2 ^ 32

/-- The texts in front of the first underscore and in front of the second one. -/
structure Fields (filename cls time : Bytes) : Prop where
  cls_ne : cls ≠ []
  time_ne : time ≠ []
  cls_sep : (95 : UInt8) ∉ cls
  time_sep : (95 : UInt8) ∉ time
  form : ∃ rest, stem filename = cls ++ 95 :: (time ++ 95 :: rest)

/-! ### What C reads as a number -/

/-- A sign, and whether it is a minus. -/
inductive Sign : Bytes → Bool → Prop
  | minus : Sign [45] true
  | plus : Sign [43] false
  | none : Sign [] false

/-- A text that is a number for `strtol` and `strtoul`: white space, a sign and digits. -/
structure Spelling (s : Bytes) (neg : Bool) (ds : Bytes) : Prop where
  ne : ds ≠ []
  digits : ∀ c ∈ ds, isdigit c = true
  spelled : ∃ spaces sign, (∀ c ∈ spaces, isspace c = true) ∧ Sign sign neg ∧
    s = spaces ++ (sign ++ ds)

/-- A class field that is a number up to nine for `strtol`. Nothing in front of a NUL is zero. -/
def LooseClass (cls : Bytes) : Prop :=
  cstr cls = [] ∨ ∃ neg ds, Spelling (cstr cls) neg ds ∧ value digitValue 10 ds ≤ 9 ∧
    (neg = true → value digitValue 10 ds = 0)

/-- A time field that is a number for `strtoul`. -/
def LooseTime (time : Bytes) : Prop := cstr time = [] ∨ ∃ neg ds, Spelling (cstr time) neg ds

/-- A class field of the grammar. -/
def PlainClass (cls : Bytes) : Prop := cls = [48] ∨ cls = [49]

/-- A time field of the grammar. -/
def PlainTime (time : Bytes) : Prop :=
  (∀ c ∈ time, isdigit c = true) ∧ value digitValue 10 time < 2 ^ 32

theorem sign_append {sign ds : Bytes} {neg : Bool} (hs : Sign sign neg) (h0 : ds ≠ [])
    (hd : ∀ c ∈ ds, isdigit c = true) :
    (sign ++ ds).dropWhile isspace = sign ++ ds ∧ decide ((sign ++ ds).head? = some 45) = neg ∧
      (if (sign ++ ds).head? = some 45 ∨ (sign ++ ds).head? = some 43 then (sign ++ ds).tail
        else sign ++ ds) = ds := by
  obtain ⟨d, ds, rfl⟩ := List.exists_cons_of_ne_nil h0
  obtain ⟨hsp, h45, h43, -⟩ := not_isspace_of_isdigit (hd d List.mem_cons_self)
  cases hs with
  | minus => exact ⟨rfl, rfl, rfl⟩
  | plus => exact ⟨rfl, rfl, rfl⟩
  | none =>
    refine ⟨?_, ?_, ?_⟩
    · rw [List.nil_append, List.dropWhile_cons, hsp]
      rfl
    · simpa using h45
    · simp [h45, h43]

/-- **A number is read to its end**, with its sign and its value. -/
theorem scanNumber_spelling {s ds : Bytes} {neg : Bool} (h : Spelling s neg ds) :
    scanNumber s = (neg, value digitValue 10 ds, []) := by
  obtain ⟨h0, hd, spaces, sign, hsp, hs, rfl⟩ := h
  obtain ⟨hdrop, hneg, hds⟩ := sign_append hs h0 hd
  have hbody : (spaces ++ (sign ++ ds)).dropWhile isspace = sign ++ ds := by
    rw [List.dropWhile_append_of_pos hsp, hdrop]
  have htake : ds.takeWhile isdigit = ds := List.takeWhile_eq_self_iff.mpr hd
  have hrest : ds.dropWhile isdigit = [] := List.dropWhile_eq_nil_iff.mpr hd
  unfold scanNumber
  dsimp only
  rw [hbody, hds, htake, hrest, if_neg h0, hneg, foldl_eq_value, Nat.zero_mul, Nat.zero_add]

theorem sign_of_body (body : Bytes) : ∃ sign, Sign sign (decide (body.head? = some 45)) ∧
    body = sign ++ if body.head? = some 45 ∨ body.head? = some 43 then body.tail else body := by
  by_cases h45 : body.head? = some 45
  · obtain ⟨ds, rfl⟩ := List.head?_eq_some_iff.mp h45
    exact ⟨[45], Sign.minus, rfl⟩
  · by_cases h43 : body.head? = some 43
    · obtain ⟨ds, rfl⟩ := List.head?_eq_some_iff.mp h43
      exact ⟨[43], Sign.plus, rfl⟩
    · refine ⟨[], ?_, ?_⟩
      · rw [decide_eq_false h45]
        exact Sign.none
      · rw [if_neg (not_or.mpr ⟨h45, h43⟩)]
        rfl

/-- **What is read to its end** is empty or a number. -/
theorem spelling_of_end {s : Bytes} (h : (scanNumber s).2.2 = []) :
    s = [] ∨ ∃ neg ds, Spelling s neg ds := by
  obtain ⟨sign, hsign, hbody⟩ := sign_of_body (s.dropWhile isspace)
  unfold scanNumber at h
  dsimp only at h
  set ds := if (s.dropWhile isspace).head? = some 45 ∨ (s.dropWhile isspace).head? = some 43 then
    (s.dropWhile isspace).tail else s.dropWhile isspace
  by_cases hnum : ds.takeWhile isdigit = []
  · rw [if_pos hnum] at h
    exact Or.inl h
  · rw [if_neg hnum] at h
    have hd : ∀ c ∈ ds, isdigit c = true := List.dropWhile_eq_nil_iff.mp h
    have h0 : ds ≠ [] := fun h0 => hnum (by rw [h0]; rfl)
    refine Or.inr ⟨_, ds, h0, hd, s.takeWhile isspace, sign, fun c hc => List.mem_takeWhile_imp hc,
      hsign, ?_⟩
    rw [← hbody, List.takeWhile_append_dropWhile]

theorem strtoul_end_iff (time : Bytes) : (strtoul (cstr time)).2 = [] ↔ LooseTime time := by
  constructor
  · exact spelling_of_end
  · rintro (h0 | ⟨neg, ds, hs⟩)
    · rw [h0]
      rfl
    · rw [strtoul, scanNumber_spelling hs]

theorem strtol_end_iff (cls : Bytes) :
    ((strtol (cstr cls)).2 = [] ∧ 0 ≤ (strtol (cstr cls)).1 ∧ (strtol (cstr cls)).1 ≤ 9) ↔
    LooseClass cls := by
  have hzero : strtol [] = (0, []) := rfl
  have hspelled {neg : Bool} {ds : Bytes} (hs : Spelling (cstr cls) neg ds) : strtol (cstr cls) =
      (if neg then max (-(value digitValue 10 ds : ℤ)) (-2 ^ 31)
        else min (value digitValue 10 ds : ℤ) (2 ^ 31 - 1), []) := by
    rw [strtol, scanNumber_spelling hs]
  constructor
  · rintro ⟨hend, hlo, hhi⟩
    rcases spelling_of_end hend with h0 | ⟨neg, ds, hs⟩
    · exact Or.inl h0
    · refine Or.inr ⟨neg, ds, hs, ?_⟩
      rw [hspelled hs] at hlo hhi
      dsimp only at hlo hhi
      cases neg with
      | true =>
        rw [if_pos rfl] at hlo
        have hval : value digitValue 10 ds = 0 := by omega
        exact ⟨by omega, fun _ => hval⟩
      | false =>
        rw [if_neg Bool.false_ne_true] at hhi
        exact ⟨by omega, fun hneg => absurd hneg Bool.false_ne_true⟩
  · rintro (h0 | ⟨neg, ds, hs, hle, hzero⟩)
    · rw [h0, hzero]
      decide
    · rw [hspelled hs]
      refine ⟨rfl, ?_⟩
      cases neg with
      | true =>
        rw [if_pos rfl, hzero rfl]
        decide
      | false =>
        rw [if_neg Bool.false_ne_true]
        omega

/-! ### The fields of a name -/

theorem split_at (c : UInt8) (s : Bytes) : c ∉ s.takeWhile (· ≠ c) ∧
    (s.dropWhile (· ≠ c) = [] ∨
      ∃ rest, s.dropWhile (· ≠ c) = c :: rest ∧ s = s.takeWhile (· ≠ c) ++ c :: rest) := by
  refine ⟨fun hm => ?_, ?_⟩
  · have hne := List.mem_takeWhile_imp hm
    simp at hne
  · rcases hdrop : s.dropWhile (· ≠ c) with _ | ⟨b, rest⟩
    · exact Or.inl rfl
    · have hne : s.dropWhile (· ≠ c) ≠ [] := by
        rw [hdrop]
        exact List.cons_ne_nil b rest
      have hb := List.head_dropWhile_not (· ≠ c) hne
      simp only [hdrop, List.head_cons] at hb
      obtain rfl : b = c := not_not.mp (of_decide_eq_false hb)
      refine Or.inr ⟨rest, rfl, ?_⟩
      rw [← hdrop, List.takeWhile_append_dropWhile]

theorem Fields.unique {filename cls cls' time time' : Bytes} (h : Fields filename cls time)
    (h' : Fields filename cls' time') : cls = cls' ∧ time = time' := by
  obtain ⟨rest, hform⟩ := h.form
  obtain ⟨rest', hform'⟩ := h'.form
  have hcls : cls = cls' := by
    rw [← takeWhile_ne h.cls_sep (time ++ 95 :: rest), ← hform, hform', takeWhile_ne h'.cls_sep]
  subst hcls
  have htail := (List.cons.inj (List.append_cancel_left (hform.symm.trans hform'))).2
  refine ⟨rfl, ?_⟩
  rw [← takeWhile_ne h.time_sep rest, htail, takeWhile_ne h'.time_sep]

/-- What is read of class and time. -/
def readFields (cls time : Bytes) : Option (ℕ × ℕ) :=
  if (strtol (cstr cls)).2 ≠ [] ∨ (strtol (cstr cls)).1 < 0 ∨ 9 < (strtol (cstr cls)).1 then none
  else if (strtoul (cstr time)).2 ≠ [] then none
  else some ((strtol (cstr cls)).1.toNat, (strtoul (cstr time)).1)

/-- What is read of a name without its extension. -/
def readStem (stem : Bytes) : Option (ℕ × ℕ) :=
  match stem.dropWhile (· ≠ 95) with
  | [] => none
  | _ :: rest =>
    if stem.takeWhile (· ≠ 95) = [] ∨ rest.dropWhile (· ≠ 95) = [] ∨
      rest.takeWhile (· ≠ 95) = [] then none
    else readFields (stem.takeWhile (· ≠ 95)) (rest.takeWhile (· ≠ 95))

theorem parse_eq_readStem (filename : Bytes) :
    kzReplayParseUid filename = readStem (stem filename) := rfl

/-- **A name is read from its fields.** -/
theorem parse_of_fields {filename cls time : Bytes} (h : Fields filename cls time) :
    kzReplayParseUid filename = readFields cls time := by
  obtain ⟨rest, hform⟩ := h.form
  have hfields : ¬ (cls = [] ∨ (95 :: rest : Bytes) = [] ∨ time = []) := by
    rw [not_or, not_or]
    exact ⟨h.cls_ne, List.cons_ne_nil 95 rest, h.time_ne⟩
  rw [parse_eq_readStem, hform, readStem, dropWhile_ne h.cls_sep]
  dsimp only
  rw [takeWhile_ne h.cls_sep, takeWhile_ne h.time_sep, dropWhile_ne h.time_sep, if_neg hfields]

theorem fields_of_parse {filename : Bytes} {run : ℕ × ℕ}
    (h : kzReplayParseUid filename = some run) :
    ∃ cls time, Fields filename cls time := by
  rw [parse_eq_readStem, readStem] at h
  obtain ⟨hcls, hdrop | ⟨rest, hdrop, hstem⟩⟩ := split_at 95 (stem filename)
  · rw [hdrop] at h
    cases h
  · obtain ⟨htime, htail⟩ := split_at 95 rest
    rw [hdrop] at h
    dsimp only at h
    split_ifs at h with h0
    rw [not_or, not_or] at h0
    obtain ⟨rest', -, hrest⟩ := htail.resolve_left h0.2.1
    exact ⟨_, _, h0.1, h0.2.2, hcls, htime, rest', by rw [← hrest]; exact hstem⟩

/-! ### What is accepted -/

/-- **What the fields are read as**: numbers, of which the class is at most nine. -/
theorem readFields_iff (cls time : Bytes) (run : ℕ × ℕ) : readFields cls time = some run ↔
    (LooseClass cls ∧ LooseTime time) ∧
    ((strtol (cstr cls)).1.toNat, (strtoul (cstr time)).1) = run := by
  rw [← strtol_end_iff, ← strtoul_end_iff, readFields]
  by_cases hcls : (strtol (cstr cls)).2 ≠ [] ∨ (strtol (cstr cls)).1 < 0 ∨ 9 < (strtol (cstr cls)).1
  · rw [if_pos hcls]
    refine iff_of_false nofun ?_
    rintro ⟨⟨⟨hend, hlo, hhi⟩, -⟩, -⟩
    rcases hcls with h | h | h
    · exact h hend
    · omega
    · omega
  · rw [if_neg hcls]
    rw [not_or, not_or, not_not, Int.not_lt, Int.not_lt] at hcls
    by_cases htime : (strtoul (cstr time)).2 ≠ []
    · rw [if_pos htime]
      exact iff_of_false nofun fun h => htime h.1.2
    · rw [if_neg htime, Option.some.injEq]
      rw [not_not] at htime
      exact (and_iff_right ⟨hcls, htime⟩).symm

/-- **Plain fields** are read as they are written. -/
theorem readFields_plain {cls : ℕ} {time : Bytes} (hc : cls < 2) (h0 : time ≠ [])
    (ht : PlainTime time) :
    readFields [digit cls] time = some (cls, value digitValue 10 time) := by
  obtain ⟨hdec, hlt⟩ := ht
  have htime : strtoul (cstr time) = (value digitValue 10 time, []) := by
    rw [cstr_digits hdec, strtoul, scanNumber_digits h0 hdec]
    dsimp only
    rw [if_neg (Nat.not_le.mpr hlt), if_neg Bool.false_ne_true]
  unfold readFields
  rw [strtol_digit (by omega), htime, if_neg (by simp; omega)]
  simp

theorem Conforms.fields {filename : Bytes} {cls timeMs : ℕ} (h : Conforms filename cls timeMs) :
    cls < 2 ∧ ∃ time, Fields filename [digit cls] time ∧ PlainTime time ∧
    value digitValue 10 time = timeMs := by
  obtain ⟨time, rest, hform, hc, h0, hdec, hval, hlt⟩ := h
  have hdigit := (isdigit_digit (show cls < 10 by omega)).1
  have hsep (c : UInt8) (hd : isdigit c = true) : (95 : UInt8) ≠ c :=
    (not_isspace_of_isdigit hd).2.2.2.1.symm
  refine ⟨hc, time, ⟨List.cons_ne_nil _ _, h0, ?_, fun hm => hsep 95 (hdec 95 hm) rfl, rest, hform⟩,
    ⟨hdec, ?_⟩, hval⟩
  · rw [List.mem_singleton]
    exact hsep _ hdigit
  · rwa [hval]

theorem plainClass_digit {cls : Bytes} {c : ℕ} (hc : c < 2) (h : cls = [digit c]) :
    PlainClass cls := by
  rw [h]
  interval_cases c
  · exact Or.inl rfl
  · exact Or.inr rfl

theorem conforms_of_plain {filename cls time : Bytes} (h : Fields filename cls time)
    (hc : PlainClass cls)
    (ht : PlainTime time) : ∃ c, cls = [digit c] ∧ c < 2 ∧
    Conforms filename c (value digitValue 10 time) := by
  obtain ⟨rest, hform⟩ := h.form
  obtain ⟨c, hc2, hcls⟩ : ∃ c, c < 2 ∧ cls = [digit c] := by
    rcases hc with rfl | rfl
    · exact ⟨0, by decide, rfl⟩
    · exact ⟨1, by decide, rfl⟩
  rw [hcls] at hform
  exact ⟨c, hcls, hc2, time, rest, hform, hc2, h.time_ne, ht.1, rfl, ht.2⟩

/-- **A name of the grammar is accepted**, with its class and its time. -/
theorem parse_of_conforms {filename : Bytes} {cls timeMs : ℕ} (h : Conforms filename cls timeMs) :
    kzReplayParseUid filename = some (cls, timeMs) := by
  obtain ⟨hc, time, hfields, ht, hval⟩ := h.fields
  rw [parse_of_fields hfields, readFields_plain hc hfields.time_ne ht, hval]

/-- **Names outside the grammar** are refused exactly if one of their fields is no number at all:
where both fields are numbers as C reads them, they are the ones of the grammar. -/
theorem accepts_grammar_iff (filename : Bytes) :
    (∀ cls timeMs, kzReplayParseUid filename = some (cls, timeMs) ↔ Conforms filename cls timeMs) ↔
      ∀ cls time, Fields filename cls time → LooseClass cls → LooseTime time → PlainClass cls ∧
      PlainTime time := by
  constructor
  · intro h cls time hfields hcls htime
    have hread := (readFields_iff cls time _).mpr ⟨⟨hcls, htime⟩, rfl⟩
    rw [← parse_of_fields hfields] at hread
    obtain ⟨hc, time', hfields', ht, -⟩ := ((h _ _).mp hread).fields
    obtain ⟨hdigit, rfl⟩ := hfields.unique hfields'
    exact ⟨plainClass_digit hc hdigit, ht⟩
  · intro h cls timeMs
    refine ⟨fun hparse => ?_, parse_of_conforms⟩
    obtain ⟨clsStr, timeStr, hfields⟩ := fields_of_parse hparse
    have hread := hparse
    rw [parse_of_fields hfields] at hread
    obtain ⟨⟨hloose, hnum⟩, -⟩ := (readFields_iff _ _ _).mp hread
    obtain ⟨hplain, ht⟩ := h clsStr timeStr hfields hloose hnum
    obtain ⟨c, hcls, hc, hconforms⟩ := conforms_of_plain hfields hplain ht
    rw [parse_of_conforms hconforms, Option.some.injEq, Prod.mk.injEq] at hparse
    obtain ⟨rfl, rfl⟩ := hparse
    exact hconforms

section Sample

/-- **A name of class two is accepted**, and so are fields with white space and signs and a time of
more than 32 bits. -/
theorem accepts_outside_grammar :
    (kzReplayParseUid (str "2_00012345_steam_abc.krpz") = some (2, 12345) ∧
      ¬ Conforms (str "2_00012345_steam_abc.krpz") 2 12345) ∧
      kzReplayParseUid (str "+1_ -1_a") = some (1, 2 ^ 32 - 1) ∧
      kzReplayParseUid (str "0_4294967296_a") = some (0, 2 ^ 32 - 1) :=
  ⟨⟨by decide +kernel, fun h => absurd h.fields.1 (by decide)⟩, by decide +kernel,
    by decide +kernel⟩

end Sample

end KzGlobal.Replay.Grammar
