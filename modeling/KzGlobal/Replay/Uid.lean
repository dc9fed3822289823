import KzGlobal.Replay.Saves
import KzGlobal.Replay.Selection

/-! # The uid of a run

A uid is a first character, the time, the player and the start in base 36 (`uidStr_form`), and it
always fits its buffer. The time ends at the first underscore behind the first character and the
start begins behind the last one, so a uid gives all four back, whatever underscores and digits the
player's part has (`uidTail_inj`). -/

namespace KzGlobal.Replay.Uid

open KzGlobal.Lib.Numeral KzGlobal.Krp.Format KzGlobal.Replay.Text KzGlobal.Replay.Writer
  KzGlobal.Replay.Paths KzGlobal.Replay.Saves KzGlobal.Replay.Selection

/-! ### Base 36 -/

/-- What a digit in base 36 stands for. -/
def value36 (c : UInt8) : ℕ := if c.toNat < 58 then c.toNat - 48 else c.toNat - 87

/-- A digit in base 36. -/
def isdigit36 (c : UInt8) : Bool := isdigit c || (97 ≤ c && c ≤ 122)

theorem isdigit36_digit {d : ℕ} (h : d < 36) :
    isdigit36 (digit d) = true ∧ value36 (digit d) = d := by
  interval_cases d <;> decide

theorem isdigit36_toBase36 (ts : ℕ) : ∀ c ∈ toBase36 ts, isdigit36 c = true :=
  forall_digits (P := fun c => isdigit36 c = true) (by decide)
    (fun d hd => (isdigit36_digit hd).1) 15 ts (by simp)

theorem not_isdigit36 {c : UInt8} (h : isdigit36 c = true) : c ≠ 95 ∧ c ≠ 46 ∧ c ≠ 47 := by
  refine ⟨?_, ?_, ?_⟩
  all_goals
    rintro rfl
    exact absurd h (by decide)

theorem segmentChar_of_isdigit36 {c : UInt8} (h : isdigit36 c = true) : segmentChar c = true := by
  rw [isdigit36, isdigit] at h
  rw [segmentChar]
  simp only [Bool.or_eq_true] at h ⊢
  tauto

/-! ### The parts of a uid -/

/-- What follows the first character of a uid. -/
def uidTail (timeMs : ℕ) (sid : Bytes) (ts : ℕ) : Bytes :=
  95 :: (decimal8 timeMs ++ 95 :: (sid ++ 95 :: toBase36 ts))

/-- The first character of a uid: the class flag, the `x` or the prefix. -/
def uidHead (gochecks : ℕ) (noSubmit : Bool) (charPrefix : UInt8) : UInt8 :=
  if 0 < charPrefix then charPrefix else if noSubmit then 120 else if 0 < gochecks then 49 else 48

theorem length_uidTail_le (timeMs ts : ℕ) {sid : Bytes} (hs : sid.length ≤ 34) :
    (uidTail timeMs sid ts).length ≤ 62 := by
  have htime := (length_decimal8 timeMs).2
  have hstart := length_digits_le 36 15 ts []
  unfold uidTail toBase36
  simp only [List.length_cons, List.length_append, List.length_nil] at hstart ⊢
  omega

/-- **A uid fits its buffer**: nothing of it is cut off. -/
theorem uidStr_form (gochecks timeMs ts : ℕ) {sid : Bytes} (hs : sid.length ≤ 34) (noSubmit : Bool)
    (charPrefix : UInt8) : uidStr gochecks timeMs sid ts noSubmit charPrefix =
      uidHead gochecks noSubmit charPrefix :: uidTail timeMs sid ts := by
  have hl := length_uidTail_le timeMs ts hs
  have hstr : str "_" = [95] := rfl
  have hbody (c : UInt8) :
      (c :: (str "_" ++ decimal8 timeMs ++ str "_" ++ sid ++ str "_" ++ toBase36 ts)).take 63 =
      c :: uidTail timeMs sid ts := by
    have heq : str "_" ++ decimal8 timeMs ++ str "_" ++ sid ++ str "_" ++ toBase36 ts =
        uidTail timeMs sid ts := by
      simp [hstr, uidTail]
    rw [heq]
    exact List.take_of_length_le (by rw [List.length_cons]; omega)
  unfold uidStr uidHead
  dsimp only
  rw [hbody]
  split_ifs <;> rfl

/-- **What follows the first character gives time, player and start.** -/
theorem uidTail_inj {timeMs timeMs' ts ts' : ℕ} {sid sid' : Bytes}
    (h : uidTail timeMs sid ts = uidTail timeMs' sid' ts') :
    decimal8 timeMs = decimal8 timeMs' ∧ sid = sid' ∧ toBase36 ts = toBase36 ts' := by
  have h36 (t : ℕ) : (95 : UInt8) ∉ toBase36 t :=
    fun hm => (not_isdigit36 (isdigit36_toBase36 t _ hm)).1 rfl
  have htail := (List.cons.inj h).2
  have htime : decimal8 timeMs = decimal8 timeMs' := by
    have htake := congrArg (List.takeWhile (· ≠ 95)) htail
    rwa [takeWhile_ne (sep_not_mem_decimal8 timeMs),
      takeWhile_ne (sep_not_mem_decimal8 timeMs')] at htake
  rw [htime] at htail
  have hrest := (List.cons.inj (List.append_cancel_left htail)).2
  have hstart : toBase36 ts = toBase36 ts' := by
    have hlast := congrArg (afterLast 95) hrest
    rwa [afterLast_append (h36 ts), afterLast_append (h36 ts')] at hlast
  rw [hstart] at hrest
  exact ⟨htime, List.append_cancel_right hrest, hstart⟩

theorem segmentChar_uidTail (timeMs ts : ℕ) {sid : Bytes} (hs : kzWsValidReplaySegment sid = true) :
    ∀ c ∈ uidTail timeMs sid ts, segmentChar c = true := by
  have hsid : ∀ c ∈ sid, segmentChar c = true := by
    rw [kzWsValidReplaySegment, Bool.and_eq_true] at hs
    exact List.all_eq_true.mp hs.2
  intro c hc
  simp only [uidTail, List.mem_cons, List.mem_append] at hc
  rcases hc with rfl | hc | rfl | hc | rfl | hc
  · rfl
  · exact segmentChar_of_isdigit36 (by rw [isdigit36, isdigit_decimal8 timeMs c hc]; rfl)
  · rfl
  · exact hsid c hc
  · rfl
  · exact segmentChar_of_isdigit36 (isdigit36_toBase36 ts c hc)

/-- Where the player's part has no dot, nothing behind the first character has. -/
theorem dot_not_mem_uidTail (timeMs ts : ℕ) {sid : Bytes} (hs : (46 : UInt8) ∉ sid) :
    (46 : UInt8) ∉ uidTail timeMs sid ts := by
  intro hc
  simp only [uidTail, List.mem_cons, List.mem_append] at hc
  rcases hc with hc | hc | hc | hc | hc | hc
  · cases hc
  · exact absurd (isdigit_decimal8 timeMs _ hc) (by decide)
  · cases hc
  · exact hs hc
  · cases hc
  · exact (not_isdigit36 (isdigit36_toBase36 ts _ hc)).2.1 rfl

theorem slash_not_mem_uidTail (timeMs ts : ℕ) {sid : Bytes}
    (hs : kzWsValidReplaySegment sid = true) :
    (47 : UInt8) ∉ uidTail timeMs sid ts :=
  fun hm => absurd (segmentChar_uidTail timeMs ts hs 47 hm) (by decide)

/-! ### The path of a run -/

theorem extension_cons {c : UInt8} {tail : Bytes} (hc : c ≠ 47) (h47 : (47 : UInt8) ∉ tail)
    (h46 : (46 : UInt8) ∉ tail) (dir : Bytes) : extension (dir ++ 47 :: (c :: tail)) = [] := by
  have hname : (47 : UInt8) ∉ c :: tail := List.not_mem_cons_of_ne_of_not_mem hc.symm h47
  unfold extension
  dsimp only
  rw [filename_append hname]
  refine if_pos (Or.inr ?_)
  by_cases hdot : c = 46
  · subst hdot
    rw [show (46 : UInt8) :: tail = [] ++ 46 :: tail from rfl, afterLast_append h46]
    exact le_rfl
  · rw [afterLast_of_not_mem (List.not_mem_cons_of_ne_of_not_mem (Ne.symm hdot) h46)]
    omega

/-- **The path of a run**: a slash as its first character makes it an absolute one. -/
theorem finishPath_form (dataDir : Bytes) (c : UInt8) {tail : Bytes} (h47 : (47 : UInt8) ∉ tail)
    (h46 : (46 : UInt8) ∉ tail) : finishPath dataDir (c :: tail) =
      if c = 47 then 47 :: (tail ++ str ".krpr") else replaysDir dataDir ++
      47 :: (c :: (tail ++ str ".krpr")) := by
  unfold finishPath
  by_cases hc : c = 47
  · subst hc
    have habsolute : (47 :: tail).head? = some (47 : UInt8) := rfl
    rw [if_pos rfl, joinPath, if_pos habsolute]
    exact replaceExtension_of_no_dot h47 h46 [] (str ".krpr")
  · have hname : (47 : UInt8) ∉ c :: tail := List.not_mem_cons_of_ne_of_not_mem (Ne.symm hc) h47
    rw [if_neg hc, joinPath_replaysDir _ hname, replaceExtension, extension_cons hc h47 h46,
      List.length_nil, Nat.sub_zero, List.take_length, List.append_assoc]
    rfl

/-- **Runs of different players are different files**, whatever first characters they have. -/
theorem finishPath_player {dataDir : Bytes} {c c' : UInt8} {timeMs timeMs' ts ts' : ℕ}
    {sid sid' : Bytes}
    (hs : kzWsValidReplaySegment sid = true) (hs' : kzWsValidReplaySegment sid' = true)
    (h46 : (46 : UInt8) ∉ sid) (h46' : (46 : UInt8) ∉ sid')
    (h : finishPath dataDir (c :: uidTail timeMs sid ts) = finishPath dataDir
      (c' :: uidTail timeMs' sid' ts')) :
    sid = sid' := by
  have h47t := slash_not_mem_uidTail timeMs ts hs
  have h47t' := slash_not_mem_uidTail timeMs' ts' hs'
  have hext : (47 : UInt8) ∉ str ".krpr" := by decide
  have hfile {d : UInt8} {tail : Bytes} (ht : (47 : UInt8) ∉ tail) (ht46 : (46 : UInt8) ∉ tail) :
      filename (finishPath dataDir (d :: tail)) = if d = 47 then tail ++ str ".krpr"
        else d :: (tail ++ str ".krpr") := by
    have hrest : (47 : UInt8) ∉ tail ++ str ".krpr" := by
      rw [List.mem_append, not_or]
      exact ⟨ht, hext⟩
    rw [finishPath_form dataDir d ht ht46]
    by_cases hd : d = 47
    · rw [if_pos hd, if_pos hd]
      exact filename_append hrest []
    · rw [if_neg hd, if_neg hd]
      exact filename_append (List.not_mem_cons_of_ne_of_not_mem (Ne.symm hd) hrest) _
  have hname := congrArg filename h
  rw [hfile h47t (dot_not_mem_uidTail timeMs ts h46),
    hfile h47t' (dot_not_mem_uidTail timeMs' ts' h46')] at hname
  -- one absolute path and one that is not: an underscore would be a digit
  have hmixed {d : UInt8} {u u' v v' : ℕ} {p p' : Bytes}
      (heq : uidTail u p v ++ str ".krpr" = d :: (uidTail u' p' v' ++ str ".krpr")) : False := by
    have hdigit : ∃ b rest, decimal8 u = b :: rest ∧ isdigit b = true := by
      obtain ⟨b, rest, hb⟩ := List.exists_cons_of_ne_nil (decimal8_ne_nil u)
      exact ⟨b, rest, hb, isdigit_decimal8 u b (hb ▸ List.mem_cons_self)⟩
    obtain ⟨b, rest, hb, hdig⟩ := hdigit
    rw [uidTail, uidTail, hb] at heq
    have hsecond := (List.cons.inj (List.cons.inj heq).2).1
    rw [hsecond] at hdig
    exact absurd hdig (by decide)
  split_ifs at hname
  · exact (uidTail_inj (List.append_cancel_right hname)).2.1
  · exact (hmixed hname).elim
  · exact (hmixed hname.symm).elim
  · exact (uidTail_inj (List.append_cancel_right (List.cons.inj hname).2)).2.1

theorem take_finishPath_uid {dataDir uid : Bytes} (hd : ShortDir dataDir) (hlen : uid.length ≤ 63) :
    (finishPath dataDir uid).take 254 = finishPath dataDir uid := by
  have hjoin := length_joinPath_le (replaysDir dataDir) uid
  have hext : (str ".krpr").length = 5 := rfl
  unfold ShortDir at hd
  refine List.take_of_length_le ?_
  rw [finishPath, replaceExtension, List.length_append, List.length_take]
  omega

/-! ### What a FINISH puts out -/

/-- The uid of a FINISH. -/
def finishUid (s : Slot) (i : Input) (timeMs : ℕ) (charPrefix : UInt8) (sid : CString 35)
    (ts : ℕ) : Bytes :=
  uidStr s.gochecks (timeMs % 2 ^ 32) sid.bytes ts i.env.noSubmit charPrefix

/-- **Only a FINISH puts something out**: the run under its uid, and what is to become of it. -/
theorem step_finish (dataDir : Bytes) (s : Slot) (i : Input) : (step dataDir s i).2 = [] ∨
    ∃ timeMs submit charPrefix sid nickname ts mapname s',
      i.signal = .finish timeMs submit charPrefix sid nickname ∧
      kzWsValidReplaySegment sid.bytes = true ∧
      (step dataDir s i).2 = .saved (finishUid s i timeMs charPrefix sid ts)
        ((finishPath dataDir (finishUid s i timeMs charPrefix sid ts)).take 254) ::
          finishOutputs i.env timeMs submit sid mapname (finishUid s i timeMs charPrefix sid ts)
            (finishPath dataDir (finishUid s i timeMs charPrefix sid ts)) s' := by
  unfold step
  rcases hsig : i.signal with f | id | ⟨ts, sid, nick⟩ | _ | sid | del | ⟨t, sub, cp, sid, nick⟩
  case finish =>
    dsimp only
    unfold onFinish
    rcases hfd : s.fd with _ | fd
    · exact Or.inl rfl
    · dsimp only
      split_ifs with hv
      · exact Or.inl rfl
      · rw [not_or, not_not, not_not] at hv
        split
        · exact Or.inr ⟨t, sub, cp, sid, nick, _, _, _, rfl, hv.1, rfl⟩
        · exact Or.inl rfl
  all_goals exact Or.inl rfl

theorem uid_of_saved {dataDir : Bytes} {s : Slot} {i : Input} {uid path : Bytes}
    (h : .saved uid path ∈ (step dataDir s i).2) :
    ∃ timeMs submit charPrefix sid nickname ts, i.signal =
    .finish timeMs submit charPrefix sid nickname ∧
      kzWsValidReplaySegment sid.bytes = true ∧ uid = finishUid s i timeMs charPrefix sid ts ∧
      path = (finishPath dataDir uid).take 254 := by
  rcases step_finish dataDir s
    i with hnone | ⟨t, sub, cp, sid, nick, ts, mapname, s', hsig, hv, hout⟩
  · rw [hnone] at h
    cases h
  · rw [hout, List.mem_cons, Output.saved.injEq] at h
    rcases h with ⟨huid, hpath⟩ | h
    · exact ⟨t, sub, cp, sid, nick, ts, hsig, hv, huid, huid ▸ hpath⟩
    · exact absurd h Laws.saved_not_mem_finishOutputs

end KzGlobal.Replay.Uid
