import KzGlobal.Playback.Threads

/-! # The announcements of the bot

`kz_bot_think` announces a start where the bot is at the first frame at the end of a delay, and a
finish where it is at the last one and no delay runs. The delay is counted from these frames on but
does not hold the bot, so whether the frame and the delay meet depends on how long the replay is
(`announcesLoops_iff`): a loop is announced where it takes 98 thinks, its last frame is not stepped
over and the replay was just loaded; the finish of it moves the delay, so the next one is not. The
entity of the bot, its sounds and the `+use` command are left out. -/

namespace KzGlobal.Playback.Announce

open KzGlobal.Playback.Threads

/-! ### Thinks -/

/-- The ids of the forwards, above 0 where they are registered. -/
structure ForwardIds where
  botRunStarted : ℤ
  botRunFinished : ℤ

/-- The forwards that a think executes. -/
inductive Forward
  | botRunStarted
  | botRunFinished
  deriving DecidableEq

/-- The delay ends at this count. -/
def delayFrames : ℤ := 100

/-- The frames that a think moves on by. -/
def step (pb : KrpPlayback) : ℤ := if pb.doubleSpeed then 2 else 1

theorem step_pos (pb : KrpPlayback) : 0 < step pb := by
  unfold step
  split_ifs <;> decide

/-- The bot is at the first frame and the delay ends. -/
def AtStart (pb : KrpPlayback) : Prop :=
  pb.frameCounter = 0 ∧ pb.delayCounter = delayFrames - 1

/-- The bot is at the last frame and no delay runs. -/
def AtFinish (pb : KrpPlayback) : Prop :=
  pb.frameCounter = pb.finishFrame - 1 ∧ pb.delayCounter = 0

instance (pb : KrpPlayback) : Decidable (AtStart pb) := by unfold AtStart; infer_instance
instance (pb : KrpPlayback) : Decidable (AtFinish pb) := by unfold AtFinish; infer_instance

/-- The delay after a think. -/
def nextDelay (pb : KrpPlayback) : ℤ :=
  let delay :=
    if pb.delayCounter = 0 ∧ (pb.frameCounter = 0 ∨ pb.frameCounter = pb.finishFrame - 1) then
      pb.delayCounter + 1
    else pb.delayCounter
  if delay ≠ 0 then if delay + 1 ≥ delayFrames then 0 else delay + 1 else delay

/-- The frame after a think. -/
def nextFrame (pb : KrpPlayback) : ℤ :=
  if pb.frameCounter + step pb ≥ pb.finishFrame then 0 else pb.frameCounter + step pb

/-- The counters that `kz_bot_think` leaves, and the forwards it executes. -/
def kzBotThink (fwd : ForwardIds) (pb : KrpPlayback) : KrpPlayback × List Forward :=
  if pb.frames.length < 2 then (pb, [])
  else
    let started :=
      if AtStart pb then if fwd.botRunStarted > 0 then [.botRunStarted] else [] else []
    let finished :=
      if AtFinish pb then if fwd.botRunFinished > 0 then [.botRunFinished] else [] else []
    ({ pb with delayCounter := nextDelay pb, frameCounter := nextFrame pb }, started ++ finished)

/-- The playback after `t` thinks. -/
def playbackAt (fwd : ForwardIds) (pb : KrpPlayback) (t : ℕ) : KrpPlayback :=
  (fun pb => (kzBotThink fwd pb).1)^[t] pb

/-- The forwards that think `t` executes. -/
def forwardsAt (fwd : ForwardIds) (pb : KrpPlayback) (t : ℕ) : List Forward :=
  (kzBotThink fwd (playbackAt fwd pb t)).2

/-- The think that takes the bot to frame 0. -/
def Wraps (pb : KrpPlayback) : Prop := pb.frameCounter + step pb ≥ pb.finishFrame

instance (pb : KrpPlayback) : Decidable (Wraps pb) := by unfold Wraps; infer_instance

/-- **The bot announces every loop**: between two consecutive wraps among `n` thinks, the start is
executed once and then the finish once. -/
def AnnouncesLoops (fwd : ForwardIds) (pb : KrpPlayback) (n : ℕ) : Prop :=
  ∀ a b, a < b → b < n → Wraps (playbackAt fwd pb a) → Wraps (playbackAt fwd pb b) →
    (∀ t, a < t → t < b → ¬ Wraps (playbackAt fwd pb t)) →
    (List.range' (a + 1) (b - a)).flatMap (forwardsAt fwd pb) = [.botRunStarted, .botRunFinished]

/-- How many thinks a loop takes. -/
def loopLength (frames : ℕ) (doubleSpeed : Bool) : ℕ :=
  if doubleSpeed then frames / 2 else frames - 1

/-! ### Frames -/

section Run
variable (fwd : ForwardIds) {pb : KrpPlayback}

theorem playbackAt_succ (t : ℕ) :
    playbackAt fwd pb (t + 1) = (kzBotThink fwd (playbackAt fwd pb t)).1 :=
  Function.iterate_succ_apply' ..

/-- **What thinks keep.** -/
theorem kept (pb : KrpPlayback) (t : ℕ) : (playbackAt fwd pb t).frames = pb.frames ∧
    (playbackAt fwd pb t).finishFrame = pb.finishFrame ∧
    (playbackAt fwd pb t).doubleSpeed = pb.doubleSpeed := by
  induction t with
  | zero => exact ⟨rfl, rfl, rfl⟩
  | succ t ih =>
    rw [playbackAt_succ fwd, kzBotThink]
    split_ifs <;> exact ih

theorem step_playbackAt (t : ℕ) : step (playbackAt fwd pb t) = step pb := by
  rw [step, step, (kept fwd _ t).2.2]

variable (h : 2 ≤ pb.frames.length)
include h

theorem think_playbackAt (t : ℕ) : playbackAt fwd pb (t + 1) =
    { playbackAt fwd pb t with
      delayCounter := nextDelay (playbackAt fwd pb t)
      frameCounter := nextFrame (playbackAt fwd pb t) } := by
  have hlen : ¬ (playbackAt fwd pb t).frames.length < 2 := by
    rw [(kept fwd _ t).1]
    omega
  rw [playbackAt_succ fwd, kzBotThink, if_neg hlen]

theorem forwardsAt_eq (t : ℕ) : forwardsAt fwd pb t =
    (if AtStart (playbackAt fwd pb t) then
      if fwd.botRunStarted > 0 then [.botRunStarted] else [] else []) ++
    (if AtFinish (playbackAt fwd pb t) then
      if fwd.botRunFinished > 0 then [.botRunFinished] else [] else []) := by
  have hlen : ¬ (playbackAt fwd pb t).frames.length < 2 := by
    rw [(kept fwd _ t).1]
    omega
  rw [forwardsAt, kzBotThink, if_neg hlen]

theorem frameCounter_succ (t : ℕ) : (playbackAt fwd pb (t + 1)).frameCounter =
    if (playbackAt fwd pb t).frameCounter + step pb ≥ pb.finishFrame then 0
    else (playbackAt fwd pb t).frameCounter + step pb := by
  rw [think_playbackAt fwd h, ← step_playbackAt fwd t, ← (kept fwd _ t).2.1]
  rfl

theorem delayCounter_succ (t : ℕ) : (playbackAt fwd pb (t + 1)).delayCounter =
    nextDelay (playbackAt fwd pb t) := by
  rw [think_playbackAt fwd h]

/-! ### Loops -/

variable (hfin : pb.finishFrame = pb.frames.length - 1)
include hfin

theorem loopLength_pos : 0 < loopLength pb.frames.length pb.doubleSpeed := by
  unfold loopLength
  split_ifs <;> omega

theorem lt_loopLength (i : ℕ) :
    i < loopLength pb.frames.length pb.doubleSpeed ↔ step pb * i < pb.finishFrame := by
  rw [hfin]
  unfold loopLength step
  split_ifs <;> omega

/-- **The frames of a loop** that begins at think `s`. -/
theorem frameCounter_loop {s : ℕ} (hs : (playbackAt fwd pb s).frameCounter = 0) (i : ℕ)
    (hi : i < loopLength pb.frames.length pb.doubleSpeed) :
    (playbackAt fwd pb (s + i)).frameCounter = step pb * i := by
  induction i with
  | zero => rw [Nat.add_zero, hs, Nat.cast_zero, mul_zero]
  | succ i ih =>
    have hlt := (lt_loopLength h hfin (i + 1)).mp hi
    rw [Nat.cast_succ, mul_add, mul_one] at hlt
    rw [← Nat.add_assoc, frameCounter_succ fwd h, ih (Nat.lt_of_succ_lt hi),
      if_neg (not_le.mpr hlt), Nat.cast_succ, mul_add, mul_one]

/-- **The wrap of a loop** is its last think. -/
theorem wraps_loop {s : ℕ} (hs : (playbackAt fwd pb s).frameCounter = 0) {i : ℕ}
    (hi : i < loopLength pb.frames.length pb.doubleSpeed) :
    Wraps (playbackAt fwd pb (s + i)) ↔ i + 1 = loopLength pb.frames.length pb.doubleSpeed := by
  have hlt := lt_loopLength h hfin (i + 1)
  rw [Nat.cast_succ, mul_add, mul_one] at hlt
  rw [Wraps, step_playbackAt fwd, (kept fwd _ _).2.1, frameCounter_loop fwd h hfin hs i hi,
    ge_iff_le, ← not_lt, ← hlt]
  omega

theorem frameCounter_next {s : ℕ} (hs : (playbackAt fwd pb s).frameCounter = 0) :
    (playbackAt fwd pb (s + loopLength pb.frames.length pb.doubleSpeed)).frameCounter = 0 := by
  have hpos := loopLength_pos h hfin
  obtain ⟨i, hi⟩ : ∃ i, loopLength pb.frames.length pb.doubleSpeed = i + 1 :=
    ⟨_, (Nat.succ_pred_eq_of_pos hpos).symm⟩
  have hwrap := (wraps_loop fwd h hfin hs (i := i) (by omega)).mpr hi.symm
  rw [Wraps, step_playbackAt fwd, (kept fwd _ _).2.1] at hwrap
  rw [hi, ← Nat.add_assoc, frameCounter_succ fwd h, if_pos hwrap]

variable (h0 : pb.frameCounter = 0)
include h0

theorem frameCounter_loops (k : ℕ) :
    (playbackAt fwd pb (loopLength pb.frames.length pb.doubleSpeed * k)).frameCounter = 0 := by
  induction k with
  | zero => exact h0
  | succ k ih => exact frameCounter_next fwd h hfin ih

/-- **The wraps** are where a number of loops is through. -/
theorem wraps_iff (t : ℕ) : Wraps (playbackAt fwd pb t) ↔
    loopLength pb.frames.length pb.doubleSpeed ∣ t + 1 := by
  have hpos := loopLength_pos h hfin
  have hwraps := wraps_loop fwd h hfin
    (frameCounter_loops fwd h hfin h0 (t / loopLength pb.frames.length pb.doubleSpeed))
    (Nat.mod_lt t hpos)
  rw [Nat.div_add_mod] at hwraps
  rw [hwraps]
  constructor
  · intro he
    refine ⟨t / loopLength pb.frames.length pb.doubleSpeed + 1, ?_⟩
    conv_lhs => rw [← Nat.div_add_mod t (loopLength pb.frames.length pb.doubleSpeed)]
    rw [Nat.add_assoc, he, Nat.mul_succ]
  · intro hdvd
    rw [← Nat.div_add_mod t (loopLength pb.frames.length pb.doubleSpeed), Nat.add_assoc,
      Nat.dvd_add_right (Nat.dvd_mul_right ..)] at hdvd
    exact le_antisymm (Nat.mod_lt t hpos) (Nat.le_of_dvd (Nat.succ_pos _) hdvd)

end Run

/-! ### The delay -/

theorem nextDelay_of_ne {pb : KrpPlayback} (h : pb.delayCounter ≠ 0) :
    nextDelay pb = if pb.delayCounter + 1 ≥ 100 then 0 else pb.delayCounter + 1 := by
  simp [nextDelay, h, delayFrames]

theorem nextDelay_of_eq {pb : KrpPlayback} (h : pb.delayCounter = 0) : nextDelay pb =
    if pb.frameCounter = 0 ∨ pb.frameCounter = pb.finishFrame - 1 then 2 else 0 := by
  simp only [nextDelay, h, delayFrames]
  split_ifs <;> first | rfl | simp_all

section Delay
variable (fwd : ForwardIds) {pb : KrpPlayback} (h : 2 ≤ pb.frames.length)
include h

theorem delay_of_ne {t : ℕ} (ht : (playbackAt fwd pb t).delayCounter ≠ 0) :
    (playbackAt fwd pb (t + 1)).delayCounter =
      if (playbackAt fwd pb t).delayCounter + 1 ≥ 100 then 0
      else (playbackAt fwd pb t).delayCounter + 1 := by
  rw [delayCounter_succ fwd h, nextDelay_of_ne ht]

theorem delay_begins {t : ℕ} (ht : (playbackAt fwd pb t).delayCounter = 0)
    (hframe : (playbackAt fwd pb t).frameCounter = 0 ∨
      (playbackAt fwd pb t).frameCounter = pb.finishFrame - 1) :
    (playbackAt fwd pb (t + 1)).delayCounter = 2 := by
  rw [← (kept fwd _ t).2.1] at hframe
  rw [delayCounter_succ fwd h, nextDelay_of_eq ht, if_pos hframe]

theorem delay_rests {t : ℕ} (ht : (playbackAt fwd pb t).delayCounter = 0)
    (hframe : ¬ ((playbackAt fwd pb t).frameCounter = 0 ∨
      (playbackAt fwd pb t).frameCounter = pb.finishFrame - 1)) :
    (playbackAt fwd pb (t + 1)).delayCounter = 0 := by
  rw [← (kept fwd _ t).2.1] at hframe
  rw [delayCounter_succ fwd h, nextDelay_of_eq ht, if_neg hframe]

variable (hfin : pb.finishFrame = pb.frames.length - 1)
include hfin

/-- **No delay begins inside a loop** that begins at think `s`. -/
theorem delay_inside {s i : ℕ} (hs : (playbackAt fwd pb s).frameCounter = 0) (hi : 0 < i)
    (hdelay : (playbackAt fwd pb (s + i)).delayCounter = 0) (k : ℕ)
    (hk : i + k < loopLength pb.frames.length pb.doubleSpeed) :
    (playbackAt fwd pb (s + (i + k))).delayCounter = 0 := by
  induction k with
  | zero => exact hdelay
  | succ k ih =>
    have hlt := (lt_loopLength h hfin (i + k + 1)).mp hk
    rw [Nat.cast_succ, mul_add, mul_one] at hlt
    have hstep := step_pos pb
    have hframe : ¬ ((playbackAt fwd pb (s + (i + k))).frameCounter = 0 ∨
        (playbackAt fwd pb (s + (i + k))).frameCounter = pb.finishFrame - 1) := by
      rw [frameCounter_loop fwd h hfin hs (i + k) (Nat.lt_of_succ_lt hk)]
      rintro (hz | hlast)
      · have hpos : (0 : ℤ) < step pb * ↑(i + k) := mul_pos (by omega) (by omega)
        omega
      · omega
    exact delay_rests fwd h (ih (Nat.lt_of_succ_lt hk)) hframe

variable (h0 : pb.frameCounter = 0) (hd : pb.delayCounter = 0)
include h0 hd

omit hfin in
theorem delay_first {t : ℕ} (ht : t < 98) :
    (playbackAt fwd pb (t + 1)).delayCounter = t + 2 := by
  induction t with
  | zero => exact delay_begins fwd h hd (Or.inl h0)
  | succ t ih =>
    have hprev := ih (Nat.lt_of_succ_lt ht)
    rw [delay_of_ne fwd h (by rw [hprev]; omega), hprev, if_neg (by omega), Nat.cast_succ]
    omega

omit hfin in
theorem delay_over : (playbackAt fwd pb 99).delayCounter = 0 := by
  have hprev := delay_first fwd h h0 hd (t := 97) (by decide)
  rw [delay_of_ne fwd h (by rw [hprev]; decide), hprev]
  rfl

/-- **The delay ends with the first loop** only where that takes 98 thinks. -/
theorem delay_loop : (playbackAt fwd pb
      (loopLength pb.frames.length pb.doubleSpeed)).delayCounter = 99 ↔
    loopLength pb.frames.length pb.doubleSpeed = 98 := by
  have hpos := loopLength_pos h hfin
  generalize hL : loopLength pb.frames.length pb.doubleSpeed = L at hpos ⊢
  rcases Nat.lt_or_ge L 99 with hlt | hge
  · obtain ⟨t, rfl⟩ : ∃ t, L = t + 1 := ⟨L - 1, by omega⟩
    rw [delay_first fwd h h0 hd (by omega)]
    omega
  · refine iff_of_false ?_ (by omega)
    rcases hge.eq_or_lt with rfl | hgt
    · rw [delay_over fwd h h0 hd]
      decide
    · -- the delay is over before the last think of the loop
      obtain ⟨k, rfl⟩ : ∃ k, L = 99 + k + 1 := ⟨L - 100, by omega⟩
      have hrest : (playbackAt fwd pb (0 + (99 + k))).delayCounter = 0 :=
        delay_inside fwd h hfin (s := 0) h0 (by decide) (by
          rw [Nat.zero_add]
          exact delay_over fwd h h0 hd) k (by omega)
      rw [Nat.zero_add] at hrest
      by_cases hframe : (playbackAt fwd pb (99 + k)).frameCounter = 0 ∨
          (playbackAt fwd pb (99 + k)).frameCounter = pb.finishFrame - 1
      · rw [delay_begins fwd h hrest hframe]
        decide
      · rw [delay_rests fwd h hrest hframe]
        decide

end Delay

/-! ### Announcements -/

section Announce
variable (fwd : ForwardIds) {pb : KrpPlayback} (h : 2 ≤ pb.frames.length)
include h

theorem started_mem_iff (t : ℕ) : Forward.botRunStarted ∈ forwardsAt fwd pb t ↔
    AtStart (playbackAt fwd pb t) ∧ fwd.botRunStarted > 0 := by
  rw [forwardsAt_eq fwd h]
  split_ifs <;> simp_all

theorem finished_mem_iff (t : ℕ) : Forward.botRunFinished ∈ forwardsAt fwd pb t ↔
    AtFinish (playbackAt fwd pb t) ∧ fwd.botRunFinished > 0 := by
  rw [forwardsAt_eq fwd h]
  split_ifs <;> simp_all

theorem forwardsAt_start {t : ℕ} (hframe : (playbackAt fwd pb t).frameCounter = 0)
    (hdelay : (playbackAt fwd pb t).delayCounter = 99) (hs : fwd.botRunStarted > 0) :
    forwardsAt fwd pb t = [.botRunStarted] := by
  have hno : ¬ AtFinish (playbackAt fwd pb t) := fun hat => by
    have hz := hat.2
    rw [hdelay] at hz
    exact absurd hz (by decide)
  rw [forwardsAt_eq fwd h, if_pos ⟨hframe, hdelay⟩, if_pos hs, if_neg hno]
  rfl

omit h in
theorem not_atStart {t : ℕ} (hdelay : (playbackAt fwd pb t).delayCounter = 0) :
    ¬ AtStart (playbackAt fwd pb t) := fun hat => by
  have h99 := hat.2
  rw [hdelay] at h99
  exact absurd h99 (by decide)

theorem forwardsAt_finish {t : ℕ}
    (hframe : (playbackAt fwd pb t).frameCounter = pb.finishFrame - 1)
    (hdelay : (playbackAt fwd pb t).delayCounter = 0) (hf : fwd.botRunFinished > 0) :
    forwardsAt fwd pb t = [.botRunFinished] := by
  have hat : AtFinish (playbackAt fwd pb t) := ⟨by rw [(kept fwd _ _).2.1, hframe], hdelay⟩
  rw [forwardsAt_eq fwd h, if_neg (not_atStart fwd hdelay), if_pos hat, if_pos hf]
  rfl

theorem forwardsAt_rest {t : ℕ} (hdelay : (playbackAt fwd pb t).delayCounter = 0)
    (hframe : (playbackAt fwd pb t).frameCounter ≠ pb.finishFrame - 1) :
    forwardsAt fwd pb t = [] := by
  have hno : ¬ AtFinish (playbackAt fwd pb t) := fun hat => by
    have hlast := hat.1
    rw [(kept fwd _ _).2.1] at hlast
    exact hframe hlast
  rw [forwardsAt_eq fwd h, if_neg (not_atStart fwd hdelay), if_neg hno]
  rfl

variable (hfin : pb.finishFrame = pb.frames.length - 1)
include hfin

theorem last_frame_iff (hL : loopLength pb.frames.length pb.doubleSpeed = 98) :
    (∃ i < 98, step pb * (i : ℕ) = pb.finishFrame - 1) ↔
      pb.frames.length = if pb.doubleSpeed then 196 else 99 := by
  rw [hfin]
  unfold loopLength at hL
  unfold step
  cases hdouble : pb.doubleSpeed with
  | true =>
    simp only [hdouble, if_true] at hL ⊢
    constructor
    · rintro ⟨i, -, hi⟩
      omega
    · exact fun hlen => ⟨97, by decide, by omega⟩
  | false =>
    simp only [hdouble, Bool.false_eq_true, if_false] at hL ⊢
    exact ⟨fun _ => by omega, fun hlen => ⟨97, by decide, by omega⟩⟩

variable (h0 : pb.frameCounter = 0)
include h0

theorem announces_window {n k : ℕ} (hall : AnnouncesLoops fwd pb n) (hk : 1 ≤ k)
    (hn : loopLength pb.frames.length pb.doubleSpeed * (k + 1) ≤ n) :
    (List.range' (loopLength pb.frames.length pb.doubleSpeed * k)
      (loopLength pb.frames.length pb.doubleSpeed)).flatMap (forwardsAt fwd pb) =
        [.botRunStarted, .botRunFinished] := by
  have hpos := loopLength_pos h hfin
  have hwraps := wraps_iff fwd h hfin h0
  generalize loopLength pb.frames.length pb.doubleSpeed = L at hn hpos hwraps ⊢
  have hLk : L ≤ L * k := Nat.le_mul_of_pos_right L hk
  rw [Nat.mul_succ] at hn
  have hwindow := hall (L * k - 1) (L * k + L - 1) (by omega) (by omega)
    ((hwraps _).mpr ⟨k, by omega⟩) ((hwraps _).mpr ⟨k + 1, by rw [Nat.mul_succ]; omega⟩)
    fun t hlo hhi hwrap => by
      obtain ⟨j, hj⟩ := (hwraps t).mp hwrap
      have hlo' : L * k < L * j := by omega
      have hhi' : L * j < L * (k + 1) := by
        rw [Nat.mul_succ]
        omega
      have hkj := Nat.lt_of_mul_lt_mul_left hlo'
      have hjk := Nat.lt_of_mul_lt_mul_left hhi'
      omega
  have hfrom : L * k - 1 + 1 = L * k := by omega
  have hcount : L * k + L - 1 - (L * k - 1) = L := by omega
  rwa [hfrom, hcount] at hwindow

theorem exists_loops {a b : ℕ} (hab : a < b) (ha : Wraps (playbackAt fwd pb a))
    (hb : Wraps (playbackAt fwd pb b)) : ∃ j k, 0 < j ∧ j < k ∧
      a + 1 = loopLength pb.frames.length pb.doubleSpeed * j ∧
      b + 1 = loopLength pb.frames.length pb.doubleSpeed * k := by
  obtain ⟨j, hj⟩ := (wraps_iff fwd h hfin h0 a).mp ha
  obtain ⟨k, hk⟩ := (wraps_iff fwd h hfin h0 b).mp hb
  have hjk : j < k := by
    refine Nat.lt_of_mul_lt_mul_left (a := loopLength pb.frames.length pb.doubleSpeed) ?_
    omega
  rcases Nat.eq_zero_or_pos j with rfl | hj0
  · omega
  · exact ⟨j, k, hj0, hjk, hj, hk⟩

/-- A window with a start has it at its beginning, where the delay ends. -/
theorem delay_of_started {k : ℕ} (hstarted : Forward.botRunStarted ∈
      (List.range' (loopLength pb.frames.length pb.doubleSpeed * k)
        (loopLength pb.frames.length pb.doubleSpeed)).flatMap (forwardsAt fwd pb)) :
    (playbackAt fwd pb (loopLength pb.frames.length pb.doubleSpeed * k)).delayCounter = 99 ∧
      fwd.botRunStarted > 0 := by
  obtain ⟨t, ht, hmem⟩ := List.mem_flatMap.mp hstarted
  obtain ⟨i, hi, rfl⟩ := List.mem_range'.mp ht
  rw [Nat.one_mul] at hmem
  obtain ⟨⟨hframe, hdelay⟩, hreg⟩ := (started_mem_iff fwd h _).mp hmem
  rw [frameCounter_loop fwd h hfin (frameCounter_loops fwd h hfin h0 k) i hi] at hframe
  have hstep : step pb ≠ 0 := (step_pos pb).ne'
  have hzero : i = 0 := Int.natCast_eq_zero.mp ((mul_eq_zero.mp hframe).resolve_left hstep)
  rw [hzero, Nat.add_zero] at hdelay
  exact ⟨hdelay, hreg⟩

theorem frame_of_finished {k : ℕ} (hfinished : Forward.botRunFinished ∈
      (List.range' (loopLength pb.frames.length pb.doubleSpeed * k)
        (loopLength pb.frames.length pb.doubleSpeed)).flatMap (forwardsAt fwd pb)) :
    (∃ i < loopLength pb.frames.length pb.doubleSpeed,
      step pb * (i : ℕ) = pb.finishFrame - 1) ∧ fwd.botRunFinished > 0 := by
  obtain ⟨t, ht, hmem⟩ := List.mem_flatMap.mp hfinished
  obtain ⟨i, hi, rfl⟩ := List.mem_range'.mp ht
  rw [Nat.one_mul] at hmem
  obtain ⟨⟨hframe, -⟩, hreg⟩ := (finished_mem_iff fwd h _).mp hmem
  rw [frameCounter_loop fwd h hfin (frameCounter_loops fwd h hfin h0 k) i hi,
    (kept fwd _ _).2.1] at hframe
  exact ⟨⟨i, hi, hframe⟩, hreg⟩

variable (hd : pb.delayCounter = 0)
include hd

/-- **The second loop** where a loop takes 98 thinks: the delay of the first ends with it, and the
finish begins the next one. -/
theorem second_loop (hL : loopLength pb.frames.length pb.doubleSpeed = 98)
    (hlast : pb.frames.length = if pb.doubleSpeed then 196 else 99) :
    (∀ i, 0 < i → i < 98 → (playbackAt fwd pb (98 + i)).delayCounter = 0) ∧
      (playbackAt fwd pb 196).delayCounter = 2 := by
  have hframe0 : (playbackAt fwd pb 98).frameCounter = 0 := by
    have hloop := frameCounter_loops fwd h hfin h0 1
    rwa [hL] at hloop
  have hinside : ∀ i, 0 < i → i < 98 → (playbackAt fwd pb (98 + i)).delayCounter = 0 := by
    intro i hi hi98
    have hrest := delay_inside fwd h hfin hframe0 Nat.one_pos (delay_over fwd h h0 hd) (i - 1)
      (by omega)
    rwa [Nat.add_sub_cancel' hi] at hrest
  refine ⟨hinside, delay_begins fwd h (hinside 97 (by decide) (by decide)) (Or.inr ?_)⟩
  obtain ⟨i, hi, hi'⟩ := (last_frame_iff h hfin hL).mpr hlast
  have hlt : ¬ i + 1 < 98 := fun hlt => by
    have hbefore := (lt_loopLength h hfin (i + 1)).mp (by rwa [hL])
    rw [Nat.cast_succ, mul_add, mul_one] at hbefore
    have hstep := step_pos pb
    omega
  obtain rfl : i = 97 := by omega
  rw [frameCounter_loop fwd h hfin hframe0 97 (by omega)]
  exact hi'

/-- **The forwards of the second loop**, in the one case where it is announced. -/
theorem forwards_second_loop (hL : loopLength pb.frames.length pb.doubleSpeed = 98)
    (hlast : pb.frames.length = if pb.doubleSpeed then 196 else 99)
    (hs : fwd.botRunStarted > 0) (hf : fwd.botRunFinished > 0) :
    (List.range' 98 98).flatMap (forwardsAt fwd pb) = [.botRunStarted, .botRunFinished] := by
  obtain ⟨hinside, -⟩ := second_loop fwd h hfin h0 hd hL hlast
  have hframe0 : (playbackAt fwd pb 98).frameCounter = 0 := by
    have hloop := frameCounter_loops fwd h hfin h0 1
    rwa [hL] at hloop
  have hdelay0 : (playbackAt fwd pb 98).delayCounter = 99 := by
    have hdelay := (delay_loop fwd h hfin h0 hd).mpr hL
    rwa [hL] at hdelay
  have hframe (i : ℕ) (hi : i < 98) : (playbackAt fwd pb (98 + i)).frameCounter = step pb * i :=
    frameCounter_loop fwd h hfin hframe0 i (by omega)
  have hend : step pb * (97 : ℕ) = pb.finishFrame - 1 := by
    rw [hfin, hlast]
    unfold step
    split_ifs <;> rfl
  have hfirst := forwardsAt_start fwd h hframe0 hdelay0 hs
  have hmiddle : (List.range' 99 96).flatMap (forwardsAt fwd pb) = [] := by
    refine List.flatMap_eq_nil_iff.mpr fun t ht => ?_
    obtain ⟨i, hi, rfl⟩ := List.mem_range'.mp ht
    have ht' : 99 + 1 * i = 98 + (1 + i) := by omega
    rw [ht']
    refine forwardsAt_rest fwd h (hinside (1 + i) (by omega) (by omega)) ?_
    rw [hframe (1 + i) (by omega), ← hend]
    intro heq
    have hi97 : ((1 + i : ℕ) : ℤ) = (97 : ℕ) := mul_left_cancel₀ (step_pos pb).ne' heq
    omega
  have hfinal : forwardsAt fwd pb 195 = [.botRunFinished] :=
    forwardsAt_finish fwd h ((hframe 97 (by decide)).trans hend)
      (hinside 97 (by decide) (by decide)) hf
  have hsplit : List.range' 98 98 = 98 :: (List.range' 99 96 ++ [195]) := by decide
  rw [hsplit, List.flatMap_cons, List.flatMap_append, hfirst, hmiddle, List.flatMap_singleton,
    hfinal]
  rfl

end Announce

/-- **The bot announces every loop** of `n` thinks of a replay that was just loaded exactly where
they do not reach a second wrap, or a loop takes 98 thinks up to the last frame, both forwards are
registered, and the thinks do not reach a third wrap. -/
theorem announcesLoops_iff (fwd : ForwardIds) (pb : KrpPlayback) (h : 2 ≤ pb.frames.length)
    (doubleSpeed : Bool) (n : ℕ) :
    AnnouncesLoops fwd { pb.load with doubleSpeed } n ↔
      n < 2 * loopLength pb.frames.length doubleSpeed ∨
        (pb.frames.length = if doubleSpeed then 196 else 99) ∧ fwd.botRunStarted > 0 ∧
          fwd.botRunFinished > 0 ∧ n < 294 := by
  generalize hpb : ({ pb.load with doubleSpeed } : KrpPlayback) = pb'
  have hlen : pb'.frames.length = pb.frames.length := by rw [← hpb]; rfl
  have hdouble : pb'.doubleSpeed = doubleSpeed := by rw [← hpb]
  have hfin : pb'.finishFrame = pb'.frames.length - 1 := by rw [← hpb]; rfl
  have h0 : pb'.frameCounter = 0 := by rw [← hpb]; rfl
  have hd : pb'.delayCounter = 0 := by rw [← hpb]; rfl
  rw [← hlen] at h
  rw [← hlen, ← hdouble]
  clear hpb hlen hdouble
  have hpos := loopLength_pos h hfin
  constructor
  · intro hall
    by_contra hno
    rw [not_or, not_lt] at hno
    obtain ⟨hn, hno⟩ := hno
    -- the second loop is there, and announced
    have hwindow := announces_window fwd h hfin h0 hall (k := 1) le_rfl (by omega)
    obtain ⟨hdelay, hs⟩ := delay_of_started fwd h hfin h0 (k := 1) (by rw [hwindow]; decide)
    obtain ⟨hlast, hf⟩ := frame_of_finished fwd h hfin h0 (k := 1) (by rw [hwindow]; decide)
    rw [Nat.mul_one] at hdelay
    have hL := (delay_loop fwd h hfin h0 hd).mp hdelay
    rw [hL] at hlast
    have hframes := (last_frame_iff h hfin hL).mp hlast
    have hn3 : 294 ≤ n := not_lt.mp fun hlt => hno ⟨hframes, hs, hf, hlt⟩
    -- so the third one is not
    have hwindow' := announces_window fwd h hfin h0 hall (k := 2) (by decide) (by rw [hL]; omega)
    obtain ⟨hdelay', -⟩ := delay_of_started fwd h hfin h0 (k := 2) (by rw [hwindow']; decide)
    rw [hL, (second_loop fwd h hfin h0 hd hL hframes).2] at hdelay'
    exact absurd hdelay' (by decide)
  · intro hcond a b hab hbn ha hb _
    obtain ⟨j, k, hj0, hjk, hj, hk⟩ := exists_loops fwd h hfin h0 hab ha hb
    have h2 : loopLength pb'.frames.length pb'.doubleSpeed * 2 ≤ b + 1 := by
      rw [hk]
      exact Nat.mul_le_mul_left _ (by omega)
    rcases hcond with hn | ⟨hframes, hs, hf, hn⟩
    · omega
    · have hL : loopLength pb'.frames.length pb'.doubleSpeed = 98 := by
        rw [hframes]
        unfold loopLength
        cases pb'.doubleSpeed <;> rfl
      rw [hL] at hj hk
      obtain rfl : a = 97 := by omega
      obtain rfl : b = 195 := by omega
      exact forwards_second_loop fwd h hfin h0 hd hL hframes hs hf

/-- A frame of zeros. -/
def sampleFrame : Krp.Format.KrpFrame := .ofFn fun _ => 0

/-- A replay of so many frames. -/
def samplePlayback (frames : ℕ) : KrpPlayback where
  filepath := ⟨false, [], false⟩
  header := .zero
  frames := List.replicate frames sampleFrame
  timeMs := 0

theorem announcesLoops_sample :
    AnnouncesLoops ⟨1, 2⟩ { (samplePlayback 99).load with doubleSpeed := false } 293 :=
  (announcesLoops_iff ⟨1, 2⟩ (samplePlayback 99) (by decide) false 293).mpr
    (Or.inr ⟨rfl, by decide, by decide, by decide⟩)

/-- **A replay of three frames**: the second loop goes by without a start. -/
theorem loop_not_announced :
    ¬ AnnouncesLoops ⟨1, 2⟩ { (samplePlayback 3).load with doubleSpeed := false } 4 := by
  intro hall
  have hwindow := hall 1 3 (by decide) (by decide) (by decide) (by decide) fun t h1 h3 => by
    obtain rfl : t = 2 := by omega
    decide
  exact absurd hwindow (by decide)

end KzGlobal.Playback.Announce
