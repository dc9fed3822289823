import KzGlobal.Playback.Cursor
import KzGlobal.Playback.Recorded

/-! # What the bot shows

A think of `kz_bot_think` puts the bot at the frame behind the cursor, turns it, presses its buttons
and lets it step. Over all thinks since a replay was loaded: at a constant speed the spots of each
loop are those of the frames after the first, in order and each once, or every second one
(`path_shown`); at any speeds a footstep sounds where the bot runs on the ground and jumps or no
other sounded in the last 29 thinks, left and right in turn, and `+use` is a move of the think of an
announcement and of the next (`steps_shown`). Floats are their bits, and what is computed of them is
whatever the arithmetic of `float` gives. -/

namespace KzGlobal.Playback.Show

open KzGlobal.Krp.Format KzGlobal.Krp.Frame
open KzGlobal.Replay KzGlobal.Replay.Writer KzGlobal.Playback.Threads KzGlobal.Playback.Announce
open KzGlobal.Playback.Recorded (KrpPlaybackFrame playbackFrame)

/-! ### The bot -/

/-- The operations of `float`, on bits. -/
structure Arith where
  add : UInt32 → UInt32 → UInt32
  sub : UInt32 → UInt32 → UInt32
  mul : UInt32 → UInt32 → UInt32
  div : UInt32 → UInt32 → UInt32
  lt : UInt32 → UInt32 → Bool

/-- `0.0f`. -/
def literal0 : UInt32 := 0

/-- `0.01f`. -/
def literal001 : UInt32 := 0x3c23d70a

/-- `1.35f`. -/
def literal135 : UInt32 := 0x3faccccd

/-- `1.5f`. -/
def literal15 : UInt32 := 0x3fc00000

/-- `100.0f`. -/
def literal100 : UInt32 := 0x42c80000

/-- `-3.0f`. -/
def literalNeg3 : UInt32 := 0xc0400000

/-- The bit of `FL_ONGROUND`. -/
def flOnground : ℕ := 9

/-- The bit of `IN_JUMP`. -/
def inJump : ℕ := 1

/-- The bit of `IN_DUCK`. -/
def inDuck : ℕ := 2

/-- `IN_USE`. -/
def inUse : UInt32 := 32

/-- A flag of a bit set. -/
def hasFlag (bits : UInt32) (k : ℕ) : Bool := bits.toNat.testBit k

/-- What a think is given: the speed that was set, `RANDOM_LONG(0, 1)`, and where the trace below
the bot ended and on what plane. -/
structure ThinkInput where
  doubleSpeed : Bool
  random : Bool
  flFraction : UInt32
  planeNormalZ : UInt32

/-- The playback with the members that only a think uses. -/
structure Bot where
  pb : KrpPlayback
  useCmd : Bool
  useCount : ℕ := 0
  plrSound : ℤ := 0
  stepLeft : Bool := false

/-- The bot that `kz_pb_frame` makes of a parsed replay. -/
def Bot.load (useCmd : Bool) (pb : KrpPlayback) : Bot := { pb := pb.load, useCmd }

/-- `kz_api playback speed`. -/
def Bot.setSpeed (doubleSpeed : Bool) (b : Bot) : Bot := { b with pb := { b.pb with doubleSpeed } }

/-- The four sounds of a footstep. -/
inductive Sound
  | plStep1
  | plStep2
  | plStep3
  | plStep4
  deriving DecidableEq

/-- The buttons are set, or the engine runs a move with them. -/
inductive Press
  | set (button : UInt32)
  | runPlayerMove (button : UInt32)
  deriving DecidableEq

/-- What a think makes of the bot's entity. -/
structure Shown where
  origin : V3f
  velocity : V3f
  vAngle : V3f
  angles : V3f
  press : Press
  gaitsequence : ℕ
  sound : Option Sound

/-! ### A think -/

/-- A frame of the playback, with the members that `parse_playback` keeps. The cursor is always on
the frames (`OnFrames` of `Cursor`). -/
def frame (pb : KrpPlayback) (index : ℤ) : KrpPlaybackFrame :=
  playbackFrame (pb.frames.getD index.toNat zeroFrame)

/-- The frame at the cursor. -/
def current (b : Bot) : KrpPlaybackFrame := frame b.pb b.pb.frameCounter

/-- The frame behind the cursor, if there is one. -/
def following (b : Bot) : KrpPlaybackFrame :=
  frame b.pb (if b.pb.frameCounter + 1 < b.pb.frames.length then b.pb.frameCounter + 1
    else b.pb.frameCounter)

section Think
variable (a : Arith)

/-- `sqr_speed`. -/
def sqrSpeed (b : Bot) : UInt32 :=
  let dx := a.sub (following b).origin.x (current b).origin.x
  let dy := a.sub (following b).origin.y (current b).origin.y
  a.add (a.mul dx dx) (a.mul dy dy)

/-- The velocity: a hundred times the way to the next frame, and nothing upwards. -/
def velocity (b : Bot) : V3f where
  x := a.mul (a.sub (following b).origin.x (current b).origin.x) literal100
  y := a.mul (a.sub (following b).origin.y (current b).origin.y) literal100
  z := literal0

/-- The `gaitsequence` of the entity: it jumps, ducks, stands, walks or runs. -/
def gaitsequence (i : ThinkInput) (b : Bot) : ℕ :=
  let bDuck := hasFlag (current b).button inDuck
  let bDucking := bDuck || a.lt i.flFraction (a.sub i.planeNormalZ literal001)
  let moves := a.lt literal0 (sqrSpeed a b)
  if hasFlag (current b).flags flOnground then
    if hasFlag (current b).button inJump then 6
    else if bDucking then if moves then 5 else 2
    else if a.lt (a.mul literal135 literal135) (sqrSpeed a b) then 4
    else if moves then 3 else 1
  else if bDuck then 2 else 6

/-- The bot is at an announcement. -/
def AtAnnouncement (b : Bot) : Prop := AtStart b.pb ∨ AtFinish b.pb

instance (b : Bot) : Decidable (AtAnnouncement b) := by unfold AtAnnouncement; infer_instance

/-- The buttons of a think, and the uses that are left. -/
def useCommand (b : Bot) : ℕ × Press :=
  let button := (current b).button
  if b.useCmd then
    let useCount := if AtAnnouncement b then 2 else b.useCount
    if useCount ≠ 0 then (useCount - 1, .runPlayerMove button) else (useCount, .set button)
  else (b.useCount, .set (button ||| ~~~ inUse))

/-- The bot runs on the ground. -/
def Runs (b : Bot) : Prop :=
  hasFlag (current b).flags flOnground = true ∧
    a.lt (a.mul literal15 literal15) (sqrSpeed a b) = true

instance (b : Bot) : Decidable (Runs a b) := by unfold Runs; infer_instance

/-- The jump is pressed and was before. -/
def Jumps (b : Bot) : Prop :=
  hasFlag (current b).button inJump = true ∧ hasFlag (current b).oldbuttons inJump = true

instance (b : Bot) : Decidable (Jumps b) := by unfold Jumps; infer_instance

/-- A footstep, with the foot that it is of. -/
def kzBotFootsteps (random : Bool) (b : Bot) : Bot × Option Sound :=
  if b.plrSound ≤ 0 then
    let stepLeft := !b.stepLeft
    ({ b with stepLeft, plrSound := 300 },
      match random.toNat + stepLeft.toNat * 2 with
      | 0 => some .plStep1
      | 1 => some .plStep3
      | 2 => some .plStep2
      | 3 => some .plStep4
      | _ => none)
  else (b, none)

/-- The footstep of a think. -/
def footstep (random : Bool) (b : Bot) : Bot × Option Sound :=
  if Runs a b then
    kzBotFootsteps random (if Jumps b then { b with plrSound := 0 } else b)
  else (b, none)

/-- **A footstep** sounds where the bot runs and its jump or the time since the last one asks for
it, and is of the other foot. -/
theorem footstep_cases (random : Bool) (b : Bot) :
    (Runs a b ∧ (Jumps b ∨ b.plrSound ≤ 0) ∧
      ∃ s, footstep a random b = ({ b with stepLeft := !b.stepLeft, plrSound := 300 }, some s) ∧
        (s = .plStep2 ∨ s = .plStep4 ↔ b.stepLeft = false)) ∨
    (¬ (Runs a b ∧ (Jumps b ∨ b.plrSound ≤ 0)) ∧ footstep a random b = (b, none)) := by
  by_cases hruns : Runs a b
  · by_cases hsounds : Jumps b ∨ b.plrSound ≤ 0
    · refine .inl ⟨hruns, hsounds, ?_⟩
      have hzero : (if Jumps b then { b with plrSound := 0 } else b).plrSound ≤ 0 := by
        split_ifs with hjumps
        · exact le_refl 0
        · exact hsounds.resolve_left hjumps
      rw [footstep, if_pos hruns, kzBotFootsteps, if_pos hzero]
      obtain ⟨pb, useCmd, useCount, plrSound, stepLeft⟩ := b
      split_ifs <;> cases random <;> cases stepLeft <;> exact ⟨_, rfl, by simp⟩
    · obtain ⟨hjumps, hpositive⟩ := not_or.mp hsounds
      refine .inr ⟨fun hs => hsounds hs.2, ?_⟩
      rw [footstep, if_pos hruns, if_neg hjumps, kzBotFootsteps, if_neg hpositive]
  · exact .inr ⟨fun hs => hruns hs.1, if_neg hruns⟩

theorem useCommand_fst (b : Bot) (hcmd : b.useCmd = true) (hone : b.useCount ≤ 1) :
    (useCommand b).1 ≤ 1 ∧ ((useCommand b).1 ≠ 0 ↔ AtAnnouncement b) := by
  by_cases hann : AtAnnouncement b
  · simp [useCommand, hcmd, hann]
  · rcases Nat.le_one_iff_eq_zero_or_eq_one.mp hone with hcount | hcount <;>
      simp [useCommand, hcmd, hann, hcount]

theorem useCommand_snd (b : Bot) : (∃ button, (useCommand b).2 = .runPlayerMove button) ↔
    b.useCmd = true ∧ (AtAnnouncement b ∨ b.useCount ≠ 0) := by
  by_cases hcmd : b.useCmd = true
  · by_cases hann : AtAnnouncement b
    · simp [useCommand, hcmd, hann]
    · by_cases hzero : b.useCount = 0 <;> simp [useCommand, hcmd, hann, hzero]
  · simp [useCommand, hcmd]

theorem useCmd_footstep (random : Bool) (b : Bot) :
    (footstep a random b).1.useCmd = b.useCmd := by
  rcases footstep_cases a random b with ⟨-, -, s, hs, -⟩ | ⟨-, hs⟩ <;> rw [hs]

/-- `kz_bot_think`, with the counters of `Announce`. -/
def kzBotThink (fwd : ForwardIds) (i : ThinkInput) (b : Bot) : Bot × Option Shown :=
  if b.pb.frames.length < 2 then (b, none)
  else
    let use := useCommand b
    let step := footstep a i.random b
    ({ step.1 with
        pb := (Announce.kzBotThink fwd b.pb).1
        useCount := use.1
        plrSound := step.1.plrSound - 10 },
      some {
        origin := (following b).origin
        velocity := velocity a b
        vAngle := (following b).vAngle
        angles := { (following b).vAngle with x := a.div (following b).vAngle.x literalNeg3 }
        press := use.2
        gaitsequence := gaitsequence a i b
        sound := step.2 })

end Think

/-! ### Thinks since a replay was loaded -/

/-- The cursor of a loaded replay, in every loop. -/
theorem frameCounter_playbackAt (fwd : ForwardIds) {pb : KrpPlayback} (h : 2 ≤ pb.frames.length)
    (hfin : pb.finishFrame = pb.frames.length - 1) (hzero : pb.frameCounter = 0) (t : ℕ) :
    (playbackAt fwd pb t).frameCounter =
        Announce.step pb * (t % loopLength pb.frames.length pb.doubleSpeed : ℕ) ∧
      Announce.step pb * (t % loopLength pb.frames.length pb.doubleSpeed : ℕ) <
        pb.finishFrame := by
  have hlt := Nat.mod_lt t (loopLength_pos h hfin)
  refine ⟨?_, (lt_loopLength h hfin _).mp hlt⟩
  have hloop := frameCounter_loop fwd h hfin
    (frameCounter_loops fwd h hfin hzero (t / loopLength pb.frames.length pb.doubleSpeed)) _ hlt
  rwa [Nat.div_add_mod] at hloop

section Run
variable (a : Arith) (fwd : ForwardIds) (i : ℕ → ThinkInput) (useCmd : Bool) (pb : KrpPlayback)

/-- The bot at think `t` after `pb` was loaded, at the speed of the think. -/
def botAt : ℕ → Bot
  | 0 => (Bot.load useCmd pb).setSpeed (i 0).doubleSpeed
  | t + 1 => (kzBotThink a fwd (i t) (botAt t)).1.setSpeed (i (t + 1)).doubleSpeed

/-- What think `t` shows. -/
def shownAt (t : ℕ) : Option Shown := (kzBotThink a fwd (i t) (botAt a fwd i useCmd pb t)).2

/-- The sound of think `t`. -/
def soundAt (t : ℕ) : Option Sound := (shownAt a fwd i useCmd pb t).bind Shown.sound

/-- Think `t` sounds. -/
def Sounds (t : ℕ) : Prop := (soundAt a fwd i useCmd pb t).isSome

instance : DecidablePred (Sounds a fwd i useCmd pb) := fun _ => by unfold Sounds; infer_instance

/-- The footsteps before think `t`. -/
def stepsBefore (t : ℕ) : ℕ := (List.range t).countP fun u => Sounds a fwd i useCmd pb u

theorem stepsBefore_succ (t : ℕ) : stepsBefore a fwd i useCmd pb (t + 1) =
    stepsBefore a fwd i useCmd pb t + if Sounds a fwd i useCmd pb t then 1 else 0 := by
  simp [stepsBefore, List.range_succ, List.countP_append, List.countP_singleton]

theorem frames_kzBotThink (j : ThinkInput) (b : Bot) :
    (kzBotThink a fwd j b).1.pb = (Announce.kzBotThink fwd b.pb).1 := by
  unfold kzBotThink Announce.kzBotThink
  split_ifs <;> rfl

theorem frames_botAt (t : ℕ) : (botAt a fwd i useCmd pb t).pb.frames = pb.frames := by
  induction t with
  | zero => rfl
  | succ t ih =>
    have hkept := (kept fwd (botAt a fwd i useCmd pb t).pb 1).1
    rw [botAt, Bot.setSpeed, frames_kzBotThink, ← ih, ← hkept]
    rfl

variable (h : 2 ≤ pb.frames.length)
include h

theorem not_short_botAt (t : ℕ) : ¬ (botAt a fwd i useCmd pb t).pb.frames.length < 2 := by
  rw [frames_botAt]
  omega

/-- **A think of a loaded replay.** -/
theorem kzBotThink_botAt (t : ℕ) : ∃ s, shownAt a fwd i useCmd pb t = some s ∧
    s.origin = (following (botAt a fwd i useCmd pb t)).origin ∧
    s.vAngle = (following (botAt a fwd i useCmd pb t)).vAngle ∧
    s.velocity = velocity a (botAt a fwd i useCmd pb t) ∧
    s.press = (useCommand (botAt a fwd i useCmd pb t)).2 ∧
    s.sound = (footstep a (i t).random (botAt a fwd i useCmd pb t)).2 := by
  rw [shownAt, kzBotThink, if_neg (not_short_botAt a fwd i useCmd pb h t)]
  exact ⟨_, rfl, rfl, rfl, rfl, rfl, rfl⟩

theorem botAt_succ (t : ℕ) : botAt a fwd i useCmd pb (t + 1) =
    Bot.setSpeed (i (t + 1)).doubleSpeed
      { (footstep a (i t).random (botAt a fwd i useCmd pb t)).1 with
        pb := (Announce.kzBotThink fwd (botAt a fwd i useCmd pb t).pb).1
        useCount := (useCommand (botAt a fwd i useCmd pb t)).1
        plrSound := (footstep a (i t).random (botAt a fwd i useCmd pb t)).1.plrSound - 10 } := by
  rw [botAt, kzBotThink, if_neg (not_short_botAt a fwd i useCmd pb h t)]

/-! ### The path -/

section Path
variable {doubleSpeed : Bool} (hspeed : ∀ t, (i t).doubleSpeed = doubleSpeed)
include hspeed

/-- At a constant speed the cursor is that of the announcements. -/
theorem pb_botAt (t : ℕ) :
    (botAt a fwd i useCmd pb t).pb = playbackAt fwd { pb.load with doubleSpeed } t := by
  induction t with
  | zero => simp [botAt, Bot.setSpeed, Bot.load, hspeed, playbackAt]
  | succ t ih =>
    have hkept := (kept fwd { pb.load with doubleSpeed } (t + 1)).2.2
    rw [botAt_succ a fwd i useCmd pb h, playbackAt_succ, Bot.setSpeed, hspeed, ih]
    rw [playbackAt_succ] at hkept
    generalize (Announce.kzBotThink fwd (playbackAt fwd { pb.load with doubleSpeed } t)).1 = pb'
      at hkept ⊢
    change pb'.doubleSpeed = doubleSpeed at hkept
    rw [← hkept]

/-- The frame at the cursor in think `t`. -/
def cursor (frames : ℕ) (doubleSpeed : Bool) (t : ℕ) : ℕ :=
  (if doubleSpeed then 2 else 1) * (t % loopLength frames doubleSpeed)

theorem frameCounter_botAt (t : ℕ) :
    (botAt a fwd i useCmd pb t).pb.frameCounter = cursor pb.frames.length doubleSpeed t ∧
      cursor pb.frames.length doubleSpeed t + 1 < pb.frames.length := by
  have hload : 2 ≤ ({ pb.load with doubleSpeed } : KrpPlayback).frames.length := h
  obtain ⟨hcounter, hend⟩ := frameCounter_playbackAt fwd hload rfl rfl t
  have hstep : Announce.step { pb.load with doubleSpeed } *
      ((t % loopLength pb.frames.length doubleSpeed : ℕ) : ℤ) =
      cursor pb.frames.length doubleSpeed t := by
    unfold Announce.step cursor
    split_ifs <;> push_cast <;> rfl
  have hlast : (cursor pb.frames.length doubleSpeed t : ℤ) < pb.frames.length - 1 :=
    hstep ▸ hend
  rw [pb_botAt a fwd i useCmd pb h hspeed]
  exact ⟨hcounter.trans hstep, by omega⟩

/-- **The bot goes the way of the replay.** At a constant speed think `t` after the load shows the
bot at the frame behind the cursor, turned as in it and with the speed between the two frames, and
before it the clients are sent the frame at the cursor. The cursor runs through the replay in every
loop, over every frame or every second one. -/
theorem path_shown (t : ℕ) : ∃ f g s,
    pb.frames[cursor pb.frames.length doubleSpeed t]? = some f ∧
    pb.frames[cursor pb.frames.length doubleSpeed t + 1]? = some g ∧
    Cursor.frameAt (botAt a fwd i useCmd pb t).pb.frames
      (botAt a fwd i useCmd pb t).pb.frameCounter = .ok f ∧
    shownAt a fwd i useCmd pb t = some s ∧
    s.origin = (playbackFrame g).origin ∧ s.vAngle = (playbackFrame g).vAngle ∧
    s.velocity =
      ⟨a.mul (a.sub (playbackFrame g).origin.x (playbackFrame f).origin.x) literal100,
        a.mul (a.sub (playbackFrame g).origin.y (playbackFrame f).origin.y) literal100,
        literal0⟩ := by
  obtain ⟨hcursor, hlt⟩ := frameCounter_botAt a fwd i useCmd pb h hspeed t
  obtain ⟨s, hs, horigin, hangle, hvelocity, -⟩ := kzBotThink_botAt a fwd i useCmd pb h t
  have hframes := frames_botAt a fwd i useCmd pb t
  have hcurrent : current (botAt a fwd i useCmd pb t) =
      playbackFrame pb.frames[cursor pb.frames.length doubleSpeed t] := by
    rw [current, frame, hcursor, hframes, Int.toNat_natCast, List.getD_eq_getElem?_getD,
      List.getElem?_eq_getElem (by omega), Option.getD_some]
  have hfollowing : following (botAt a fwd i useCmd pb t) =
      playbackFrame pb.frames[cursor pb.frames.length doubleSpeed t + 1] := by
    rw [following, hcursor, hframes, if_pos (by omega), frame, hframes, ← Nat.cast_succ,
      Int.toNat_natCast, List.getD_eq_getElem?_getD, List.getElem?_eq_getElem hlt,
      Option.getD_some]
  refine ⟨_, _, s, List.getElem?_eq_getElem (by omega), List.getElem?_eq_getElem hlt, ?_, hs, ?_,
    ?_, ?_⟩
  · rw [hcursor, hframes, Cursor.frameAt, if_neg (by omega), Int.toNat_natCast,
      List.getElem?_eq_getElem (by omega)]
  · rw [horigin, hfollowing]
  · rw [hangle, hfollowing]
  · rw [hvelocity, velocity, hcurrent, hfollowing]

end Path

/-! ### The footsteps -/

theorem soundAt_eq (t : ℕ) : soundAt a fwd i useCmd pb t =
    (footstep a (i t).random (botAt a fwd i useCmd pb t)).2 := by
  obtain ⟨s, hs, -, -, -, -, hsound⟩ := kzBotThink_botAt a fwd i useCmd pb h t
  rw [soundAt, hs, ← hsound]
  rfl

theorem sounds_iff (t : ℕ) : Sounds a fwd i useCmd pb t ↔
    Runs a (botAt a fwd i useCmd pb t) ∧ (Jumps (botAt a fwd i useCmd pb t) ∨
      (botAt a fwd i useCmd pb t).plrSound ≤ 0) := by
  rw [Sounds, soundAt_eq a fwd i useCmd pb h]
  rcases footstep_cases a (i t).random (botAt a fwd i useCmd pb t) with
    ⟨hruns, hsounds, s, hs, -⟩ | ⟨hsilent, hs⟩
  · simp [hs, hruns, hsounds]
  · simp [hs, hsilent]

/-- The time that `plr_sound` counts: 300 with each footstep, 10 less with each think. -/
structure StepClock (t : ℕ) : Prop where
  foot : (botAt a fwd i useCmd pb t).stepLeft = decide (Odd (stepsBefore a fwd i useCmd pb t))
  clock : (∃ u < t, Sounds a fwd i useCmd pb u ∧
      (∀ v < t, Sounds a fwd i useCmd pb v → v ≤ u) ∧
      (botAt a fwd i useCmd pb t).plrSound = 300 - 10 * ((t : ℤ) - u)) ∨
    ((∀ u < t, ¬ Sounds a fwd i useCmd pb u) ∧ (botAt a fwd i useCmd pb t).plrSound ≤ 0)

/-- **One think keeps the clock.** -/
theorem StepClock.succ {t : ℕ} (hclock : StepClock a fwd i useCmd pb t) :
    StepClock a fwd i useCmd pb (t + 1) := by
  have hcount := stepsBefore_succ a fwd i useCmd pb t
  have hsounds := sounds_iff a fwd i useCmd pb h t
  have hsucc := botAt_succ a fwd i useCmd pb h t
  rcases footstep_cases a (i t).random (botAt a fwd i useCmd pb t) with
    ⟨hruns, hstep, s, hs, -⟩ | ⟨hsilent, hs⟩
  · have hsound : Sounds a fwd i useCmd pb t := hsounds.mpr ⟨hruns, hstep⟩
    rw [if_pos hsound] at hcount
    refine ⟨?_, .inl ⟨t, t.lt_succ_self, hsound, fun v hv _ => Nat.lt_succ_iff.mp hv, ?_⟩⟩
    · rw [hsucc, hs, hcount]
      simp only [Bot.setSpeed, hclock.foot, Nat.odd_add_one, decide_not]
    · rw [hsucc, hs]
      simp only [Bot.setSpeed]
      push_cast
      omega
  · have hsound : ¬ Sounds a fwd i useCmd pb t := fun hsound => hsilent (hsounds.mp hsound)
    rw [if_neg hsound, Nat.add_zero] at hcount
    have hkept : ∀ {v}, v < t + 1 → Sounds a fwd i useCmd pb v → v < t := fun hv hsv =>
      (Nat.lt_succ_iff_lt_or_eq.mp hv).resolve_right fun heq => hsound (heq ▸ hsv)
    refine ⟨?_, ?_⟩
    · rw [hsucc, hs, hcount]
      exact hclock.foot
    · rw [hsucc, hs]
      simp only [Bot.setSpeed]
      rcases hclock.clock with ⟨u, hu, hsu, hlast, hplr⟩ | ⟨hnone, hplr⟩
      · refine .inl ⟨u, hu.trans t.lt_succ_self, hsu,
          fun v hv hsv => hlast v (hkept hv hsv) hsv, ?_⟩
        push_cast
        omega
      · exact .inr ⟨fun v hv hsv => hnone v (hkept hv hsv) hsv, by omega⟩

theorem stepClock (t : ℕ) : StepClock a fwd i useCmd pb t := by
  induction t with
  | zero => exact ⟨rfl, .inr ⟨fun u hu => absurd hu u.not_lt_zero, le_refl 0⟩⟩
  | succ t ih => exact ih.succ a fwd i useCmd pb h

omit h in
theorem StepClock.plrSound_le {t : ℕ} (hclock : StepClock a fwd i useCmd pb t) :
    (botAt a fwd i useCmd pb t).plrSound ≤ 0 ↔
      ∀ u < t, Sounds a fwd i useCmd pb u → u + 30 ≤ t := by
  rcases hclock.clock with ⟨u, hu, hsu, hlast, hplr⟩ | ⟨hnone, hplr⟩
  · constructor
    · intro hle v hv hsv
      have := hlast v hv hsv
      omega
    · intro hall
      have := hall u hu hsu
      omega
  · exact ⟨fun _ u hu hsu => absurd hsu (hnone u hu), fun _ => hplr⟩

/-! ### The uses -/

theorem useCmd_botAt (t : ℕ) : (botAt a fwd i useCmd pb t).useCmd = useCmd := by
  induction t with
  | zero => rfl
  | succ t ih =>
    rw [botAt_succ a fwd i useCmd pb h, Bot.setSpeed]
    exact (useCmd_footstep a _ _).trans ih

theorem useCount_botAt (hcmd : useCmd = true) (t : ℕ) :
    (botAt a fwd i useCmd pb t).useCount ≤ 1 ∧
      ((botAt a fwd i useCmd pb t).useCount ≠ 0 ↔
        ∃ u, t = u + 1 ∧ AtAnnouncement (botAt a fwd i useCmd pb u)) := by
  induction t with
  | zero => exact ⟨Nat.zero_le 1, fun hne => absurd rfl hne, by rintro ⟨u, hu, -⟩; omega⟩
  | succ t ih =>
    obtain ⟨hle, hne⟩ := useCommand_fst _ ((useCmd_botAt a fwd i useCmd pb h t).trans hcmd) ih.1
    rw [botAt_succ a fwd i useCmd pb h]
    refine ⟨hle, hne.trans ⟨fun hann => ⟨t, rfl, hann⟩, ?_⟩⟩
    rintro ⟨u, hu, hann⟩
    obtain rfl : t = u := Nat.succ.inj hu
    exact hann

/-- **The steps of the bot.** At any speeds a think sounds where the bot runs on the ground and
jumps or the last 29 thinks were silent, the footsteps are of the left foot and of the right one in
turn, and the engine runs a move where `use_cmd` is set, in the think of an announcement and in the
next. -/
theorem steps_shown (t : ℕ) : ∃ s, shownAt a fwd i useCmd pb t = some s ∧
    (s.sound.isSome ↔ Runs a (botAt a fwd i useCmd pb t) ∧
      (Jumps (botAt a fwd i useCmd pb t) ∨
        ∀ u < t, Sounds a fwd i useCmd pb u → u + 30 ≤ t)) ∧
    (∀ sound, s.sound = some sound → (sound = .plStep2 ∨ sound = .plStep4 ↔
      Even (stepsBefore a fwd i useCmd pb t))) ∧
    ((∃ button, s.press = .runPlayerMove button) ↔ useCmd = true ∧
      (AtAnnouncement (botAt a fwd i useCmd pb t) ∨
        ∃ u, t = u + 1 ∧ AtAnnouncement (botAt a fwd i useCmd pb u))) := by
  obtain ⟨s, hs, -, -, -, hpress, hsound⟩ := kzBotThink_botAt a fwd i useCmd pb h t
  have hclock := stepClock a fwd i useCmd pb h t
  refine ⟨s, hs, ?_, ?_, ?_⟩
  · rw [← hclock.plrSound_le, ← sounds_iff a fwd i useCmd pb h, Sounds,
      soundAt_eq a fwd i useCmd pb h, hsound]
  · intro sound hsome
    rcases footstep_cases a (i t).random (botAt a fwd i useCmd pb t) with
      ⟨-, -, s', hs', hfoot⟩ | ⟨-, hsilent⟩
    · rw [hsound, hs', Option.some.injEq] at hsome
      rw [← hsome, hfoot, hclock.foot, decide_eq_false_iff_not, Nat.not_odd_iff_even]
    · rw [hsound, hsilent] at hsome
      cases hsome
  · rw [hpress, useCommand_snd, useCmd_botAt a fwd i useCmd pb h]
    refine and_congr_right fun hcmd => or_congr_right ?_
    exact (useCount_botAt a fwd i useCmd pb h hcmd t).2

end Run

/-! ### A bot that runs -/

/-- `float` on the bits of 0, 1.35, 1.5, 4, 100 and their products. -/
def sampleArith : Arith where
  add x y := if x = literal0 then y else x
  sub x y := if x = y then literal0 else x
  mul x y :=
    if x = literal0 ∨ y = literal0 then literal0
    else if x = literal135 then 0x3fe947af
    else if x = literal15 then 0x40100000
    else x + y - 0x3f800000
  div x _ := x
  lt x y := x.toNat < y.toNat

/-- Two frames at one spot on the ground and, 4 units further, the last one. -/
def sampleFrames : List KrpFrame :=
  [0, 0, 0x40800000].map fun x => Ticks.kzRpSetVars
    { Ticks.varsOf zeroFrame with origin := ⟨x, 0, 0⟩, flags := 512 } zeroFrame

/-- A think at normal speed, with the bot on the ground. -/
def sampleInput (_ : ℕ) : ThinkInput := ⟨false, true, 0x3f800000, 0⟩

/-- A replay of three frames that move. -/
def samplePb : KrpPlayback := { samplePlayback 3 with frames := sampleFrames }

/-- The second think of the third loop. -/
theorem path_shown_sample : cursor samplePb.frames.length false 5 = 1 ∧ ∃ s,
    shownAt sampleArith ⟨1, 2⟩ sampleInput true samplePb 5 = some s ∧
    s.origin = ⟨0x40800000, 0, 0⟩ ∧ s.velocity = ⟨0x43c80000, 0, 0⟩ := by
  obtain ⟨f, g, s, hf, hg, -, hs, horigin, -, hvelocity⟩ :=
    path_shown sampleArith ⟨1, 2⟩ sampleInput true samplePb (by decide) (fun _ => rfl) 5
  obtain rfl := Option.some.inj hf
  obtain rfl := Option.some.inj hg
  exact ⟨rfl, s, hs, horigin, hvelocity⟩

/-- The second footstep is of the other foot, 30 thinks after the first. Think 98 announces the
start, and the next one is still a move. -/
theorem steps_shown_sample :
    (∃ s, shownAt sampleArith ⟨1, 2⟩ sampleInput true samplePb 31 = some s ∧
      ∃ sound, s.sound = some sound ∧ ¬ (sound = .plStep2 ∨ sound = .plStep4)) ∧
    ∃ s, shownAt sampleArith ⟨1, 2⟩ sampleInput true samplePb 99 = some s ∧ s.sound = none ∧
      ∃ button, s.press = .runPlayerMove button := by
  constructor
  · obtain ⟨s, hs, hsound, hfoot, -⟩ :=
      steps_shown sampleArith ⟨1, 2⟩ sampleInput true samplePb (by decide) 31
    have hlast : ∀ u < 31, Sounds sampleArith ⟨1, 2⟩ sampleInput true samplePb u → u + 30 ≤ 31 := by
      decide +kernel
    obtain ⟨sound, hsome⟩ := Option.isSome_iff_exists.mp
      (hsound.mpr ⟨by decide +kernel, .inr hlast⟩)
    have hodd : stepsBefore sampleArith ⟨1, 2⟩ sampleInput true samplePb 31 = 1 := by
      decide +kernel
    refine ⟨s, hs, sound, hsome, fun hleft => ?_⟩
    have heven := (hfoot sound hsome).mp hleft
    rw [hodd] at heven
    exact absurd heven (by decide)
  · obtain ⟨s, hs, hsound, -, hpress⟩ :=
      steps_shown sampleArith ⟨1, 2⟩ sampleInput true samplePb (by decide) 99
    refine ⟨s, hs, Option.not_isSome_iff_eq_none.mp fun hsome => ?_,
      hpress.mpr ⟨rfl, .inr ⟨98, rfl, by decide +kernel⟩⟩⟩
    -- the last footstep was in think 91
    obtain ⟨-, hjumps | hlast⟩ := hsound.mp hsome
    · exact absurd hjumps (by decide +kernel)
    · exact absurd (hlast 91 (by decide) (by decide +kernel)) (by decide)

end KzGlobal.Playback.Show
