import KzGlobal.Krp.Frame
import KzGlobal.Replay.Capture

/-! # From the engine to the replay

The engine calls the module with each command of a player and after each of the player's ticks, and
the plugin calls natives in between. The members of the command and of the entity are copied into
the player's current frame, which is queued at the end of a tick. What is asked of this code is told
without frames and files by `shown`: every tick of a run that is not paused, with the command that
came last before it. The writer records just that (`recorded_inputs`). -/

namespace KzGlobal.Replay.Ticks

open KzGlobal.Lib.Stdio KzGlobal.Lib.Runs
open KzGlobal.Krp.Format KzGlobal.Krp.Frame KzGlobal.Krp.Frame.FrameMember
open KzGlobal.Replay.Text KzGlobal.Replay.Writer KzGlobal.Replay.Effect KzGlobal.Replay.Capture

/-! ### What the engine knows of a tick -/

/-- `usercmd_t`. -/
structure UserCmd where
  lerpMsec : UInt16
  msec : UInt8
  viewangles : V3f
  forwardmove : UInt32
  sidemove : UInt32
  upmove : UInt32
  lightlevel : UInt8
  buttons : UInt16
  impulse : UInt8
  weaponselect : UInt8
  impactIndex : UInt32
  impactPosition : V3f
  deriving DecidableEq, Repr

/-- The members of `entvars_t` that are captured. -/
structure EntVars where
  origin : V3f
  velocity : V3f
  vAngle : V3f
  fixangle : UInt32
  movetype : UInt32
  flags : UInt32
  button : UInt32
  oldbuttons : UInt32
  deriving DecidableEq, Repr

/-- A tick of a player: the last command, the entity after it, and how long it took. -/
structure Tick where
  cmd : UserCmd
  vars : EntVars
  frametime : UInt32
  deriving DecidableEq, Repr

/-- The assignments of `kz_rp_set_cmd`. -/
def cmdStores (cmd : UserCmd) : Stores :=
  [(lerpMsec, cmd.lerpMsec.toNat), (msec, cmd.msec.toNat)] ++ cmd.viewangles.stores viewangles ++
    [(forwardmove, cmd.forwardmove.toNat), (sidemove, cmd.sidemove.toNat),
      (upmove, cmd.upmove.toNat), (lightlevel, cmd.lightlevel.toNat),
      (buttons, cmd.buttons.toNat), (impulse, cmd.impulse.toNat),
      (weaponselect, cmd.weaponselect.toNat), (impactIndex, cmd.impactIndex.toNat)] ++
    cmd.impactPosition.stores impactPosition

/-- `kz_rp_set_cmd` stores the members of a command. -/
def kzRpSetCmd (cmd : UserCmd) (f : KrpFrame) : KrpFrame := store (cmdStores cmd) f

/-- The assignments of `kz_rp_set_vars`, which leaves `fuser2` alone. -/
def varsStores (vars : EntVars) : Stores :=
  vars.origin.stores origin ++ vars.velocity.stores velocity ++ vars.vAngle.stores vAngle ++
    [(fixangle, vars.fixangle.toNat), (movetype, vars.movetype.toNat), (flags, vars.flags.toNat),
      (button, vars.button.toNat), (oldbuttons, vars.oldbuttons.toNat)]

/-- `kz_rp_set_vars` stores the members of an entity. -/
def kzRpSetVars (vars : EntVars) (f : KrpFrame) : KrpFrame := store (varsStores vars) f

/-- The assignment of `kz_rp_write_frame`. -/
def timeStores (time : UInt32) : Stores := [(frametime, time.toNat)]

/-- The frame that `kz_rp_write_frame` queues. -/
def kzRpWriteFrame (time : UInt32) (f : KrpFrame) : KrpFrame := store (timeStores time) f

/-! ### The tick of a frame -/

section
variable (f : KrpFrame)

/-- The command that a frame holds. -/
def cmdOf : UserCmd where
  lerpMsec := u16 f lerpMsec
  msec := u8 f msec
  viewangles := v3f f viewangles
  forwardmove := u32 f forwardmove
  sidemove := u32 f sidemove
  upmove := u32 f upmove
  lightlevel := u8 f lightlevel
  buttons := u16 f buttons
  impulse := u8 f impulse
  weaponselect := u8 f weaponselect
  impactIndex := u32 f impactIndex
  impactPosition := v3f f impactPosition

/-- The variables of the entity that a frame holds. -/
def varsOf : EntVars where
  origin := v3f f origin
  velocity := v3f f velocity
  vAngle := v3f f vAngle
  fixangle := u32 f fixangle
  movetype := u32 f movetype
  flags := u32 f flags
  button := u32 f button
  oldbuttons := u32 f oldbuttons

/-- The tick that a frame holds. -/
def tickOf : Tick := ⟨cmdOf f, varsOf f, u32 f frametime⟩

end

theorem members_cmdStores (cmd : UserCmd) : (cmdStores cmd).members = layout.take 16 := rfl

theorem members_varsStores (vars : EntVars) :
    (varsStores vars).members = (layout.drop 16).take 14 := rfl

theorem nodup_cmdStores (cmd : UserCmd) : (cmdStores cmd).members.Nodup := by
  rw [members_cmdStores]
  decide

theorem nodup_varsStores (vars : EntVars) : (varsStores vars).members.Nodup := by
  rw [members_varsStores]
  decide

section
variable (f : KrpFrame)

theorem cmdOf_kzRpSetCmd (cmd : UserCmd) : cmdOf (kzRpSetCmd cmd f) = cmd := by
  have hl := nodup_cmdStores cmd
  have h8 (m : FrameMember) {x : UInt8} (hm : (m, x.toNat) ∈ cmdStores cmd) :=
    u8_store (f := f) hl hm
  have h16 (m : FrameMember) {x : UInt16} (hm : (m, x.toNat) ∈ cmdStores cmd) :=
    u16_store (f := f) hl hm
  have h32 (m : FrameMember) {x : UInt32} (hm : (m, x.toNat) ∈ cmdStores cmd) :=
    u32_store (f := f) hl hm
  have hv (m : Axis → FrameMember) {v : V3f} (hm : ∀ s ∈ v.stores m, s ∈ cmdStores cmd) :=
    v3f_store (f := f) hl hm
  unfold cmdOf kzRpSetCmd
  rw [h16 lerpMsec (x := cmd.lerpMsec) (by simp [cmdStores]) rfl,
    h8 msec (x := cmd.msec) (by simp [cmdStores]) rfl,
    hv viewangles (v := cmd.viewangles) (by simp +contextual [cmdStores]) (fun _ => rfl),
    h32 forwardmove (x := cmd.forwardmove) (by simp [cmdStores]) rfl,
    h32 sidemove (x := cmd.sidemove) (by simp [cmdStores]) rfl,
    h32 upmove (x := cmd.upmove) (by simp [cmdStores]) rfl,
    h8 lightlevel (x := cmd.lightlevel) (by simp [cmdStores]) rfl,
    h16 buttons (x := cmd.buttons) (by simp [cmdStores]) rfl,
    h8 impulse (x := cmd.impulse) (by simp [cmdStores]) rfl,
    h8 weaponselect (x := cmd.weaponselect) (by simp [cmdStores]) rfl,
    h32 impactIndex (x := cmd.impactIndex) (by simp [cmdStores]) rfl,
    hv impactPosition (v := cmd.impactPosition) (by simp +contextual [cmdStores]) (fun _ => rfl)]

theorem varsOf_kzRpSetVars (vars : EntVars) : varsOf (kzRpSetVars vars f) = vars := by
  have hl := nodup_varsStores vars
  have h32 (m : FrameMember) {x : UInt32} (hm : (m, x.toNat) ∈ varsStores vars) :=
    u32_store (f := f) hl hm
  have hv (m : Axis → FrameMember) {v : V3f} (hm : ∀ s ∈ v.stores m, s ∈ varsStores vars) :=
    v3f_store (f := f) hl hm
  unfold varsOf kzRpSetVars
  rw [hv origin (v := vars.origin) (by simp +contextual [varsStores]) (fun _ => rfl),
    hv velocity (v := vars.velocity) (by simp +contextual [varsStores]) (fun _ => rfl),
    hv vAngle (v := vars.vAngle) (by simp +contextual [varsStores]) (fun _ => rfl),
    h32 fixangle (x := vars.fixangle) (by simp [varsStores]) rfl,
    h32 movetype (x := vars.movetype) (by simp [varsStores]) rfl,
    h32 flags (x := vars.flags) (by simp [varsStores]) rfl,
    h32 button (x := vars.button) (by simp [varsStores]) rfl,
    h32 oldbuttons (x := vars.oldbuttons) (by simp [varsStores]) rfl]

theorem cmdOf_store {l : Stores} (h : ∀ m ∈ l.members, m ∉ layout.take 16) :
    cmdOf (store l f) = cmdOf f := by
  have hn : ∀ m ∈ layout.take 16, num (store l f) m = num f m := fun m hm =>
    num_store_of_notMem fun hl => h m hl hm
  simp (disch := decide) only [cmdOf, u8, u16, u32, v3f, hn]

theorem varsOf_store {l : Stores} (h : ∀ m ∈ l.members, m ∉ (layout.drop 16).take 14) :
    varsOf (store l f) = varsOf f := by
  have hn : ∀ m ∈ (layout.drop 16).take 14, num (store l f) m = num f m := fun m hm =>
    num_store_of_notMem fun hl => h m hl hm
  simp (disch := decide) only [varsOf, u32, v3f, hn]

end

section
variable (vars : EntVars) (time : UInt32) (f : KrpFrame)

theorem members_timeStores : (timeStores time).members = [frametime] := rfl

theorem cmdOf_kzRpWriteFrame : cmdOf (kzRpWriteFrame time (kzRpSetVars vars f)) = cmdOf f := by
  rw [kzRpWriteFrame, cmdOf_store, kzRpSetVars, cmdOf_store]
  · rw [members_varsStores]
    decide
  · rw [members_timeStores]
    decide

/-- **A tick is captured whole**: the last command, the entity and the time. -/
theorem tickOf_kzRpWriteFrame :
    tickOf (kzRpWriteFrame time (kzRpSetVars vars f)) = ⟨cmdOf f, vars, time⟩ := by
  have hvars : varsOf (kzRpWriteFrame time (kzRpSetVars vars f)) = vars := by
    rw [kzRpWriteFrame, varsOf_store, varsOf_kzRpSetVars]
    rw [members_timeStores]
    decide
  have htime : u32 (kzRpWriteFrame time (kzRpSetVars vars f)) frametime = time := by
    refine u32_store ?_ List.mem_cons_self rfl
    rw [members_timeStores]
    exact List.nodup_singleton _
  rw [tickOf, cmdOf_kzRpWriteFrame, hvars, htime]

end

/-! ### The calls of the engine and of the plugin -/

/-- What the module looks at before it captures anything of a player. -/
structure Player where
  initialized : Bool
  bot : Bool
  alive : Bool

/-- Whether the player is captured. -/
def Player.captured (p : Player) : Bool := p.initialized && !p.bot && p.alive

/-- What becomes of a packet: whether the queue takes it, and what the writer finds when it comes to
it. -/
structure Packet where
  pushed : Bool
  env : Env

/-- The signal of a native, which is never a FRAME. -/
def NativeSignal : Type := { s : Signal // ∀ f, s ≠ .frame f }

/-- The calls for one player. -/
inductive EngineCall
  | cmdStart (p : Player) (cmd : UserCmd)
  | playerPostThink (p : Player) (vars : EntVars) (time : UInt32) (packet : Packet)
  | native (s : NativeSignal) (packet : Packet)

/-- A packet that the queue takes. -/
def Packet.push (packet : Packet) (s : Signal) : List Input :=
  if packet.pushed then [⟨s, packet.env⟩] else []

/-- One call: the player's current frame after it, and what is queued. -/
def engine (f : KrpFrame) : EngineCall → KrpFrame × List Input
  | .cmdStart p cmd => (if p.captured then kzRpSetCmd cmd f else f, [])
  | .playerPostThink p vars time packet =>
    if p.captured then
      let f := kzRpWriteFrame time (kzRpSetVars vars f)
      (f, packet.push (.frame f))
    else (f, [])
  | .native s packet => (f, packet.push s.1)

/-- What a list of calls queues. -/
def inputs : KrpFrame → List EngineCall → List Input
  | _, [] => []
  | f, c :: cs => (engine f c).2 ++ inputs (engine f c).1 cs

/-! ### What is to be recorded -/

/-- What a playback can show. -/
inductive Shown
  | tick (t : Tick)
  | event (id : UInt8)
  deriving DecidableEq

/-- Whether a run goes on after a signal: a pause stops it, and the end of a pause sets it going. -/
def goesOn (on : Bool) : Signal → Bool
  | .pause => false
  | .unpause _ => true
  | _ => on

/-- The event of a signal. -/
def eventOf : Signal → List Shown
  | .event id => [.event id]
  | _ => []

/-- The last command of the player after a call. -/
def lastCmd (last : UserCmd) : EngineCall → UserCmd
  | .cmdStart p cmd => if p.captured then cmd else last
  | _ => last

/-- Whether the run goes on after a call. -/
def onAfter (on : Bool) : EngineCall → Bool
  | .native s packet => if packet.pushed then goesOn on s.1 else on
  | _ => on

/-- What a call is to add. -/
def shownBy (on : Bool) (last : UserCmd) : EngineCall → List Shown
  | .cmdStart _ _ => []
  | .playerPostThink p vars time packet =>
    if p.captured && packet.pushed && on then [.tick ⟨last, vars, time⟩] else []
  | .native s packet => if packet.pushed && on then eventOf s.1 else []

/-- **What is asked of the capture**: of a run that is not paused every tick, with the last command,
and the events. -/
def shown : Bool → UserCmd → List EngineCall → List Shown
  | _, _, [] => []
  | on, last, c :: cs => shownBy on last c ++ shown (onAfter on c) (lastCmd last c) cs

/-- What an entry of a capture shows. -/
def showEntry : Entry → Shown
  | .frame f => .tick (tickOf f)
  | .event id => .event id

/-! ### The capture records it -/

/-- The file is open as long as the run goes on, and is on the disk all along. -/
structure Going (path : Bytes) (on : Bool) (s : Slot) : Prop where
  fd : s.fd.isSome = on
  disk : (s.disk path).isSome = true

section
variable {dataDir name : Bytes} {steamidShort : CString 35} {s : Slot} {on : Bool}

theorem isSome_store {d : Disk Bytes UInt8} {p : Bytes} (h : (d p).isSome = true) (q b : Bytes) :
    (d.store q b p).isSome = true := by
  by_cases hp : p = q
  · rw [hp, Disk.store_self]
    rfl
  · rw [Disk.store_of_ne d hp]
    exact h

/-- **One signal of the mix.** -/
theorem Going.next {i : Input} (h : Going (tmpPath dataDir name steamidShort.bytes) on s)
    (hsid : kzWsValidReplaySegment steamidShort.bytes = true)
    (hname : kzWsValidReplaySegment name = true) (hmix : Mixed steamidShort name i) :
    Going (tmpPath dataDir name steamidShort.bytes) (goesOn on i.signal)
      (Writer.next dataDir s i) := by
  unfold Writer.next step
  unfold Mixed at hmix
  rcases hs : i.signal with f | id | ⟨ts, sid, nick⟩ | _ | sid | del | ⟨t, sub, cp, sid, nick⟩ <;>
    simp only [hs] at hmix ⊢
  · unfold onFrame
    rcases hfd : s.fd with _ | fd
    · exact h
    · exact ⟨h.fd ▸ (by rw [hfd]; rfl), isSome_store h.disk _ _⟩
  · unfold onEvent
    rcases hfd : s.fd with _ | fd
    · simp only [countEvent_eq]
      exact ⟨h.fd, h.disk⟩
    · simp only [countEvent_eq]
      exact ⟨h.fd ▸ (by rw [hfd]; rfl), isSome_store h.disk _ _⟩
  · unfold onPause
    rcases hfd : s.fd with _ | fd
    · exact ⟨by rw [hfd]; rfl, h.disk⟩
    · exact ⟨rfl, isSome_store h.disk _ _⟩
  · obtain ⟨rfl, rfl, hopen⟩ := hmix
    obtain ⟨b, hb⟩ := Option.isSome_iff_exists.mp h.disk
    unfold onUnpause
    rw [if_neg (not_accepted.not.mp (not_not.mpr ⟨hsid, hname⟩))]
    simp only [hb, hopen]
    exact ⟨rfl, isSome_store h.disk _ _⟩

theorem recordedBy_going (h : Going (tmpPath dataDir name steamidShort.bytes) on s) (i : Input) :
    recordedBy s i = if on then signalled i.signal else [] := by
  rw [recordedBy, h.fd]

end

theorem recorded_append (dataDir : Bytes) : ∀ (s : Slot) (is is' : List Input),
    recorded dataDir s (is ++ is') =
      recorded dataDir s is ++ recorded dataDir (run (Writer.next dataDir) s is) is'
  | _, [], _ => rfl
  | s, i :: is, is' => by
    rw [List.cons_append, recorded, recorded_append dataDir _ is is', recorded, run_cons,
      List.append_assoc]

theorem showEntry_signalled (s : NativeSignal) : (signalled s.1).map showEntry = eventOf s.1 := by
  obtain ⟨s, hs⟩ := s
  cases s with
  | frame f => exact absurd rfl (hs f)
  | _ => rfl

theorem cmdOf_engine (f : KrpFrame) (c : EngineCall) :
    cmdOf (engine f c).1 = lastCmd (cmdOf f) c := by
  cases c with
  | cmdStart p cmd =>
    dsimp only [engine, lastCmd]
    split_ifs
    · exact cmdOf_kzRpSetCmd f cmd
    · rfl
  | playerPostThink p vars time packet =>
    dsimp only [engine, lastCmd]
    split_ifs
    · exact cmdOf_kzRpWriteFrame vars time f
    · rfl
  | native s packet => rfl

section
variable {dataDir name : Bytes} {steamidShort : CString 35} {s : Slot} {on : Bool}
  (hsid : kzWsValidReplaySegment steamidShort.bytes = true)
  (hname : kzWsValidReplaySegment name = true)
include hsid hname

theorem Going.push (h : Going (tmpPath dataDir name steamidShort.bytes) on s) {packet : Packet}
    {sig : Signal} (hmix : ∀ i ∈ packet.push sig, Mixed steamidShort name i) :
    (recorded dataDir s (packet.push sig)).map showEntry =
        (if packet.pushed && on then (signalled sig).map showEntry else []) ∧
      Going (tmpPath dataDir name steamidShort.bytes)
        (if packet.pushed then goesOn on sig else on)
        (run (Writer.next dataDir) s (packet.push sig)) := by
  unfold Packet.push at hmix ⊢
  rcases hpush : packet.pushed
  · exact ⟨rfl, h⟩
  · simp only [hpush, if_true, List.forall_mem_singleton] at hmix
    refine ⟨?_, h.next hsid hname hmix⟩
    simp only [if_true, recorded, recordedBy_going h, List.append_nil, Bool.true_and]
    cases on <;> rfl

/-- **One call records what it is to add.** -/
theorem Going.call (h : Going (tmpPath dataDir name steamidShort.bytes) on s) {f : KrpFrame}
    {c : EngineCall} (hmix : ∀ i ∈ (engine f c).2, Mixed steamidShort name i) :
    (recorded dataDir s (engine f c).2).map showEntry = shownBy on (cmdOf f) c ∧
      Going (tmpPath dataDir name steamidShort.bytes) (onAfter on c)
        (run (Writer.next dataDir) s (engine f c).2) := by
  cases c with
  | cmdStart p cmd => exact ⟨rfl, h⟩
  | playerPostThink p vars time packet =>
    dsimp only [engine, shownBy, onAfter] at hmix ⊢
    rcases hp : p.captured
    · exact ⟨rfl, h⟩
    · simp only [hp, if_true] at hmix ⊢
      obtain ⟨hrec, hgo⟩ := h.push hsid hname hmix
      refine ⟨?_, by simpa only [goesOn, ite_self] using hgo⟩
      rw [hrec, Bool.true_and]
      refine congrArg (if packet.pushed && on then · else []) ?_
      exact congrArg (fun t => [Shown.tick t]) (tickOf_kzRpWriteFrame vars time f)
  | native sig packet =>
    obtain ⟨hrec, hgo⟩ := h.push hsid hname hmix
    exact ⟨hrec.trans (by rw [showEntry_signalled]; rfl), hgo⟩

/-- **What is recorded is what was asked for**, whatever the calls and the packets that are lost. -/
theorem recorded_inputs : ∀ (cs : List EngineCall) (f : KrpFrame) (s : Slot) (on : Bool),
    Going (tmpPath dataDir name steamidShort.bytes) on s →
      (∀ i ∈ inputs f cs, Mixed steamidShort name i) →
      (recorded dataDir s (inputs f cs)).map showEntry = shown on (cmdOf f) cs ∧
        Going (tmpPath dataDir name steamidShort.bytes) (cs.foldl onAfter on)
          (run (Writer.next dataDir) s (inputs f cs))
  | [], _, _, _, h, _ => ⟨rfl, h⟩
  | c :: cs, f, s, on, h, hmix => by
    rw [inputs] at hmix ⊢
    rw [List.forall_mem_append] at hmix
    obtain ⟨hrec, hgo⟩ := h.call hsid hname hmix.1
    obtain ⟨hrest, hon⟩ := recorded_inputs cs _ _ _ hgo hmix.2
    rw [recorded_append, List.map_append, hrec, hrest, cmdOf_engine, run,
      List.foldl_append]
    exact ⟨rfl, hon⟩

end

end KzGlobal.Replay.Ticks
