import KzGlobal.Lib.Rounding
import KzGlobal.Replay.Text

/-! # The checks of the players

Every frame of the server the players are asked for their cvars, ten seconds after the last time,
and about once a second their frames are counted and averaged; a frame of a player is counted and
its command looked at after the player's tick. A `float` is a rational number that every operation
rounds. A query's number tells which cvar was asked for, whatever number Metamod begins with, so an
answer is compared with the value of that cvar (`answer_of_query`). -/

namespace KzGlobal.AntiCheat.Checks

open KzGlobal.Lib.Rounding KzGlobal.Krp.Format KzGlobal.Replay.Text

/-! ### Tables -/

/-- `g_player_cvars`: the names and the expected values. -/
def gPlayerCvars : List (Bytes × Bytes) :=
  [(str "cl_lw", str "1"), (str "fps_max", str "99.5"), (str "fps_override", str "0"),
    (str "developer", str "0"), (str "gl_vsync", str "0"), (str "cl_forwardspeed", str "400"),
    (str "cl_backspeed", str "400"), (str "cl_sidespeed", str "400"),
    (str "cl_movespeedkey", str "0.52")]

/-- The result of an operation on `float`s. -/
def float (x : ℚ) : ℚ := binary32.round x

/-- `AC_MAX_FPS + EPSILON`. -/
def acMaxFps : ℚ := float (float (1001 / 10) + float (1 / 1000))

/-! ### The entries of a player -/

/-- The members of a `usercmd_t` that are looked at. -/
structure Move where
  forwardmove : ℚ
  sidemove : ℚ

/-- The entries of the arrays for one player. -/
structure PlayerAc where
  currentCmd : Move
  wavgFps : ℚ
  lastQueryTime : ℚ
  totalFrames : ℕ
  fpsWarns : ℕ

/-- The arrays, and the time of the last second of `kz_ac_frame`. -/
structure AcState where
  player : ℕ → PlayerAc
  lastTime : ℚ

/-- The entries of a player are set. -/
def AcState.set (id : ℕ) (p : PlayerAc) (s : AcState) : AcState :=
  ⟨Function.update s.player id p, s.lastTime⟩

@[simp] theorem AcState.set_self (id : ℕ) (p : PlayerAc) (s : AcState) :
    (s.set id p).player id = p := Function.update_self ..

theorem AcState.set_of_ne {i id : ℕ} (h : i ≠ id) (p : PlayerAc) (s : AcState) :
    (s.set id p).player i = s.player i := Function.update_of_ne h ..

/-- The arrays at the start: all zero. -/
def AcState.init : AcState := ⟨fun _ => ⟨⟨0, 0⟩, 0, 0, 0, 0⟩, 0⟩

/-- A query that is sent, or a line that is logged. -/
inductive Output
  | query (id : ℕ) (requestId : UInt32) (cvar : Bytes)
  | illegalFps (id : ℕ) (fps : ℚ)
  | illegalForward (id : ℕ) (fmv : ℚ)
  | illegalSide (id : ℕ) (smv : ℚ)
  | illegalCvar (id : ℕ) (cvar value expected : Bytes)
  deriving DecidableEq

/-! ### Queries -/

/-- The number of the query for a cvar, where Metamod's is `base`. -/
def requestId (base : UInt32) (j : ℕ) : UInt32 :=
  (base &&& 0xFFFFFFC0) ||| (UInt32.ofNat j &&& 0x3F) ||| 0x80000000

/-- The queries to a player. Metamod begins each with a number of its own. -/
def queries (base : ℕ → ℕ → UInt32) (id : ℕ) : List Output :=
  gPlayerCvars.zipIdx.map fun (cvar, j) => .query id (requestId (base id j) j) cvar.1

/-- `kz_ac_querycvar_result`. -/
def kzAcQuerycvarResult (maxClients : ℕ) (ingame : ℕ → Bool) (id : ℕ) (requestId : UInt32)
    (cvar value : Bytes) : List Output :=
  if requestId &&& 0x80000000 = 0 then []
  else
    match gPlayerCvars[(requestId &&& 0x3F).toNat]? with
    | none => []
    | some (name, expected) =>
      if name ≠ cvar then []
      else if id = 0 ∨ maxClients < id ∨ ingame id = false then []
      else if value ≠ expected then [.illegalCvar id cvar value expected]
      else []

/-! ### Frames -/

/-- The frames of a second for each second that has passed. -/
def secondFps (totalFrames : ℕ) (deltaTime : ℚ) : ℚ := float (float totalFrames / deltaTime)

/-- The weighted average with the rate of another second. -/
def weighted (wavgFps fps : ℚ) : ℚ :=
  float (float (float (2 * wavgFps) / 3) + float (float (1 * fps) / 3))

/-- What a second makes of a player's average and warnings, and the rate that is logged. -/
def judge (wavgFps : ℚ) (fpsWarns : ℕ) (fps : ℚ) : ℚ × ℕ × Option ℚ :=
  let avg := weighted wavgFps fps
  if acMaxFps < avg then
    if 1 < fpsWarns + 1 then (avg, 0, some avg) else (avg, fpsWarns + 1, none)
  else (avg, 0, none)

/-- What `kz_ac_frame` does with a player. -/
def acPlayer (base : ℕ → ℕ → UInt32) (currentTime deltaTime : ℚ) (acTick : Bool) (id : ℕ)
    (p : PlayerAc) : PlayerAc × List Output :=
  let asked := decide (10 ≤ float (currentTime - p.lastQueryTime))
  let p := if asked then { p with lastQueryTime := currentTime } else p
  let out := if asked then queries base id else []
  if acTick then
    let (avg, warns, log) := judge p.wavgFps p.fpsWarns (secondFps p.totalFrames deltaTime)
    ({ p with wavgFps := avg, fpsWarns := warns, totalFrames := 0 },
      out ++ log.toList.map (.illegalFps id))
  else (p, out)

/-- One round of the loop over the players. -/
def acLoop (base : ℕ → ℕ → UInt32) (currentTime deltaTime : ℚ) (acTick : Bool)
    (playing : ℕ → Bool) (acc : (ℕ → PlayerAc) × List Output) (i : ℕ) :
    (ℕ → PlayerAc) × List Output :=
  if playing i then
    let (p, out) := acPlayer base currentTime deltaTime acTick i (acc.1 i)
    (Function.update acc.1 i p, acc.2 ++ out)
  else acc

/-- `kz_ac_frame`, where the players in `playing` are in the game and no bots. -/
def kzAcFrame (base : ℕ → ℕ → UInt32) (currentTime : ℚ) (maxClients : ℕ)
    (playing : ℕ → Bool) (s : AcState) : AcState × List Output :=
  let deltaTime := float (currentTime - s.lastTime)
  if deltaTime < 0 then
    (⟨fun i => { s.player i with lastQueryTime := 0, totalFrames := 0 }, currentTime⟩, [])
  else
    let acTick := decide (1 < deltaTime ∨ deltaTime = 1)
    let (player, out) := (List.range' 1 maxClients).foldl
      (acLoop base currentTime deltaTime acTick playing) (s.player, [])
    (⟨player, if acTick then currentTime else s.lastTime⟩, out)

/-- `kz_ac_connect`: the average, the warnings and the count start anew; the command stays. -/
def kzAcConnect (id : ℕ) (s : AcState) : AcState :=
  s.set id { s.player id with wavgFps := 0, fpsWarns := 0, totalFrames := 0 }

/-- `kz_ac_cmd` keeps the command for the post-think. -/
def kzAcCmd (id : ℕ) (ucmd : Move) (s : AcState) : AcState :=
  s.set id { s.player id with currentCmd := ucmd }

/-- `kz_ac_postthink`. The bits of the button are `IN_FORWARD`, `IN_BACK`, `IN_MOVELEFT` and
`IN_MOVERIGHT`. -/
def kzAcPostthink (id : ℕ) (button : UInt32) (maxspeed : ℚ) (s : AcState) :
    AcState × List Output :=
  let p := s.player id
  let fmv := |p.currentCmd.forwardmove|
  let smv := |p.currentCmd.sidemove|
  (s.set id { p with totalFrames := p.totalFrames + 1 },
    (if button &&& 16 ≠ 0 ∧ button &&& 8 ≠ 0 ∧ (fmv = maxspeed ∨ maxspeed < fmv) then
      [.illegalForward id p.currentCmd.forwardmove] else []) ++
    if button &&& 512 ≠ 0 ∧ button &&& 1024 ≠ 0 ∧ (smv = maxspeed ∨ maxspeed < smv) then
      [.illegalSide id p.currentCmd.sidemove] else [])

/-! ### The module -/

/-- A call of a function of the module. -/
inductive Event
  | frame (base : ℕ → ℕ → UInt32) (currentTime : ℚ) (maxClients : ℕ) (playing : ℕ → Bool)
  | connect (id : ℕ)
  | cmd (id : ℕ) (ucmd : Move)
  | postthink (id : ℕ) (button : UInt32) (maxspeed : ℚ)
  | querycvarResult (maxClients : ℕ) (ingame : ℕ → Bool) (id : ℕ) (requestId : UInt32)
    (cvar value : Bytes)

/-- What an event makes of the arrays, and what is sent or logged. -/
def step (s : AcState) : Event → AcState × List Output
  | .frame base currentTime maxClients playing => kzAcFrame base currentTime maxClients playing s
  | .connect id => (kzAcConnect id s, [])
  | .cmd id ucmd => (kzAcCmd id ucmd s, [])
  | .postthink id button maxspeed => kzAcPostthink id button maxspeed s
  | .querycvarResult maxClients ingame id requestId cvar value =>
    (s, kzAcQuerycvarResult maxClients ingame id requestId cvar value)

/-- The arrays after an event. -/
def next (s : AcState) (e : Event) : AcState := (step s e).1

/-- What is sent and logged in a run. -/
def outputs : AcState → List Event → List Output
  | _, [] => []
  | s, e :: es => (step s e).2 ++ outputs (next s e) es

/-! ### Answers -/

theorem requestId_own (base : UInt32) (j : ℕ) :
    requestId base j &&& 0x80000000 = 0x80000000 := by
  unfold requestId
  refine UInt32.toBitVec_inj.mp (BitVec.eq_of_getLsbD_eq fun i hi => ?_)
  simp only [UInt32.toBitVec_and, UInt32.toBitVec_or, BitVec.getLsbD_and, BitVec.getLsbD_or]
  cases (UInt32.toBitVec 0x80000000).getLsbD i <;> simp

theorem requestId_index (base : UInt32) (j : ℕ) :
    requestId base j &&& 0x3F = UInt32.ofNat j &&& 0x3F := by
  have hbits : ∀ i : Fin 32, (UInt32.toBitVec 0x3F).getLsbD i = true →
      (UInt32.toBitVec 0xFFFFFFC0).getLsbD i = false ∧
        (UInt32.toBitVec 0x80000000).getLsbD i = false := by decide
  unfold requestId
  refine UInt32.toBitVec_inj.mp (BitVec.eq_of_getLsbD_eq fun i hi => ?_)
  have hi' := hbits ⟨i, hi⟩
  revert hi'
  simp only [UInt32.toBitVec_and, UInt32.toBitVec_or, BitVec.getLsbD_and, BitVec.getLsbD_or]
  cases (UInt32.toBitVec 0x3F).getLsbD i <;> simp +contextual

/-- **The number of a query** is the module's own, and tells the cvar. -/
theorem requestId_decode (base : UInt32) {j : ℕ} (hj : j < 64) :
    requestId base j &&& 0x80000000 ≠ 0 ∧ (requestId base j &&& 0x3F).toNat = j := by
  constructor
  · rw [requestId_own]
    decide
  · rw [requestId_index, UInt32.toNat_and, UInt32.toNat_ofNat']
    change _ &&& (2 ^ 6 - 1) = j
    rw [Nat.and_two_pow_sub_one_eq_mod]
    omega

/-- **An answer to a query** is compared with the expected value of the cvar that was asked for. -/
theorem answer_of_query {base : ℕ → ℕ → UInt32} {id : ℕ} {request : UInt32} {cvar : Bytes}
    (h : .query id request cvar ∈ queries base id) {maxClients : ℕ} {ingame : ℕ → Bool}
    (h0 : id ≠ 0) (hmax : id ≤ maxClients) (hin : ingame id = true) :
    ∃ expected, (cvar, expected) ∈ gPlayerCvars ∧ ∀ value,
      kzAcQuerycvarResult maxClients ingame id request cvar value =
        if value = expected then [] else [.illegalCvar id cvar value expected] := by
  obtain ⟨⟨⟨name, expected⟩, j⟩, hj, he⟩ := List.mem_map.mp h
  have hget := List.mem_zipIdx_iff_getElem?.mp hj
  have hlt : j < 64 := (List.getElem?_eq_some_iff.mp hget).1.trans (by decide)
  obtain ⟨-, rfl, rfl⟩ := Output.query.inj he
  obtain ⟨hown, hindex⟩ := requestId_decode (base id j) hlt
  refine ⟨expected, List.mem_of_getElem? hget, fun value => ?_⟩
  unfold kzAcQuerycvarResult
  rw [if_neg hown, hindex, hget]
  dsimp only
  rw [if_neg (not_not.mpr rfl), if_neg (by rw [hin]; simp; omega)]
  by_cases hv : value = expected
  · rw [if_neg (not_not.mpr hv), if_pos hv]
  · rw [if_pos hv, if_neg hv]

end KzGlobal.AntiCheat.Checks
