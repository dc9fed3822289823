import KzGlobal.Lib.Runs
import Mathlib.Data.Rat.Defs

/-! # Bhop blocks

A player who stays on a bhop block is sent back to the spot that was remembered when he stood beside
the blocks. What is remembered belongs to the slot: `kz_mpbhop_PlayerPreThink` writes it,
`kz_mpbhop_DispatchTouch` reads it, and a player who joins finds what the one before has left. So a
teleport goes to a spot of the player's own exactly where one was remembered since he joined
(`ownSpots_iff`). Coordinates and times are exact. -/

namespace KzGlobal.Base.Bhop

open KzGlobal.Lib.Runs

/-! ### Entities -/

/-- `Vector`. -/
structure Vector3 where
  x : ℚ
  y : ℚ
  z : ℚ
  deriving DecidableEq

/-- `is_vec_empty`: all three numbers are zero. -/
def isVecEmpty (v : Vector3) : Bool := v.x = 0 ∧ v.y = 0 ∧ v.z = 0

/-- What the engine says of a player: whether he is alive, stands on the ground or hangs on a
ladder, ducks, on which entity he stands (0 for none or the world), whether that moves, and whether
there is no room to stand up. -/
structure Entity where
  index : ℕ
  alive : Bool
  onGround : Bool
  onLadder : Bool
  ducking : Bool
  groundEntity : ℕ
  groundMoves : Bool
  obstructed : Bool
  origin : Vector3
  vAngle : Vector3
  gravity : ℚ

/-- `is_player`. -/
def isPlayer (maxClients id : ℕ) : Bool := 1 ≤ id ∧ id ≤ maxClients

/-! ### The slots -/

/-- The entries of a slot in the arrays and bit sets of `kz_mpbhop.cpp`. -/
structure Slot where
  blockTouch : ℕ
  onFrozenBlock : Bool
  firstTouch : ℚ
  onground : Bool
  teleported : Bool
  origin : Vector3
  angles : Vector3
  gravity : ℚ

/-- The slots and the set of blocks. -/
structure Mpbhop where
  slots : ℕ → Slot
  blocks : ℕ → Bool

/-- The entries of a slot are set. -/
def Mpbhop.set (id : ℕ) (slot : Slot) (s : Mpbhop) : Mpbhop :=
  { s with slots := Function.update s.slots id slot }

/-- What the process starts with. -/
def Mpbhop.init : Mpbhop where
  slots _ := ⟨0, false, 0, false, false, ⟨0, 0, 0⟩, ⟨0, 0, 0⟩, 0⟩
  blocks _ := false

/-- The spot of a ducking player is higher, so that he can stand up there. -/
def unducked (v : Vector3) : Vector3 := { v with z := v.z + 18 }

/-- `kz_mpbhop_PlayerPreThink`, for the slot of the player. -/
def preThinkSlot (blocks : ℕ → Bool) (e : Entity) (slot : Slot) : Slot :=
  if ¬ e.alive then slot
  else if slot.teleported then { slot with teleported := false }
  else if e.onGround then
    if e.groundEntity = 0 ∨ ¬ blocks e.groundEntity then
      let slot := { slot with onFrozenBlock := false }
      if e.groundEntity ≠ 0 ∧ e.groundMoves then { slot with onground := false }
      else if e.ducking then
        if ¬ e.obstructed then { slot with origin := unducked e.origin, onground := true }
        else { slot with onground := false }
      else { slot with origin := e.origin, onground := true }
    else { slot with onFrozenBlock := true, onground := false }
  else
    let slot := { slot with onFrozenBlock := false }
    if slot.onground then
      { slot with angles := e.vAngle, gravity := e.gravity, onground := false }
    else slot

/-- `kz_mpbhop_PlayerPreThink`, on the slot of the player. -/
def kzMpbhopPlayerPreThink (e : Entity) (s : Mpbhop) : Mpbhop :=
  s.set e.index (preThinkSlot s.blocks e (s.slots e.index))

/-- What a touch leaves, whether the engine's own function is skipped, and where the player is sent
to. -/
structure Touched where
  state : Mpbhop
  supercede : Bool
  teleport : Option (Vector3 × Vector3)

/-- `0.92f`. -/
def maxTouch : ℚ := 15435039 / 2 ^ 24

/-- `kz_mpbhop_DispatchTouch`: the teleport of a player who is on a block for too long. -/
def kzMpbhopDispatchTouch (maxClients touched : ℕ) (e : Entity) (time : ℚ) (s : Mpbhop) : Touched :=
  if ¬ s.blocks touched then ⟨s, false, none⟩
  else if ¬ isPlayer maxClients e.index then ⟨s, true, none⟩
  else if ¬ e.alive then ⟨s, true, none⟩
  else
    let slot := { s.slots e.index with onFrozenBlock := true }
    if touched ≠ e.groundEntity then ⟨s.set e.index slot, true, none⟩
    else if slot.blockTouch ≠ touched then
      ⟨s.set e.index { slot with blockTouch := touched, firstTouch := time }, true, none⟩
    else if time - slot.firstTouch > 1 / 4 then
      if time - slot.firstTouch > maxTouch then
        ⟨s.set e.index { slot with firstTouch := time }, true, none⟩
      else
        ⟨s.set e.index { slot with teleported := true }, true, some (slot.origin, slot.angles)⟩
    else ⟨s.set e.index slot, true, none⟩

/-- `kz_mpbhop_ClientPutInServer` clears a slot but for the spot it remembers. -/
def kzMpbhopClientPutInServer (maxClients id : ℕ) (s : Mpbhop) : Mpbhop :=
  if ¬ isPlayer maxClients id then s
  else
    s.set id { s.slots id with
      teleported := false, onFrozenBlock := false, blockTouch := 0, firstTouch := 0 }

/-- `kz_mpbhop_ClientDisconnected` leaves the times of the touches and the spot. -/
def kzMpbhopClientDisconnected (maxClients id : ℕ) (s : Mpbhop) : Mpbhop :=
  if ¬ isPlayer maxClients id then s
  else s.set id { s.slots id with teleported := false, onFrozenBlock := false }

/-- `kz_mpbhop_set_teleport`: the spot that a teleport leads to. -/
def kzMpbhopSetTeleport (maxClients id : ℕ) (origin vAngle : Vector3) (s : Mpbhop) : Mpbhop :=
  if isPlayer maxClients id then
    s.set id { s.slots id with origin := origin, angles := vAngle }
  else s

/-- `kz_mpbhop_on_frozen_block`. -/
def kzMpbhopOnFrozenBlock (maxClients id : ℕ) (s : Mpbhop) : Bool :=
  isPlayer maxClients id && (s.slots id).onFrozenBlock

/-! ### The machine -/

/-- A call of the engine or of another part. A map comes with its blocks. -/
inductive Event
  | init (blocks : ℕ → Bool)
  | putInServer (id : ℕ)
  | disconnect (id : ℕ)
  | preThink (e : Entity)
  | touch (touched : ℕ) (e : Entity) (time : ℚ)
  | setTeleport (id : ℕ) (origin vAngle : Vector3)

/-- What an event makes of the slots and the blocks. -/
def next (maxClients : ℕ) (s : Mpbhop) : Event → Mpbhop
  | .init blocks => { s with blocks := blocks }
  | .putInServer id => kzMpbhopClientPutInServer maxClients id s
  | .disconnect id => kzMpbhopClientDisconnected maxClients id s
  | .preThink e => kzMpbhopPlayerPreThink e s
  | .touch touched e time => (kzMpbhopDispatchTouch maxClients touched e time s).state
  | .setTeleport id origin vAngle => kzMpbhopSetTeleport maxClients id origin vAngle s

/-! ### What the functions do -/

/-- The spot that `kz_mpbhop_PlayerPreThink` remembers, if it does. -/
def rememberedSpot (blocks : ℕ → Bool) (e : Entity) (slot : Slot) : Option Vector3 :=
  if ¬ e.alive then none
  else if slot.teleported then none
  else if e.onGround then
    if e.groundEntity = 0 ∨ ¬ blocks e.groundEntity then
      if e.groundEntity ≠ 0 ∧ e.groundMoves then none
      else if e.ducking then if ¬ e.obstructed then some (unducked e.origin) else none
      else some e.origin
    else none
  else none

theorem origin_preThinkSlot (blocks : ℕ → Bool) (e : Entity) (slot : Slot) :
    (preThinkSlot blocks e slot).origin = (rememberedSpot blocks e slot).getD slot.origin := by
  unfold preThinkSlot rememberedSpot
  dsimp only
  split_ifs <;> rfl

/-- **The touch that sends the player back**: he is on the block that he touched before, for longer
than a quarter of a second but not for long. -/
def SendsBack (maxClients touched : ℕ) (e : Entity) (time : ℚ) (s : Mpbhop) : Prop :=
  s.blocks touched = true ∧ isPlayer maxClients e.index = true ∧ e.alive = true ∧
    touched = e.groundEntity ∧ (s.slots e.index).blockTouch = touched ∧
    1 / 4 < time - (s.slots e.index).firstTouch ∧ time - (s.slots e.index).firstTouch ≤ maxTouch

/-- **An update of one slot** on both sides keeps what the slots have, where it has it there. -/
theorem forall_update {α β : Type} {P : α → β → Prop} {g : ℕ → α} {f : ℕ → β}
    (h : ∀ id, P (g id) (f id)) (id : ℕ) {a : α} {b : β} (hab : P a b) (id' : ℕ) :
    P (Function.update g id a id') (Function.update f id b id') := by
  rcases eq_or_ne id' id with rfl | hne
  · rwa [Function.update_self, Function.update_self]
  · rw [Function.update_of_ne hne, Function.update_of_ne hne]
    exact h id'

section Specs
variable {maxClients : ℕ} {s : Mpbhop} {id : ℕ}

@[simp] theorem slots_set (id : ℕ) (slot : Slot) :
    (s.set id slot).slots = Function.update s.slots id slot := rfl

theorem origin_set (s : Mpbhop) (id : ℕ) {slot : Slot} (h : slot.origin = (s.slots id).origin)
    (id' : ℕ) : ((s.set id slot).slots id').origin = (s.slots id').origin := by
  rw [slots_set]
  rcases eq_or_ne id' id with rfl | hne
  · rw [Function.update_self, h]
  · rw [Function.update_of_ne hne]

theorem teleport_touch_iff {touched : ℕ} {e : Entity} {time : ℚ} {v : Vector3 × Vector3} :
    (kzMpbhopDispatchTouch maxClients touched e time s).teleport = some v ↔
      SendsBack maxClients touched e time s ∧
        v = ((s.slots e.index).origin, (s.slots e.index).angles) := by
  unfold kzMpbhopDispatchTouch SendsBack
  dsimp only
  split_ifs with hblock hplayer halive hground htouch hquarter hmax
  · simp_all
  · simp_all
  · refine iff_of_false nofun ?_
    rintro ⟨⟨-, -, -, -, -, -, hle⟩, -⟩
    exact absurd hle (not_le.mpr hmax)
  · rw [not_ne_iff] at hground htouch
    rw [Option.some.injEq, eq_comm]
    exact (and_iff_right ⟨hblock, hplayer, halive, hground, htouch, hquarter, not_lt.mp hmax⟩).symm
  all_goals simp_all

theorem origin_touch (touched : ℕ) (e : Entity) (time : ℚ) (id : ℕ) :
    ((kzMpbhopDispatchTouch maxClients touched e time s).state.slots id).origin =
      (s.slots id).origin := by
  unfold kzMpbhopDispatchTouch
  dsimp only
  split_ifs
  all_goals first | rfl | exact origin_set s e.index (by rfl) id

theorem origin_putInServer (id id' : ℕ) :
    ((kzMpbhopClientPutInServer maxClients id s).slots id').origin = (s.slots id').origin := by
  unfold kzMpbhopClientPutInServer
  split_ifs
  · exact origin_set s id (by rfl) id'
  · rfl

theorem origin_disconnected (id id' : ℕ) :
    ((kzMpbhopClientDisconnected maxClients id s).slots id').origin = (s.slots id').origin := by
  unfold kzMpbhopClientDisconnected
  split_ifs
  · exact origin_set s id (by rfl) id'
  · rfl

end Specs

/-! ### Spots of the player's own -/

section Runs
variable (maxClients : ℕ)

/-- The spots that were remembered for the players in the slots since they joined. -/
abbrev Remembered := ℕ → List Vector3

/-- The spots an event has remembered for a slot, the last one first. -/
def remember (g : Remembered) (s : Mpbhop) : Event → Remembered
  | .putInServer id => Function.update g id []
  | .preThink e =>
    Function.update g e.index
      ((rememberedSpot s.blocks e (s.slots e.index)).toList ++ g e.index)
  | .setTeleport id origin _ =>
    if isPlayer maxClients id then Function.update g id (origin :: g id) else g
  | _ => g

/-- A run with what was remembered beside it. -/
abbrev nextSeen := withGhost (next maxClients) (remember maxClients)

/-- **A touch sends a player only to a spot of his own.** -/
def OwnSpot (gs : Remembered × Mpbhop) : Event → Prop
  | .touch touched e time =>
    ∀ origin angles, (kzMpbhopDispatchTouch maxClients touched e time gs.2).teleport =
      some (origin, angles) → origin ∈ gs.1 e.index
  | _ => True

/-- **The touch that is not too early**: where it sends the player back, a spot was remembered since
he joined. -/
def HasSpot (gs : Remembered × Mpbhop) : Event → Prop
  | .touch touched e time => SendsBack maxClients touched e time gs.2 → gs.1 e.index ≠ []
  | _ => True

/-- **What every reachable state has**: the spot of a slot is one of the player's own, as soon as he
has one. -/
def HoldsOwn (gs : Remembered × Mpbhop) : Prop :=
  ∀ id, gs.1 id ≠ [] → (gs.2.slots id).origin ∈ gs.1 id

variable {maxClients} {gs : Remembered × Mpbhop}

/-- `HoldsOwn`, of one slot. -/
def HasOwn (seen : List Vector3) (slot : Slot) : Prop := seen ≠ [] → slot.origin ∈ seen

theorem HoldsOwn.next (h : HoldsOwn gs) (ev : Event) : HoldsOwn (nextSeen maxClients gs ev) := by
  obtain ⟨g, s⟩ := gs
  intro id hne
  cases ev with
  | init blocks => exact h id hne
  | putInServer id' =>
    change Function.update g id' [] id ≠ [] at hne
    change ((kzMpbhopClientPutInServer maxClients id' s).slots id).origin ∈
      Function.update g id' [] id
    rw [origin_putInServer]
    rcases eq_or_ne id id' with rfl | hid
    · rw [Function.update_self] at hne
      exact absurd rfl hne
    · rw [Function.update_of_ne hid] at hne ⊢
      exact h id hne
  | disconnect id' =>
    change ((kzMpbhopClientDisconnected maxClients id' s).slots id).origin ∈ g id
    rw [origin_disconnected]
    exact h id hne
  | preThink e =>
    refine forall_update (P := HasOwn) h e.index
      (fun hseen => ?_) id hne
    rw [origin_preThinkSlot]
    cases hspot : rememberedSpot s.blocks e (s.slots e.index) with
    | some v => exact List.mem_cons_self
    | none =>
      rw [hspot] at hseen
      exact h e.index hseen
  | touch touched e time =>
    change ((kzMpbhopDispatchTouch maxClients touched e time s).state.slots id).origin ∈ g id
    rw [origin_touch]
    exact h id hne
  | setTeleport id' origin vAngle =>
    change (if isPlayer maxClients id' = true then Function.update g id' (origin :: g id') else g)
      id ≠ [] at hne
    change ((kzMpbhopSetTeleport maxClients id' origin vAngle s).slots id).origin ∈
      (if isPlayer maxClients id' = true then Function.update g id' (origin :: g id') else g) id
    unfold kzMpbhopSetTeleport
    by_cases hplayer : isPlayer maxClients id' = true
    · rw [if_pos hplayer] at hne
      rw [if_pos hplayer, if_pos hplayer, slots_set]
      exact forall_update (P := HasOwn) h id'
        (fun _ => List.mem_cons_self) id hne
    · rw [if_neg hplayer] at hne
      rw [if_neg hplayer, if_neg hplayer]
      exact h id hne

/-- **The step.** -/
theorem ownSpot_iff (h : HoldsOwn gs) (ev : Event) :
    OwnSpot maxClients gs ev ↔ HasSpot maxClients gs ev := by
  cases ev with
  | touch touched e time =>
    constructor
    · intro hown hback
      exact List.ne_nil_of_mem (hown _ _ (teleport_touch_iff.mpr ⟨hback, rfl⟩))
    · intro hspot origin angles hteleport
      obtain ⟨hback, hv⟩ := teleport_touch_iff.mp hteleport
      have horigin : origin = (gs.2.slots e.index).origin := congrArg Prod.fst hv
      rw [horigin]
      exact h e.index (hspot hback)
  | _ => exact Iff.rfl

/-- **A bhop block sends players only to spots of their own**, in every run, exactly where no player
is sent back for whom no spot was remembered since he joined. -/
theorem ownSpots_iff (s : Mpbhop) (evs : List Event) :
    Along (nextSeen maxClients) (OwnSpot maxClients) (fun _ => [], s) evs ↔
      Along (nextSeen maxClients) (HasSpot maxClients) (fun _ => [], s) evs := by
  refine along_congr_of (A := fun _ => True) (J := HoldsOwn) (fun _ ev _ h => h.next ev)
    (fun _ ev _ h => ownSpot_iff h ev) (fun _ _ => trivial) ?_
  exact fun id hne => absurd rfl hne

end Runs

/-- A player in slot 1, on the world or on an entity. -/
def standing (groundEntity : ℕ) (x : ℚ) : Entity where
  index := 1
  alive := true
  onGround := true
  onLadder := false
  ducking := false
  groundEntity := groundEntity
  groundMoves := false
  obstructed := false
  origin := ⟨x, 0, 0⟩
  vAngle := ⟨0, 0, 0⟩
  gravity := 1

/-- **A spot of the player before**: one player stands at 100 and leaves, another joins and stays on
a block. -/
theorem sent_to_other : ¬ Along (nextSeen 32) (OwnSpot 32) (fun _ => [], .init)
    [.init (· = 5), .putInServer 1, .preThink (standing 0 100), .disconnect 1, .putInServer 1,
      .touch 5 (standing 5 7) 1, .touch 5 (standing 5 7) (3 / 2)] := by
  rintro ⟨-, -, -, -, -, -, hown, -⟩
  have hother := hown ⟨100, 0, 0⟩ ⟨0, 0, 0⟩ (by decide +kernel)
  exact absurd hother List.not_mem_nil

end KzGlobal.Base.Bhop
