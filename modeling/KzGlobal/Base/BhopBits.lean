import KzGlobal.Base.Blocks
import KzGlobal.Base.Bhop

/-! # The arrays and bits behind the bhop blocks

`kz_mpbhop.cpp` keeps some of what belongs to a player in arrays and some in the bits of the words
`g_onground` and `g_teleported`, which all players share; the bit of a player is his index modulo
32. Here its functions work on these, and the slots of `Bhop` are what they mean: on a server of at
most 32 players, every run does to them what the functions on slots do, with the blocks that were
found for the set of blocks, and sends the same players to the same spots (`mpbhop_refines`). So no
player touches a bit of another. -/

namespace KzGlobal.Base.BhopBits

open KzGlobal.Lib.BitField KzGlobal.Lib.Runs KzGlobal.Base.Bhop KzGlobal.Base.Blocks

/-! ### The globals -/

/-- The variables of `kz_mpbhop.cpp`. -/
structure Globals where
  gBlockTouch : ℕ → ℕ
  gOnFrozenBlock : ℕ → Bool
  gFirstTouch : ℕ → ℚ
  gOnground : BitVec 32
  gTeleported : BitVec 32
  gOrigin : ℕ → Vector3
  gAngles : ℕ → Vector3
  gGravity : ℕ → ℚ
  gBlocks : Bitset

/-- All globals are zero. -/
def Globals.init : Globals where
  gBlockTouch _ := 0
  gOnFrozenBlock _ := false
  gFirstTouch _ := 0
  gOnground := 0
  gTeleported := 0
  gOrigin _ := ⟨0, 0, 0⟩
  gAngles _ := ⟨0, 0, 0⟩
  gGravity _ := 0
  gBlocks := Vector.replicate 128 0#32

section Functions
variable (e : Entity) (g : Globals)

/-- An assignment to an entry of an array. -/
abbrev put {α : Type} (array : ℕ → α) (id : ℕ) (a : α) : ℕ → α := Function.update array id a

/-- `kz_mpbhop_PlayerPreThink`, on the bits. -/
def kzMpbhopPlayerPreThink : Globals :=
  let id := e.index
  if ¬ e.alive then g
  else if testBit g.gTeleported id then { g with gTeleported := clearBit g.gTeleported id }
  else if e.onGround then
    if e.groundEntity = 0 ∨ ¬ memSet g.gBlocks e.groundEntity then
      let g := { g with gOnFrozenBlock := put g.gOnFrozenBlock id false }
      if e.groundEntity ≠ 0 ∧ e.groundMoves then { g with gOnground := clearBit g.gOnground id }
      else if e.ducking then
        if ¬ e.obstructed then
          { g with
            gOrigin := put g.gOrigin id (unducked e.origin)
            gOnground := setBit g.gOnground id }
        else { g with gOnground := clearBit g.gOnground id }
      else
        { g with
          gOrigin := put g.gOrigin id e.origin
          gOnground := setBit g.gOnground id }
    else
      { g with
        gOnFrozenBlock := put g.gOnFrozenBlock id true
        gOnground := clearBit g.gOnground id }
  else
    let g := { g with gOnFrozenBlock := put g.gOnFrozenBlock id false }
    if testBit g.gOnground id then
      { g with
        gAngles := put g.gAngles id e.vAngle
        gGravity := put g.gGravity id e.gravity
        gOnground := clearBit g.gOnground id }
    else g

/-- The globals after a touch, whether the engine's own function is skipped, and where the player is
sent to. -/
def kzMpbhopDispatchTouch (maxClients touched : ℕ) (time : ℚ) :
    Globals × Bool × Option (Vector3 × Vector3) :=
  let toucher := e.index
  if ¬ memSet g.gBlocks touched then (g, false, none)
  else if ¬ isPlayer maxClients toucher then (g, true, none)
  else if ¬ e.alive then (g, true, none)
  else
    let g := { g with gOnFrozenBlock := put g.gOnFrozenBlock toucher true }
    if touched ≠ e.groundEntity then (g, true, none)
    else if g.gBlockTouch toucher ≠ touched then
      ({ g with
        gBlockTouch := put g.gBlockTouch toucher touched
        gFirstTouch := put g.gFirstTouch toucher time }, true, none)
    else if time - g.gFirstTouch toucher > 1 / 4 then
      if time - g.gFirstTouch toucher > maxTouch then
        ({ g with gFirstTouch := put g.gFirstTouch toucher time }, true, none)
      else
        ({ g with gTeleported := setBit g.gTeleported toucher }, true,
          some (g.gOrigin toucher, g.gAngles toucher))
    else (g, true, none)

variable (maxClients id : ℕ)

/-- `kz_mpbhop_ClientPutInServer`, on the bits. -/
def kzMpbhopClientPutInServer : Globals :=
  if ¬ isPlayer maxClients id then g
  else
    { g with
      gTeleported := clearBit g.gTeleported id
      gOnFrozenBlock := put g.gOnFrozenBlock id false
      gBlockTouch := put g.gBlockTouch id 0
      gFirstTouch := put g.gFirstTouch id 0 }

/-- `kz_mpbhop_ClientDisconnected`, on the bits. -/
def kzMpbhopClientDisconnected : Globals :=
  if ¬ isPlayer maxClients id then g
  else
    { g with
      gTeleported := clearBit g.gTeleported id
      gOnFrozenBlock := put g.gOnFrozenBlock id false }

/-- `kz_mpbhop_set_teleport`, which touches no bits. -/
def kzMpbhopSetTeleport (origin vAngle : Vector3) : Globals :=
  if isPlayer maxClients id then
    { g with gOrigin := put g.gOrigin id origin, gAngles := put g.gAngles id vAngle }
  else g

/-- `kz_mpbhop_on_frozen_block` reads an array. -/
def kzMpbhopOnFrozenBlock : Bool := isPlayer maxClients id && g.gOnFrozenBlock id

end Functions

/-! ### The machine -/

/-- A call, where a map comes with its entities. -/
inductive Event
  | init (edicts : List Edict)
  | putInServer (id : ℕ)
  | disconnect (id : ℕ)
  | preThink (e : Entity)
  | touch (touched : ℕ) (e : Entity) (time : ℚ)
  | setTeleport (id : ℕ) (origin vAngle : Vector3)

/-- What an event makes of the globals. -/
def next (maxClients : ℕ) (g : Globals) : Event → Globals
  | .init edicts => { g with gBlocks := (kzMpbhopInit edicts).gBlocks }
  | .putInServer id => kzMpbhopClientPutInServer g maxClients id
  | .disconnect id => kzMpbhopClientDisconnected g maxClients id
  | .preThink e => kzMpbhopPlayerPreThink e g
  | .touch touched e time => (kzMpbhopDispatchTouch e g maxClients touched time).1
  | .setTeleport id origin vAngle => kzMpbhopSetTeleport g maxClients id origin vAngle

/-- What a call answers: whether the engine's own touch is skipped, and where a player is sent. -/
def answer (maxClients : ℕ) (g : Globals) : Event → Bool × Option (Vector3 × Vector3)
  | .touch touched e time => (kzMpbhopDispatchTouch e g maxClients touched time).2
  | _ => (false, none)

/-! ### What the globals mean -/

/-- The slot of a player. -/
def slotOf (g : Globals) (id : ℕ) : Slot where
  blockTouch := g.gBlockTouch id
  onFrozenBlock := g.gOnFrozenBlock id
  firstTouch := g.gFirstTouch id
  onground := testBit g.gOnground id
  teleported := testBit g.gTeleported id
  origin := g.gOrigin id
  angles := g.gAngles id
  gravity := g.gGravity id

/-- An index that the engine gives a player. -/
def IsIndex (id : ℕ) : Prop := 1 ≤ id ∧ id ≤ 32

/-- **The slots and blocks that the globals stand for.** -/
structure Means (g : Globals) (s : Mpbhop) : Prop where
  slots : ∀ id, IsIndex id → slotOf g id = s.slots id
  blocks : ∀ i, memSet g.gBlocks i = s.blocks i

open Classical in
/-- A call in terms of the slots: a map comes with the set of its blocks. -/
noncomputable def onSlots : Event → Bhop.Event
  | .init edicts => .init fun i => decide (∃ e ∈ edicts, e.index = i ∧ Block edicts e)
  | .putInServer id => .putInServer id
  | .disconnect id => .disconnect id
  | .preThink e => .preThink e
  | .touch touched e time => .touch touched e time
  | .setTeleport id origin vAngle => .setTeleport id origin vAngle

/-- What the slots answer. -/
def answerOfSlots (maxClients : ℕ) (s : Mpbhop) : Bhop.Event → Bool × Option (Vector3 × Vector3)
  | .touch touched e time =>
    let t := Bhop.kzMpbhopDispatchTouch maxClients touched e time s
    (t.supercede, t.teleport)
  | _ => (false, none)

/-- What the engine promises: maps have no more entities than there are bits, and those who think
are players. -/
def Legal : Event → Prop
  | .init edicts => Map edicts
  | .preThink e => IsIndex e.index
  | _ => True

/-! ### One slot -/

section Slots
variable {g g' : Globals} {s : Mpbhop} {id : ℕ}

theorem mod_ne {i j : ℕ} (hi : IsIndex i) (hj : IsIndex j) (hne : j ≠ i) : i % 32 ≠ j % 32 := by
  obtain ⟨hi1, hi32⟩ := hi
  obtain ⟨hj1, hj32⟩ := hj
  omega

theorem testBit_setBit_of_ne {field : BitVec 32} {i j : ℕ} (hi : IsIndex i) (hj : IsIndex j)
    (hne : j ≠ i) : testBit (setBit field i) j = testBit field j := by
  rw [testBit_setBit (by decide), decide_eq_false (mod_ne hi hj hne), Bool.or_false]

theorem testBit_clearBit_of_ne {field : BitVec 32} {i j : ℕ} (hi : IsIndex i) (hj : IsIndex j)
    (hne : j ≠ i) : testBit (clearBit field i) j = testBit field j := by
  rw [testBit_clearBit (by decide), decide_eq_false (mod_ne hi hj hne), Bool.not_false,
    Bool.and_true]

theorem testBit_setBit_self {field : BitVec 32} {i : ℕ} : testBit (setBit field i) i = true := by
  rw [testBit_setBit (by decide), decide_eq_true rfl, Bool.or_true]

theorem testBit_clearBit_self {field : BitVec 32} {i : ℕ} :
    testBit (clearBit field i) i = false := by
  rw [testBit_clearBit (by decide), decide_eq_true rfl, Bool.not_true, Bool.and_false]

theorem Means.funext (h : Means g s) : s.blocks = memSet g.gBlocks := by
  funext i
  exact (h.blocks i).symm

/-- **One slot changes**, and no other. -/
theorem Means.set (h : Means g s) {slot : Slot} (hself : slotOf g' id = slot)
    (hother : ∀ j, IsIndex j → j ≠ id → slotOf g' j = slotOf g j)
    (hblocks : g'.gBlocks = g.gBlocks) : Means g' (s.set id slot) where
  slots j hj := by
    rw [slots_set]
    rcases eq_or_ne j id with rfl | hne
    · rw [Function.update_self, hself]
    · rw [Function.update_of_ne hne, hother j hj hne, h.slots j hj]
  blocks i := by
    rw [hblocks]
    exact h.blocks i

/-! ### The functions -/

theorem slotOf_preThink_self (e : Entity) (g : Globals) :
    slotOf (kzMpbhopPlayerPreThink e g) e.index =
      preThinkSlot (memSet g.gBlocks) e (slotOf g e.index) := by
  unfold kzMpbhopPlayerPreThink preThinkSlot slotOf
  dsimp only
  split_ifs <;> simp [testBit_setBit_self, testBit_clearBit_self]

theorem slotOf_preThink_of_ne {e : Entity} (he : IsIndex e.index) (g : Globals) {j : ℕ}
    (hj : IsIndex j) (hne : j ≠ e.index) :
    slotOf (kzMpbhopPlayerPreThink e g) j = slotOf g j := by
  unfold kzMpbhopPlayerPreThink slotOf
  dsimp only
  split_ifs <;>
    simp [hne, testBit_setBit_of_ne he hj hne, testBit_clearBit_of_ne he hj hne]

theorem gBlocks_preThink (e : Entity) (g : Globals) :
    (kzMpbhopPlayerPreThink e g).gBlocks = g.gBlocks := by
  unfold kzMpbhopPlayerPreThink
  dsimp only
  split_ifs <;> rfl

theorem isIndex_of_isPlayer {maxClients : ℕ} (hmax : maxClients ≤ 32)
    (h : isPlayer maxClients id = true) : IsIndex id := by
  obtain ⟨h1, hle⟩ := of_decide_eq_true h
  exact ⟨h1, hle.trans hmax⟩

theorem Means.preThink (h : Means g s) {e : Entity} (he : IsIndex e.index) :
    Means (kzMpbhopPlayerPreThink e g) (Bhop.kzMpbhopPlayerPreThink e s) := by
  refine h.set ?_ (fun j hj hne => slotOf_preThink_of_ne he g hj hne) (gBlocks_preThink e g)
  rw [slotOf_preThink_self, h.slots e.index he, h.funext]

/-- **A touch** does the same to the slot of the player, and answers the same. -/
theorem Means.touch (h : Means g s) {maxClients : ℕ} (hmax : maxClients ≤ 32) (touched : ℕ)
    (e : Entity) (time : ℚ) :
    Means (kzMpbhopDispatchTouch e g maxClients touched time).1
        (Bhop.kzMpbhopDispatchTouch maxClients touched e time s).state ∧
      (kzMpbhopDispatchTouch e g maxClients touched time).2 =
        ((Bhop.kzMpbhopDispatchTouch maxClients touched e time s).supercede,
          (Bhop.kzMpbhopDispatchTouch maxClients touched e time s).teleport) := by
  unfold kzMpbhopDispatchTouch Bhop.kzMpbhopDispatchTouch
  dsimp only
  rw [h.blocks touched]
  by_cases hblock : s.blocks touched = true
  · by_cases hplayer : isPlayer maxClients e.index = true
    · have he := isIndex_of_isPlayer hmax hplayer
      have hslot := h.slots e.index he
      have htouch : (s.slots e.index).blockTouch = g.gBlockTouch e.index := hslot ▸ rfl
      have hfirst : (s.slots e.index).firstTouch = g.gFirstTouch e.index := hslot ▸ rfl
      have hspot : ((s.slots e.index).origin, (s.slots e.index).angles) =
          (g.gOrigin e.index, g.gAngles e.index) := hslot ▸ rfl
      rw [if_neg (not_not.mpr hblock), if_neg (not_not.mpr hplayer), if_neg (not_not.mpr hblock),
        if_neg (not_not.mpr hplayer), htouch, hfirst, hspot]
      by_cases halive : e.alive = true
      · rw [if_neg (not_not.mpr halive), if_neg (not_not.mpr halive)]
        split_ifs
        all_goals
          refine ⟨h.set ?_ (fun j hj hne => ?_) rfl, rfl⟩
          · rw [← hslot]
            simp [slotOf, testBit_setBit_self]
          · simp [slotOf, hne, testBit_setBit_of_ne he hj hne]
      · rw [if_pos halive, if_pos halive]
        exact ⟨h, rfl⟩
    · rw [if_neg (not_not.mpr hblock), if_pos hplayer, if_neg (not_not.mpr hblock), if_pos hplayer]
      exact ⟨h, rfl⟩
  · rw [if_pos hblock, if_pos hblock]
    exact ⟨h, rfl⟩

theorem Means.putInServer (h : Means g s) {maxClients : ℕ} (hmax : maxClients ≤ 32) (id : ℕ) :
    Means (kzMpbhopClientPutInServer g maxClients id)
      (Bhop.kzMpbhopClientPutInServer maxClients id s) := by
  unfold kzMpbhopClientPutInServer Bhop.kzMpbhopClientPutInServer
  split_ifs with hplayer
  · have hid := isIndex_of_isPlayer hmax hplayer
    rw [← h.slots id hid]
    refine h.set (by simp [slotOf, testBit_clearBit_self]) (fun j hj hne => ?_) rfl
    simp [slotOf, hne, testBit_clearBit_of_ne hid hj hne]
  · exact h

theorem Means.disconnected (h : Means g s) {maxClients : ℕ} (hmax : maxClients ≤ 32) (id : ℕ) :
    Means (kzMpbhopClientDisconnected g maxClients id)
      (Bhop.kzMpbhopClientDisconnected maxClients id s) := by
  unfold kzMpbhopClientDisconnected Bhop.kzMpbhopClientDisconnected
  split_ifs with hplayer
  · have hid := isIndex_of_isPlayer hmax hplayer
    rw [← h.slots id hid]
    refine h.set (by simp [slotOf, testBit_clearBit_self]) (fun j hj hne => ?_) rfl
    simp [slotOf, hne, testBit_clearBit_of_ne hid hj hne]
  · exact h

theorem Means.setTeleport (h : Means g s) {maxClients : ℕ} (hmax : maxClients ≤ 32) (id : ℕ)
    (origin vAngle : Vector3) :
    Means (kzMpbhopSetTeleport g maxClients id origin vAngle)
      (Bhop.kzMpbhopSetTeleport maxClients id origin vAngle s) := by
  unfold kzMpbhopSetTeleport Bhop.kzMpbhopSetTeleport
  split_ifs with hplayer
  · have hid := isIndex_of_isPlayer hmax hplayer
    rw [← h.slots id hid]
    refine h.set (by simp [slotOf]) (fun j _ hne => ?_) rfl
    simp [slotOf, hne]
  · exact h

theorem Means.onFrozenBlock (h : Means g s) {maxClients : ℕ} (hmax : maxClients ≤ 32) (id : ℕ) :
    kzMpbhopOnFrozenBlock g maxClients id = Bhop.kzMpbhopOnFrozenBlock maxClients id s := by
  unfold kzMpbhopOnFrozenBlock Bhop.kzMpbhopOnFrozenBlock
  cases hplayer : isPlayer maxClients id with
  | true =>
    rw [← h.slots id (isIndex_of_isPlayer hmax hplayer)]
    rfl
  | false => rfl

open Classical in
theorem Means.init (h : Means g s) {edicts : List Edict} (hmap : Map edicts) :
    Means { g with gBlocks := (kzMpbhopInit edicts).gBlocks }
      { s with blocks := fun i => decide (∃ e ∈ edicts, e.index = i ∧ Block edicts e) } where
  slots := h.slots
  blocks i := by
    rw [Bool.eq_iff_iff, decide_eq_true_eq]
    exact (gBlocks_kzMpbhopInit hmap).1 i

/-- **One call.** -/
theorem Means.next (h : Means g s) {maxClients : ℕ} (hmax : maxClients ≤ 32) {e : Event}
    (he : Legal e) :
    Means (next maxClients g e) (Bhop.next maxClients s (onSlots e)) ∧
      answer maxClients g e = answerOfSlots maxClients s (onSlots e) := by
  cases e with
  | init edicts => exact ⟨h.init he, rfl⟩
  | putInServer id => exact ⟨h.putInServer hmax id, rfl⟩
  | disconnect id => exact ⟨h.disconnected hmax id, rfl⟩
  | preThink e => exact ⟨h.preThink he, rfl⟩
  | touch touched e time => exact h.touch hmax touched e time
  | setTeleport id origin vAngle => exact ⟨h.setTeleport hmax id origin vAngle, rfl⟩

end Slots

/-! ### Runs -/

theorem means_init : Means .init .init where
  slots id _ := by
    simp [slotOf, Globals.init, Mpbhop.init, testBit_zero]
  blocks i := memSet_replicate (by decide) i

/-- **The arrays and bits do what the slots do**, in every run: afterwards they stand for the slots
and the blocks of the map, and what is asked next is answered the same. -/
theorem mpbhop_refines {maxClients : ℕ} (hmax : maxClients ≤ 32) {es : List Event}
    (hes : ∀ e ∈ es, Legal e) :
    Means (run (next maxClients) .init es) (run (Bhop.next maxClients) .init (es.map onSlots)) ∧
      (∀ e, Legal e → answer maxClients (run (next maxClients) .init es) e =
        answerOfSlots maxClients (run (Bhop.next maxClients) .init (es.map onSlots))
          (onSlots e)) ∧
      ∀ id, kzMpbhopOnFrozenBlock (run (next maxClients) .init es) maxClients id =
        Bhop.kzMpbhopOnFrozenBlock maxClients id
          (run (Bhop.next maxClients) .init (es.map onSlots)) := by
  have hmeans : ∀ (es : List Event) (g : Globals) (s : Mpbhop), (∀ e ∈ es, Legal e) → Means g s →
      Means (run (next maxClients) g es) (run (Bhop.next maxClients) s (es.map onSlots)) := by
    intro es
    induction es with
    | nil => exact fun _ _ _ h => h
    | cons e es ih =>
      intro g s hes h
      rw [List.forall_mem_cons] at hes
      exact ih _ _ hes.2 (h.next hmax hes.1).1
  have h := hmeans es _ _ hes means_init
  exact ⟨h, fun e he => (h.next hmax he).2, h.onFrozenBlock hmax⟩

/-! ### Two players -/

section Sample

/-- A player whose bit is that of index 0. -/
def sampleStanding (groundEntity : ℕ) (x : ℚ) : Entity :=
  { standing groundEntity x with index := 32 }

/-- Two players stand beside a block, and one of them goes on it. -/
def sampleCalls : List Event :=
  [.init sampleMap, .putInServer 1, .putInServer 32, .preThink (standing 0 100),
    .preThink (sampleStanding 0 200), .touch 71 (sampleStanding 71 7) 1]

theorem sampleCalls_legal : ∀ e ∈ sampleCalls, Legal e := by
  intro e he
  simp only [sampleCalls, List.mem_cons, List.not_mem_nil, or_false] at he
  rcases he with rfl | rfl | rfl | rfl | rfl | rfl
  · exact sampleMap_map
  · trivial
  · trivial
  · exact ⟨by decide, by decide⟩
  · exact ⟨by decide, by decide⟩
  · trivial

theorem mpbhop_refines_sample :
    answer 32 (run (next 32) .init sampleCalls) (.touch 71 (sampleStanding 71 7) (3 / 2)) =
        (true, some (⟨200, 0, 0⟩, ⟨0, 0, 0⟩)) ∧
      answerOfSlots 32 (run (Bhop.next 32) .init (sampleCalls.map onSlots))
          (.touch 71 (sampleStanding 71 7) (3 / 2)) =
        (true, some (⟨200, 0, 0⟩, ⟨0, 0, 0⟩)) := by
  have hanswer := (mpbhop_refines le_rfl sampleCalls_legal).2.1
    (.touch 71 (sampleStanding 71 7) (3 / 2)) trivial
  have hbits : answer 32 (run (next 32) .init sampleCalls)
      (.touch 71 (sampleStanding 71 7) (3 / 2)) = (true, some (⟨200, 0, 0⟩, ⟨0, 0, 0⟩)) := by
    decide +kernel
  exact ⟨hbits, hanswer.symm.trans hbits⟩

end Sample

end KzGlobal.Base.BhopBits
