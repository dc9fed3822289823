import KzGlobal.Lib.BitField
import KzGlobal.Players.Slots

/-! # Finding the bhop blocks

`kz_mpbhop_init` goes through the entities of a map, class by class, and puts those that players
bhop on into `g_blocks`, an array of 128 words with a bit for each entity. What is in it afterwards
are the doors, buttons and toggled walls that pass the checks of their class, and the triggers whose
target is a block by the time it is looked up (`gBlocks_kzMpbhopInit`); what the map before has left
is gone. The numbers of an entity are exact. -/

namespace KzGlobal.Base.Blocks

open KzGlobal.Lib.BitField KzGlobal.Lib.Stdio KzGlobal.Krp.Format KzGlobal.Replay.Text
open KzGlobal.Players.Slots (copyTo)

/-! ### Entities -/

/-- What the passes read of an entity. A string that is not set is `none`. -/
structure Edict where
  index : ℕ
  classname : Bytes
  dmg : ℚ
  movedirZ : ℚ
  sizeX : ℚ
  sizeY : ℚ
  speed : ℚ
  noise1 : Option Bytes
  noise2 : Option Bytes
  noise3 : Option Bytes
  spawnflags : BitVec 32
  target : Option Bytes
  targetname : Option Bytes

/-- The number of entities that `g_blocks` has a bit for. -/
def maxEdicts : ℕ := 128 * 32

/-- `g_blocks`. -/
abbrev Bitset := Vector (BitVec 32) 128

/-- `STRING`. -/
def text (s : Option Bytes) : Bytes := cstr (s.getD [])

/-- The sound that a muted door plays. -/
def nullWav : Bytes := str "common/null.wav"

/-- A noise of a door that can be heard. -/
def isNoisy (s : Option Bytes) : Bool :=
  match s with
  | none => false
  | some noise => (copyTo 31 noise).bytes ≠ [] ∧ (copyTo 31 noise).bytes ≠ nullWav

/-- `SF_BUTTON_DONTMOVE`. -/
def sfButtonDontmove : BitVec 32 := 1

/-- `SF_BUTTON_TOGGLE`. -/
def sfButtonToggle : BitVec 32 := 32

/-- `SF_BUTTON_SPARK_IF_OFF`. -/
def sfButtonSparkIfOff : BitVec 32 := 64

/-- `SF_BUTTON_TOUCH_ONLY`. -/
def sfButtonTouchOnly : BitVec 32 := 256

/-- The names of buttons that start or stop a timer. -/
def startStop : List Bytes :=
  [str "counter_start", str "clockstartbutton", str "firsttimerelay", str "gogogo",
    str "multi_start", str "counter_start_button", str "startcounter", str "counter_off",
    str "clockstop", str "clockstopbutton", str "multi_stop", str "stop_counter",
    str "stopcounter"]

/-! ### The passes -/

/-- A door that a player bhops on. -/
def isBlockDoor (e : Edict) : Bool :=
  if e.dmg ≠ 0 then false
  else if e.movedirZ > 0 then false
  else if e.sizeX < 24 ∧ e.sizeY > 50 then false
  else if e.sizeY < 24 ∧ e.sizeX > 50 then false
  else if isNoisy e.noise1 then false
  else if isNoisy e.noise2 then false
  else !decide (e.speed < 80)

/-- A button that a player bhops on. -/
def isBlockButton (e : Edict) : Bool :=
  let touchMask := sfButtonDontmove ||| sfButtonToggle ||| sfButtonTouchOnly
  e.spawnflags &&& touchMask = sfButtonTouchOnly ∧
    ∀ name ∈ startStop, text e.target ≠ name ∧ text e.targetname ≠ name

/-- A pass over the entities of a class: the blocks among them are added and counted. -/
def setClass (classname : Bytes) (passes : Edict → Bool) (edicts : List Edict) (r : Bitset × ℕ) :
    Bitset × ℕ :=
  edicts.foldl
    (fun r e =>
      if e.classname = classname ∧ passes e then (insertSet r.1 e.index, r.2 + 1) else r) r

/-- `set_class_doors`. -/
def setClassDoors : List Edict → Bitset × ℕ → Bitset × ℕ := setClass (str "func_door") isBlockDoor

/-- `set_class_buttons`. -/
def setClassButtons : List Edict → Bitset × ℕ → Bitset × ℕ :=
  setClass (str "func_button") isBlockButton

/-- `set_class_wall_toggle` takes every entity of its class. -/
def setClassWallToggle : List Edict → Bitset × ℕ → Bitset × ℕ :=
  setClass (str "func_wall_toggle") fun _ => true

/-- `FIND_ENTITY_BY_TARGETNAME`, from the first entity on. -/
def findByTargetname (edicts : List Edict) (target : Bytes) : Option Edict :=
  edicts.find? fun e => text e.targetname ≠ [] ∧ text e.targetname = target

/-- The entity that a trigger aims at. -/
def targetOf (edicts : List Edict) (e : Edict) : Option Edict :=
  if text e.target = [] then none else findByTargetname edicts (text e.target)

/-- The last pass looks the target of a trigger up in the set so far, and counts nothing. -/
def setMultiple (edicts : List Edict) (set : Bitset) (e : Edict) : Bitset :=
  if e.classname = str "trigger_multiple" ∧
      (targetOf edicts e).any (fun t => memSet set t.index) then
    insertSet set e.index
  else set

/-- `set_class_multiple`: the triggers whose target is a block. -/
def setClassMultiple (edicts : List Edict) (set : Bitset) : Bitset :=
  edicts.foldl (setMultiple edicts) set

/-- What the passes change of an entity: damaging doors are muted, and buttons do not spark. -/
def initEdict (e : Edict) : Edict :=
  if e.classname = str "func_door" ∧ e.dmg ≠ 0 then
    { e with noise1 := some nullWav, noise2 := some nullWav, noise3 := some nullWav }
  else if e.classname = str "func_button" then
    { e with spawnflags := e.spawnflags &&& ~~~ sfButtonSparkIfOff }
  else e

/-- The blocks of a map, how many were counted, and the entities afterwards. -/
structure Detected where
  gBlocks : Bitset
  count : ℕ
  edicts : List Edict

/-- `kz_mpbhop_init`: the blocks, their number and the entities as it leaves them. -/
def kzMpbhopInit (edicts : List Edict) : Detected :=
  let r := setClassDoors edicts (Vector.replicate 128 0#32, 0)
  let r := setClassButtons edicts r
  let r := setClassWallToggle edicts r
  ⟨setClassMultiple edicts r.1, r.2, edicts.map initEdict⟩

/-! ### What a block is -/

/-- A door, button or toggled wall that is a block by itself. -/
def isBlock (e : Edict) : Bool :=
  (e.classname = str "func_door" ∧ isBlockDoor e) ∨
    (e.classname = str "func_button" ∧ isBlockButton e) ∨ e.classname = str "func_wall_toggle"

/-- **A block of a map**: by itself, or as a trigger that aims at a block, which is not a trigger
that comes later. -/
inductive Block (edicts : List Edict) : Edict → Prop
  | self {e : Edict} (he : e ∈ edicts) (hb : isBlock e = true) : Block edicts e
  | trigger {pre post : List Edict} {e t : Edict} (hsplit : edicts = pre ++ e :: post)
      (hclass : e.classname = str "trigger_multiple") (htarget : targetOf edicts e = some t)
      (hb : Block edicts t) (hbefore : isBlock t = true ∨ t ∈ pre) : Block edicts e

/-- The entities of a map, each with an index of its own that has a bit. -/
structure Map (edicts : List Edict) : Prop where
  fits : ∀ e ∈ edicts, e.index < maxEdicts
  nodup : (edicts.map Edict.index).Nodup

/-! ### The passes, one by one -/

section Passes
variable {edicts : List Edict} {set : Bitset} {n i : ℕ}

theorem memSet_setClass (classname : Bytes) (passes : Edict → Bool) :
    ∀ (edicts : List Edict) (set : Bitset) (n : ℕ), (∀ e ∈ edicts, e.index < maxEdicts) →
      (memSet (setClass classname passes edicts (set, n)).1 i = true ↔
        memSet set i = true ∨
          ∃ e ∈ edicts, (e.classname = classname ∧ passes e = true) ∧ e.index = i) ∧
      (setClass classname passes edicts (set, n)).2 =
        n + edicts.countP fun e => e.classname = classname ∧ passes e
  | [], set, n, _ => by simp [setClass]
  | e :: edicts, set, n, h => by
    rw [List.forall_mem_cons] at h
    by_cases hb : e.classname = classname ∧ passes e = true
    · obtain ⟨hmem, hcount⟩ := memSet_setClass classname passes edicts (insertSet set e.index)
        (n + 1) h.2
      have hstep : setClass classname passes (e :: edicts) (set, n) =
          setClass classname passes edicts (insertSet set e.index, n + 1) := by
        unfold setClass
        rw [List.foldl_cons, if_pos hb]
      rw [hstep, hmem, hcount, memSet_insertSet (by decide) h.1, List.countP_cons]
      constructor
      · simp only [Bool.or_eq_true, decide_eq_true_eq, List.exists_mem_cons_iff, hb, true_and,
          and_self]
        tauto
      · simp only [hb, and_self, decide_true, if_true]
        omega
    · obtain ⟨hmem, hcount⟩ := memSet_setClass classname passes edicts set n h.2
      have hstep : setClass classname passes (e :: edicts) (set, n) =
          setClass classname passes edicts (set, n) := by
        unfold setClass
        rw [List.foldl_cons, if_neg hb]
      rw [hstep, hmem, hcount, List.countP_cons]
      constructor
      · simp only [List.exists_mem_cons_iff, hb, false_and, false_or]
      · simp [hb]

theorem countP_isBlock : ∀ edicts : List Edict,
    (edicts.countP fun e => e.classname = str "func_door" ∧ isBlockDoor e) +
        (edicts.countP fun e => e.classname = str "func_button" ∧ isBlockButton e) +
        (edicts.countP fun e => e.classname = str "func_wall_toggle" ∧ true) =
      edicts.countP isBlock
  | [] => rfl
  | e :: edicts => by
    have ih := countP_isBlock edicts
    have hone : (if e.classname = str "func_door" ∧ isBlockDoor e then 1 else 0) +
          (if e.classname = str "func_button" ∧ isBlockButton e then 1 else 0) +
          (if e.classname = str "func_wall_toggle" then 1 else 0) =
        if isBlock e then 1 else 0 := by
      unfold isBlock
      by_cases hdoor : e.classname = str "func_door"
      · rw [hdoor]
        simp [str]
      · by_cases hbutton : e.classname = str "func_button"
        · rw [hbutton]
          simp [str]
        · simp [hdoor, hbutton]
    simp only [List.countP_cons, decide_eq_true_eq, and_true] at ih ⊢
    omega

theorem targetOf_mem {e t : Edict} (h : targetOf edicts e = some t) : t ∈ edicts := by
  unfold targetOf at h
  split_ifs at h
  exact List.mem_of_find?_eq_some h

theorem Map.unique (h : Map edicts) {e e' : Edict} (he : e ∈ edicts) (he' : e' ∈ edicts)
    (hi : e.index = e'.index) : e = e' := List.inj_on_of_nodup_map h.nodup he he' hi

/-- What the set holds when the last pass has been through some of the entities. -/
def Holds (edicts pre : List Edict) (set : Bitset) : Prop :=
  ∀ i, memSet set i = true ↔
    ∃ e ∈ edicts, e.index = i ∧ Block edicts e ∧ (isBlock e = true ∨ e ∈ pre)

/-- **One trigger of the last pass.** -/
theorem Holds.setMultiple (h : Map edicts) {pre post : List Edict} {e : Edict}
    (hsplit : edicts = pre ++ e :: post) (hset : Holds edicts pre set) :
    Holds edicts (pre ++ [e]) (setMultiple edicts set e) := by
  have he : e ∈ edicts := by
    rw [hsplit]
    exact List.mem_append_right _ List.mem_cons_self
  -- the target is a block that was found before
  have htarget (t : Edict) (ht : targetOf edicts e = some t) :
      memSet set t.index = true ↔ Block edicts t ∧ (isBlock t = true ∨ t ∈ pre) := by
    rw [hset]
    constructor
    · rintro ⟨t', ht', hi, hb⟩
      rwa [h.unique ht' (targetOf_mem ht) hi] at hb
    · exact fun hb => ⟨t, targetOf_mem ht, rfl, hb⟩
  intro i
  unfold Blocks.setMultiple
  split_ifs with hfound
  · obtain ⟨hclass, hany⟩ := hfound
    obtain ⟨t, ht, hmem⟩ := (Option.any_eq_true _ _).mp hany
    obtain ⟨hb, hbefore⟩ := (htarget t ht).mp hmem
    have hblock : Block edicts e := .trigger hsplit hclass ht hb hbefore
    rw [memSet_insertSet (by decide) (h.fits e he), Bool.or_eq_true, decide_eq_true_eq, hset]
    constructor
    · rintro (⟨x, hx, hi, hbx, hpre⟩ | rfl)
      · exact ⟨x, hx, hi, hbx, hpre.imp_right (List.mem_append_left _)⟩
      · exact ⟨e, he, rfl, hblock, Or.inr (List.mem_append_right _ (List.mem_singleton_self e))⟩
    · rintro ⟨x, hx, hi, hbx, hpre⟩
      rcases hpre with hpre | hpre
      · exact Or.inl ⟨x, hx, hi, hbx, Or.inl hpre⟩
      · rcases List.mem_append.mp hpre with hpre | hpre
        · exact Or.inl ⟨x, hx, hi, hbx, Or.inr hpre⟩
        · obtain rfl := List.mem_singleton.mp hpre
          exact Or.inr hi
  · rw [hset]
    refine exists_congr fun x => and_congr_right fun hx => and_congr_right fun _ =>
      and_congr_right fun hbx => ⟨Or.imp_right (List.mem_append_left _), fun hpre => ?_⟩
    rcases hpre with hpre | hpre
    · exact Or.inl hpre
    · rcases List.mem_append.mp hpre with hpre | hpre
      · exact Or.inr hpre
      · obtain rfl := List.mem_singleton.mp hpre
        cases hbx with
        | self _ hb => exact Or.inl hb
        | trigger hsplit' hclass ht hb hbefore =>
          -- the entity is where it was, so the pass would have found it
          have hnodup : edicts.Nodup := List.Nodup.of_map _ h.nodup
          rw [hsplit, List.nodup_append, List.nodup_cons] at hnodup
          have hpre : x ∉ pre := fun hx => hnodup.2.2 x hx x List.mem_cons_self rfl
          obtain ⟨rfl, -, -⟩ := (List.append_cons_inj_of_notMem hpre hnodup.2.1.1).mp
            (hsplit.symm.trans hsplit')
          refine absurd ⟨hclass, (Option.any_eq_true _ _).mpr ⟨_, ht, ?_⟩⟩ hfound
          exact (htarget _ ht).mpr ⟨hb, hbefore⟩

theorem holds_foldl (h : Map edicts) : ∀ (post pre : List Edict) (set : Bitset),
    edicts = pre ++ post → Holds edicts pre set →
      Holds edicts edicts (post.foldl (setMultiple edicts) set)
  | [], pre, set, hsplit, hset => by
    rw [List.append_nil] at hsplit
    rwa [hsplit] at hset ⊢
  | e :: post, pre, set, hsplit, hset => by
    rw [List.foldl_cons]
    refine holds_foldl h post (pre ++ [e]) _ ?_ (hset.setMultiple h hsplit)
    rw [hsplit, List.append_assoc, List.singleton_append]

theorem holds_setClass (h : Map edicts) :
    Holds edicts [] (setClassWallToggle edicts
      (setClassButtons edicts (setClassDoors edicts (Vector.replicate 128 0#32, 0)))).1 ∧
    (setClassWallToggle edicts
      (setClassButtons edicts (setClassDoors edicts (Vector.replicate 128 0#32, 0)))).2 =
        edicts.countP isBlock := by
  set doors := setClassDoors edicts (Vector.replicate 128 0#32, 0) with hdoors
  set buttons := setClassButtons edicts doors with hbuttons
  have hdoor (i : ℕ) := memSet_setClass (i := i) (str "func_door") isBlockDoor edicts
    (Vector.replicate 128 0#32) 0 h.fits
  have hbutton (i : ℕ) := memSet_setClass (i := i) (str "func_button") isBlockButton edicts
    doors.1 doors.2 h.fits
  have htoggle (i : ℕ) := memSet_setClass (i := i) (str "func_wall_toggle") (fun _ => true) edicts
    buttons.1 buttons.2 h.fits
  constructor
  · intro i
    refine (htoggle i).1.trans ?_
    have hb : memSet buttons.1 i = true ↔ _ := (hbutton i).1
    have hd : memSet doors.1 i = true ↔ _ := (hdoor i).1
    rw [hb, hd, memSet_replicate (by decide)]
    constructor
    · rintro (((h0 | ⟨e, he, hp, hi⟩) | ⟨e, he, hp, hi⟩) | ⟨e, he, hp, hi⟩)
      · cases h0
      · have hself : isBlock e = true := decide_eq_true (Or.inl hp)
        exact ⟨e, he, hi, .self he hself, Or.inl hself⟩
      · have hself : isBlock e = true := decide_eq_true (Or.inr (Or.inl hp))
        exact ⟨e, he, hi, .self he hself, Or.inl hself⟩
      · have hself : isBlock e = true := decide_eq_true (Or.inr (Or.inr hp.1))
        exact ⟨e, he, hi, .self he hself, Or.inl hself⟩
    · rintro ⟨e, he, hi, -, hself | hnil⟩
      · rcases of_decide_eq_true hself with hp | hp | hp
        · exact Or.inl (Or.inl (Or.inr ⟨e, he, hp, hi⟩))
        · exact Or.inl (Or.inr ⟨e, he, hp, hi⟩)
        · exact Or.inr ⟨e, he, ⟨hp, rfl⟩, hi⟩
      · exact absurd hnil List.not_mem_nil
  · refine (htoggle 0).2.trans ?_
    have hb : buttons.2 = _ := (hbutton 0).2
    have hd : doors.2 = _ := (hdoor 0).2
    rw [hb, hd, Nat.zero_add]
    exact countP_isBlock edicts

/-- **`kz_mpbhop_init` finds the blocks of the map**, those of them that it counts, and nothing
else: the map before leaves none. -/
theorem gBlocks_kzMpbhopInit (h : Map edicts) :
    (∀ i, memSet (kzMpbhopInit edicts).gBlocks i = true ↔
      ∃ e ∈ edicts, e.index = i ∧ Block edicts e) ∧
    (kzMpbhopInit edicts).count = edicts.countP isBlock := by
  obtain ⟨hholds, hcount⟩ := holds_setClass h
  refine ⟨fun i => (holds_foldl h edicts [] _ rfl hholds i).trans ?_, hcount⟩
  exact exists_congr fun e => and_congr_right fun he => and_congr_right fun _ =>
    and_iff_left (Or.inr he)

end Passes

/-! ### A map -/

section Sample

/-- An entity that only its class tells from others. -/
def sampleEdict (index : ℕ) (classname : Bytes) : Edict where
  index := index
  classname := classname
  dmg := 0
  movedirZ := 0
  sizeX := 64
  sizeY := 64
  speed := 100
  noise1 := none
  noise2 := some nullWav
  noise3 := none
  spawnflags := sfButtonTouchOnly
  target := none
  targetname := none

/-- A door, a trigger that aims at a button, the button, and a button that starts the timer. -/
def sampleMap : List Edict :=
  [sampleEdict 70 (str "func_door"),
    { sampleEdict 71 (str "trigger_multiple") with target := some (str "bhop") },
    { sampleEdict 72 (str "func_button") with targetname := some (str "bhop") },
    { sampleEdict 73 (str "func_button") with target := some (str "counter_start") }]

theorem sampleMap_map : Map sampleMap := ⟨by decide, by decide⟩

example : (List.range 100).filter (memSet (kzMpbhopInit sampleMap).gBlocks) = [70, 71, 72] := by
  decide +kernel

end Sample

end KzGlobal.Base.Blocks
