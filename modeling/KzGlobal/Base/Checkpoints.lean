import KzGlobal.Base.Bhop
import Mathlib.Data.Fintype.Basic

/-! # Checkpoints

A checkpoint is written to a ring of 31 in the entry of the player's slot, and a gocheck reads the
one that was written last. The entry is never cleared, so a player who joins finds the checkpoints
of the one before: a gocheck goes to a checkpoint of the player's own exactly where he has saved one
since he joined, or none was ever saved in the slot (`ownCheckpoints_iff`). -/

namespace KzGlobal.Base.Checkpoints

open KzGlobal.Lib.Runs KzGlobal.Base.Bhop

/-! ### Players -/

/-- `kz_checkpoint_t`. -/
structure KzCheckpoint where
  origin : Vector3
  vAngle : Vector3
  deriving DecidableEq

/-- `KZ_MAX_CHECKPOINT_CACHE`. -/
def kzMaxCheckpointCache : ℕ := 31

/-- An index of the ring. -/
abbrev Index := Fin kzMaxCheckpointCache

/-- The index that is written next. -/
def Index.next (i : Index) : Index := ⟨(i + 1) % kzMaxCheckpointCache, Nat.mod_lt _ (by decide)⟩

/-- The index before, which is the last one for the first. -/
def Index.before (i : Index) : Index :=
  if i.val = 0 then ⟨kzMaxCheckpointCache - 1, by decide⟩ else ⟨i - 1, by omega⟩

theorem before_next (i : Index) : i.next.before = i := by revert i; decide

/-- `kz_player_t`, but for what no command reads. The counters wrap. -/
structure KzPlayer where
  checkpoints : Index → KzCheckpoint
  cpCount : ℕ
  cpIndex : Index
  tpCount : ℕ
  pausedCheckpoints : Index → KzCheckpoint
  pausedCpCount : ℕ
  pausedCpIndex : Index
  timerRunning : Bool
  timerPaused : Bool

/-- A counter of 32 bits that is counted up. -/
def countUp (n : ℕ) : ℕ := (n + 1) % 2 ^ 32

/-- A checkpoint that was never saved. -/
def zeroCheckpoint : KzCheckpoint := ⟨⟨0, 0, 0⟩, ⟨0, 0, 0⟩⟩

/-- A slot of `g_players` at the start. -/
def KzPlayer.zero : KzPlayer where
  checkpoints _ := zeroCheckpoint
  cpCount := 0
  cpIndex := ⟨0, by decide⟩
  tpCount := 0
  pausedCheckpoints _ := zeroCheckpoint
  pausedCpCount := 0
  pausedCpIndex := ⟨0, by decide⟩
  timerRunning := false
  timerPaused := false

/-- The entries of `g_players` and the state of the bhop blocks. -/
structure State where
  gPlayers : ℕ → KzPlayer
  mpbhop : Mpbhop

/-- The slots of `g_players` and of the blocks at the start. -/
def State.init : State := ⟨fun _ => .zero, .init⟩

/-- What a command does beside the entries: a report for the recording, or a teleport. -/
inductive Effect
  | kzRpRunCheckpoint (id : ℕ)
  | kzRpRunGocheck (id : ℕ)
  | kzTeleportPlayer (id : ℕ) (origin vAngle : Vector3)
  deriving DecidableEq

/-! ### The commands -/

section Commands
variable (maxClients : ℕ) (gApiInitialized : Bool)

/-- Whether `kz_cmd_checkpoint` gets to the checkpoint. -/
def mayCheckpoint (e : Entity) (b : State) : Bool :=
  isPlayer maxClients e.index && e.alive && (e.onGround || e.onLadder) &&
    !kzMpbhopOnFrozenBlock maxClients e.index b.mpbhop

/-- The checkpoint of a player, in the ring of the run or of the pause. -/
def saveCheckpoint (e : Entity) (p : KzPlayer) : KzPlayer :=
  let checkpoint : KzCheckpoint := ⟨e.origin, e.vAngle⟩
  if p.timerPaused then
    { p with
      pausedCheckpoints := Function.update p.pausedCheckpoints p.pausedCpIndex checkpoint
      pausedCpIndex := p.pausedCpIndex.next
      pausedCpCount := countUp p.pausedCpCount }
  else
    { p with
      checkpoints := Function.update p.checkpoints p.cpIndex checkpoint
      cpIndex := p.cpIndex.next
      cpCount := countUp p.cpCount }

/-- `kz_cmd_checkpoint` saves, and tells the replay of it unless the timer is paused. -/
def kzCmdCheckpoint (e : Entity) (b : State) : State × List Effect :=
  if mayCheckpoint maxClients e b then
    let p := b.gPlayers e.index
    ({ b with gPlayers := Function.update b.gPlayers e.index (saveCheckpoint e p) },
      if ¬ p.timerPaused ∧ gApiInitialized then [.kzRpRunCheckpoint e.index] else [])
  else (b, [])

/-- The checkpoint that a gocheck reads, or the zero vectors. -/
def lastCheckpoint (p : KzPlayer) : KzCheckpoint :=
  if p.timerPaused then
    let checkpoint := p.pausedCheckpoints p.pausedCpIndex.before
    if isVecEmpty checkpoint.origin then zeroCheckpoint else checkpoint
  else if p.cpCount = 0 then zeroCheckpoint
  else p.checkpoints p.cpIndex.before

/-- `kz_cmd_gocheck`: the player is put where the last checkpoint is, if there is one. -/
def kzCmdGocheck (e : Entity) (b : State) : State × List Effect :=
  if ¬ isPlayer maxClients e.index ∨ ¬ e.alive then (b, [])
  else
    let p := b.gPlayers e.index
    let checkpoint := lastCheckpoint p
    if isVecEmpty checkpoint.origin then (b, [])
    else
      let reported :=
        if p.timerRunning ∧ ¬ p.timerPaused ∧ p.cpCount ≠ 0 ∧ gApiInitialized then
          [.kzRpRunGocheck e.index]
        else []
      let p := if ¬ p.timerPaused then { p with tpCount := countUp p.tpCount } else p
      ({ b with gPlayers := Function.update b.gPlayers e.index p },
        reported ++ [.kzTeleportPlayer e.index checkpoint.origin checkpoint.vAngle])

end Commands

/-! ### The machine -/

/-- A command of a player, or what concerns the bhop blocks: joins and disconnects among it. -/
inductive Event
  | checkpoint (e : Entity)
  | gocheck (e : Entity)
  | other (ev : Bhop.Event)

section Machine
variable (maxClients : ℕ) (gApiInitialized : Bool)

/-- What an event makes of the slots. -/
def next (b : State) : Event → State
  | .checkpoint e => (kzCmdCheckpoint maxClients gApiInitialized e b).1
  | .gocheck e => (kzCmdGocheck maxClients gApiInitialized e b).1
  | .other ev => { b with mpbhop := Bhop.next maxClients b.mpbhop ev }

/-- The last checkpoint of the players in the slots since they joined. -/
abbrev Saved := ℕ → Option KzCheckpoint

/-- The spot each player has saved last, since he joined. -/
def save (g : Saved) (b : State) : Event → Saved
  | .checkpoint e =>
    if mayCheckpoint maxClients e b then Function.update g e.index (some ⟨e.origin, e.vAngle⟩)
    else g
  | .other (.putInServer id) => Function.update g id none
  | _ => g

/-- A run with the last checkpoints beside it. -/
abbrev nextSaved := withGhost (next maxClients gApiInitialized) (save maxClients)

/-- **A gocheck goes only to the last checkpoint of the player**, and nowhere without one. -/
def OwnCheckpoint (gb : Saved × State) : Event → Prop
  | .gocheck e => ∀ origin vAngle, .kzTeleportPlayer e.index origin vAngle ∈
      (kzCmdGocheck maxClients gApiInitialized e gb.2).2 → gb.1 e.index = some ⟨origin, vAngle⟩
  | _ => True

/-- **The gocheck that is not too early**: the player, where he is alive, has saved a checkpoint
since he joined, or nobody has in his slot. -/
def HasCheckpoint (gb : Saved × State) : Event → Prop
  | .gocheck e => isPlayer maxClients e.index = true → e.alive = true →
      gb.1 e.index ≠ none ∨ (gb.2.gPlayers e.index).cpCount = 0
  | _ => True

/-- The origin of a checkpoint is not the zero vector. -/
def SavesSpot : Event → Prop
  | .checkpoint e => isVecEmpty e.origin = false
  | _ => True

end Machine

/-! ### Checkpoints of the player's own -/

/-- The checkpoint that a gocheck of a run goes to. -/
def lastSaved (p : KzPlayer) : KzCheckpoint := p.checkpoints p.cpIndex.before

/-- **What every reachable entry has**: the timer is not paused, the last checkpoint of the player
is the one that is read, and what is read is a spot. -/
structure HoldsEntry (saved : Option KzCheckpoint) (p : KzPlayer) : Prop where
  running : p.timerPaused = false
  own : ∀ checkpoint, saved = some checkpoint → lastSaved p = checkpoint
  spot : p.cpCount ≠ 0 → isVecEmpty (lastSaved p).origin = false

section Entry
variable {saved : Option KzCheckpoint} {p : KzPlayer} {e : Entity}

theorem HoldsEntry.not_paused (h : HoldsEntry saved p) : ¬ p.timerPaused = true := by
  rw [h.running]
  exact Bool.false_ne_true

theorem saveCheckpoint_of_running (h : p.timerPaused = false) : saveCheckpoint e p =
    ⟨Function.update p.checkpoints p.cpIndex ⟨e.origin, e.vAngle⟩, countUp p.cpCount,
      p.cpIndex.next, p.tpCount, p.pausedCheckpoints, p.pausedCpCount, p.pausedCpIndex,
      p.timerRunning, p.timerPaused⟩ :=
  if_neg (by rw [h]; exact Bool.false_ne_true)

/-- **What is saved is read**, wherever the ring is. -/
theorem lastSaved_saveCheckpoint (h : p.timerPaused = false) :
    lastSaved (saveCheckpoint e p) = ⟨e.origin, e.vAngle⟩ := by
  rw [saveCheckpoint_of_running h, lastSaved]
  dsimp only
  rw [before_next, Function.update_self]

theorem HoldsEntry.save (h : HoldsEntry saved p) (he : isVecEmpty e.origin = false) :
    HoldsEntry (some ⟨e.origin, e.vAngle⟩) (saveCheckpoint e p) where
  running := by
    rw [saveCheckpoint_of_running h.running]
    exact h.running
  own checkpoint hsaved := by
    rw [lastSaved_saveCheckpoint h.running]
    exact Option.some.inj hsaved
  spot _ := by
    rw [lastSaved_saveCheckpoint h.running]
    exact he

theorem HoldsEntry.teleported (h : HoldsEntry saved p) (tpCount : ℕ) :
    HoldsEntry saved { p with tpCount } :=
  ⟨h.running, h.own, h.spot⟩

theorem HoldsEntry.joined (h : HoldsEntry saved p) : HoldsEntry none p :=
  ⟨h.running, nofun, h.spot⟩

theorem HoldsEntry.lastCheckpoint (h : HoldsEntry saved p) :
    lastCheckpoint p = if p.cpCount = 0 then zeroCheckpoint else lastSaved p :=
  if_neg h.not_paused

end Entry

section Runs
variable {maxClients : ℕ} {gApiInitialized : Bool}

/-- `HoldsEntry` of every slot. -/
def Holds (gb : Saved × State) : Prop := ∀ id, HoldsEntry (gb.1 id) (gb.2.gPlayers id)

theorem holds_init : Holds (fun _ => none, .init) := fun _ =>
  ⟨rfl, nofun, fun h => absurd rfl h⟩

/-- **A gocheck teleports** where something was ever saved in the slot, to what was saved last. -/
theorem teleport_gocheck_iff {gb : Saved × State} (h : Holds gb) {e : Entity}
    {origin vAngle : Vector3} : .kzTeleportPlayer e.index origin vAngle ∈
      (kzCmdGocheck maxClients gApiInitialized e gb.2).2 ↔
    (isPlayer maxClients e.index = true ∧ e.alive = true) ∧
      (gb.2.gPlayers e.index).cpCount ≠ 0 ∧
        lastSaved (gb.2.gPlayers e.index) = ⟨origin, vAngle⟩ := by
  have hentry := h e.index
  unfold kzCmdGocheck
  by_cases hmay : isPlayer maxClients e.index = true ∧ e.alive = true
  · have hno : ¬ (¬ isPlayer maxClients e.index = true ∨ ¬ e.alive = true) :=
      not_or.mpr ⟨not_not.mpr hmay.1, not_not.mpr hmay.2⟩
    rw [if_neg hno]
    dsimp only
    rw [hentry.lastCheckpoint]
    by_cases hcount : (gb.2.gPlayers e.index).cpCount = 0
    · rw [if_pos hcount]
      exact iff_of_false List.not_mem_nil fun hand => hand.2.1 hcount
    · have hspot : ¬ isVecEmpty (lastSaved (gb.2.gPlayers e.index)).origin = true := by
        rw [hentry.spot hcount]
        exact Bool.false_ne_true
      rw [if_neg hcount, if_neg hspot, List.mem_append]
      constructor
      · rintro (hreport | hteleport)
        · split_ifs at hreport
          · cases List.mem_singleton.mp hreport
          · cases hreport
        · obtain ⟨-, rfl, rfl⟩ := Effect.kzTeleportPlayer.inj (List.mem_singleton.mp hteleport)
          exact ⟨hmay, hcount, rfl⟩
      · rintro ⟨-, -, hlast⟩
        rw [hlast]
        exact Or.inr List.mem_cons_self
  · rw [if_pos (not_and_or.mp hmay)]
    exact iff_of_false List.not_mem_nil fun hand => hmay hand.1

/-- **The step.** -/
theorem ownCheckpoint_iff {gb : Saved × State} (h : Holds gb) (ev : Event) :
    OwnCheckpoint maxClients gApiInitialized gb ev ↔ HasCheckpoint maxClients gb ev := by
  cases ev with
  | gocheck e =>
    constructor
    · intro hown hplayer halive
      refine or_iff_not_imp_right.mpr fun hcount hnone => ?_
      have hsaved := hown _ _ ((teleport_gocheck_iff h).mpr ⟨⟨hplayer, halive⟩, hcount, rfl⟩)
      rw [hnone] at hsaved
      cases hsaved
    · intro hhas origin vAngle hteleport
      obtain ⟨⟨hplayer, halive⟩, hcount, hlast⟩ := (teleport_gocheck_iff h).mp hteleport
      obtain ⟨checkpoint, hsaved⟩ :=
        Option.ne_none_iff_exists'.mp ((hhas hplayer halive).resolve_right hcount)
      rw [hsaved, ← (h e.index).own checkpoint hsaved, hlast]
  | checkpoint e => exact Iff.rfl
  | other ev => exact Iff.rfl

theorem Holds.next {gb : Saved × State} (h : Holds gb) {ev : Event} (hev : SavesSpot ev) :
    Holds (nextSaved maxClients gApiInitialized gb ev) := by
  obtain ⟨g, b⟩ := gb
  cases ev with
  | checkpoint e =>
    change ∀ id, HoldsEntry ((if mayCheckpoint maxClients e b = true then
      Function.update g e.index (some ⟨e.origin, e.vAngle⟩) else g) id)
      ((kzCmdCheckpoint maxClients gApiInitialized e b).1.gPlayers id)
    unfold kzCmdCheckpoint
    by_cases hmay : mayCheckpoint maxClients e b = true
    · rw [if_pos hmay, if_pos hmay]
      exact forall_update h e.index ((h e.index).save hev)
    · rw [if_neg hmay, if_neg hmay]
      exact h
  | gocheck e =>
    change ∀ id, HoldsEntry (g id) ((kzCmdGocheck maxClients gApiInitialized e b).1.gPlayers id)
    have hteleported := forall_update h e.index ((h e.index).teleported
      (countUp (b.gPlayers e.index).tpCount))
    rw [Function.update_eq_self] at hteleported
    unfold kzCmdGocheck
    by_cases hno : ¬ isPlayer maxClients e.index = true ∨ ¬ e.alive = true
    · rw [if_pos hno]
      exact h
    rw [if_neg hno]
    dsimp only
    by_cases hempty : isVecEmpty (lastCheckpoint (b.gPlayers e.index)).origin = true
    · rw [if_pos hempty]
      exact h
    · rw [if_neg hempty, if_pos (h e.index).not_paused]
      exact hteleported
  | other ev =>
    cases ev with
    | putInServer id =>
      have hentry := forall_update h id (h id).joined
      rwa [Function.update_eq_self] at hentry
    | init blocks => exact h
    | disconnect id => exact h
    | preThink e => exact h
    | touch touched e time => exact h
    | setTeleport id origin vAngle => exact h

/-- **A gocheck returns to the player's own last checkpoint**, in every run, exactly where every
player who uses it has saved one since he joined, or none was ever saved in his slot. -/
theorem ownCheckpoints_iff (evs : List Event) (hspots : ∀ ev ∈ evs, SavesSpot ev) :
    Along (nextSaved maxClients gApiInitialized) (OwnCheckpoint maxClients gApiInitialized)
        (fun _ => none, .init) evs ↔
      Along (nextSaved maxClients gApiInitialized) (HasCheckpoint maxClients)
        (fun _ => none, .init) evs := by
  have hnext : ∀ (gb : Saved × State) (ev : Event), SavesSpot ev → Holds gb →
      Holds (nextSaved maxClients gApiInitialized gb ev) := fun _ _ hev h => h.next hev
  have hstep : ∀ (gb : Saved × State) (ev : Event), SavesSpot ev → Holds gb →
      (OwnCheckpoint maxClients gApiInitialized gb ev ↔ HasCheckpoint maxClients gb ev) :=
    fun _ ev _ h => ownCheckpoint_iff h ev
  exact along_congr_of hnext hstep hspots holds_init

end Runs

/-- A checkpoint is saved, and gone back to. -/
theorem ownCheckpoints_sample : Along (nextSaved 32 true) (OwnCheckpoint 32 true)
    (fun _ => none, .init)
    [.other (.putInServer 1), .checkpoint (standing 0 100), .gocheck (standing 0 7)] := by
  refine (ownCheckpoints_iff _ ?_).mpr ⟨trivial, trivial, fun _ _ => Or.inl ?_, trivial⟩
  · rintro ev (_ | ⟨_, _ | ⟨_, _ | ⟨_, ⟨⟩⟩⟩⟩)
    · trivial
    · exact (by decide +kernel : isVecEmpty (standing 0 100).origin = false)
    · trivial
  · decide +kernel

/-- **A checkpoint of the player before**: one player saves at 100 and leaves, another joins and
goes there. -/
theorem gone_to_other : ¬ Along (nextSaved 32 true) (OwnCheckpoint 32 true) (fun _ => none, .init)
    [.other (.putInServer 1), .checkpoint (standing 0 100), .other (.disconnect 1),
      .other (.putInServer 1), .gocheck (standing 0 7)] := by
  rintro ⟨-, -, -, -, hown, -⟩
  have hother := hown ⟨100, 0, 0⟩ ⟨0, 0, 0⟩ (by decide +kernel)
  exact absurd hother (by decide +kernel)

end KzGlobal.Base.Checkpoints
