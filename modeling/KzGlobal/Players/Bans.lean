import KzGlobal.Players.Slots
import KzGlobal.Replay.Capture

/-! # Bans and submissions

A player who was banned before a run was finished does not submit it, and a player who was not
banned in the same connection does. The writer thread reads the flag of the slot when it gets to the
signal, so this holds as long as the flag a queued signal was pushed under still tells whether its
player is banned (`ban_decides`). A disconnect that clears the flag, one that leaves it to the next
player, and a ban of the next player come in between (`ban_undecided`). -/

namespace KzGlobal.Players.Bans

open KzGlobal.Lib.Runs KzGlobal.Lib.Stdio KzGlobal.Krp.Format
open KzGlobal.Replay.Text KzGlobal.Replay.Writer KzGlobal.Replay.Capture
open KzGlobal.Fetch.Reply KzGlobal.Players.Slots

/-! ### What happened -/

/-- The connection in which a signal was queued, and whether it was banned by then. -/
structure Mark where
  conn : ℕ
  banned : Bool
  deriving DecidableEq

/-- What the writer made of a FINISH to submit: whether the file was renamed, and whether the record
was submitted. -/
structure Outcome where
  player : ℕ
  mark : Mark
  saved : Bool
  submitted : Bool
  deriving DecidableEq

/-- The connections of each slot so far, the slots and connections in which a ban was applied, the
marks of the queued signals and the outcomes. -/
structure History where
  conn : ℕ → ℕ
  bans : List (ℕ × ℕ)
  marks : List Mark
  outcomes : List Outcome

/-- Nothing has happened. -/
def History.init : History := ⟨fun _ => 0, [], [], []⟩

/-- A FINISH to submit. -/
def submits : Signal → Bool
  | .finish _ submit _ _ _ => submit
  | _ => false

/-- The output that a replay was saved. -/
def isSaved : Output → Bool
  | .saved _ _ => true
  | _ => false

/-- The output that a record was queued. -/
def isAddRecord : Output → Bool
  | .addRecord _ => true
  | _ => false

section History
variable (dataDir : Bytes)

/-- A connection begins where a slot that holds no player is joined. -/
def tick (h : History) (s : Server) : Event → History
  | .putInServer id _ _ _ =>
    if s.connected id then h else { h with conn := Function.update h.conn id (h.conn id + 1) }
  | .playerJoinAck engine isBanned steamid =>
    match bannedSlot 3 engine isBanned steamid with
    | some id => if s.connected id then { h with bans := (id, h.conn id) :: h.bans } else h
    | none => h
  | .native id allowPause n =>
    match pushed id allowPause n s with
    | some _ => { h with marks := h.marks ++ [⟨h.conn id, (id, h.conn id) ∈ h.bans⟩] }
    | none => h
  | .process env =>
    match process dataDir env s, h.marks with
    | some (id, signal, _, outs), mark :: marks =>
      let o : Outcome := ⟨id, mark, outs.any isSaved, outs.any isAddRecord⟩
      { h with
        marks := marks, outcomes := if submits signal then h.outcomes ++ [o] else h.outcomes }
    | _, _ => h
  | _ => h

/-- The server and what happened. -/
abbrev track : History × Server → Event → History × Server :=
  withGhost (Slots.next dataDir 3) (tick dataDir)

end History

/-- **A ban decides.** No run of a banned player is submitted that was finished after the ban, and
every saved run of a player who was not banned in the connection is. -/
def Decided (h : History) : Prop :=
  ∀ o ∈ h.outcomes, (o.mark.banned = true → o.submitted = false) ∧
    ((o.player, o.mark.conn) ∉ h.bans → o.saved = true → o.submitted = true)

/-- The queued FINISH signals to submit: slot and mark. -/
def waiting (h : History) (s : Server) : List (ℕ × Mark) :=
  (s.writerQueue.zip h.marks).filterMap fun e => if submits e.1.2 then some (e.1.1, e.2) else none

/-- The condition on a step. A disconnect that clears a set flag finds no run waiting that was
finished after a ban; a connection begins in a slot without the flag; a ban finds no run waiting
from an earlier connection that was not banned. -/
def Settled (hs : History × Server) : Event → Prop
  | .putInServer id _ _ _ => hs.2.connected id = false → (hs.2.players id).noSubmit = false
  | .dropClient id => (hs.2.players id).noSubmit = true →
    ¬ ((hs.2.players id).isBot ∨ hs.2.gEarlyMapchange) →
      ∀ w ∈ waiting hs.1 hs.2, w.1 = id → w.2.banned = false
  | .playerJoinAck engine isBanned steamid => ∀ id, bannedSlot 3 engine isBanned steamid = some id →
    ∀ w ∈ waiting hs.1 hs.2, w.1 = id →
      (id, w.2.conn) ∈ hs.1.bans ∨ hs.2.connected id = true ∧ w.2.conn = hs.1.conn id
  | _ => True

/-! ### The outputs of a FINISH -/

theorem outputs_onFinish (dataDir : Bytes) (env : Env) (timeMs : ℕ) (submit : Bool)
    (charPrefix : UInt8) (steamidShort : CString 35) (nickname : CString 32) (s : Slot) :
    (onFinish dataDir env timeMs submit charPrefix steamidShort nickname s).2 = [] ∨
      ∃ uid path mapname npath s',
        (onFinish dataDir env timeMs submit charPrefix steamidShort nickname s).2 =
          .saved uid path :: finishOutputs env timeMs submit steamidShort mapname uid npath s' := by
  unfold onFinish
  rcases s.fd with _ | fd
  · exact Or.inl rfl
  · dsimp only
    split_ifs
    · exact Or.inl rfl
    · split
      · exact Or.inr ⟨_, _, _, _, _, rfl⟩
      · exact Or.inl rfl

/-- **The flag decides** whether a FINISH to submit is submitted. -/
theorem step_decided (dataDir : Bytes) (s : Slot) {i : Input} (hs : submits i.signal = true) :
    (i.env.noSubmit = true → (step dataDir s i).2.any isAddRecord = false) ∧
      (i.env.noSubmit = false → (step dataDir s i).2.any isSaved = true →
        (step dataDir s i).2.any isAddRecord = true) := by
  obtain ⟨signal, env⟩ := i
  cases signal with
  | finish timeMs submit charPrefix steamidShort nickname =>
    have hsub : submit = true := hs
    subst hsub
    change (env.noSubmit = true →
      (onFinish dataDir env timeMs true charPrefix steamidShort nickname s).2.any
      isAddRecord = false) ∧ (env.noSubmit = false →
        (onFinish dataDir env timeMs true charPrefix steamidShort nickname s).2.any isSaved = true →
        (onFinish dataDir env timeMs true charPrefix steamidShort nickname s).2.any isAddRecord =
          true)
    rcases outputs_onFinish dataDir env timeMs true charPrefix steamidShort nickname s with
      h | ⟨_, _, _, _, _, h⟩
    · rw [h]
      exact ⟨fun _ => rfl, fun _ h => by cases h⟩
    · rw [h]
      refine ⟨fun hn => ?_, fun hn _ => ?_⟩
      · rw [finishOutputs, if_pos (Or.inr hn)]
        rfl
      · rw [finishOutputs, if_neg (by rw [hn]; decide)]
        rfl
  | _ => cases hs

/-! ### The invariant -/

/-- The flag of a slot tells whether the connection is banned, and for every run that waits what its
player was. -/
structure Agrees (h : History) (s : Server) : Prop where
  length : h.marks.length = s.writerQueue.length
  bans : ∀ b ∈ h.bans, b.2 ≤ h.conn b.1
  flag : ∀ id, s.connected id = true → ((s.players id).noSubmit = true ↔ (id, h.conn id) ∈ h.bans)
  banned : ∀ w ∈ waiting h s, w.2.banned = true → (s.players w.1).noSubmit = true
  free : ∀ w ∈ waiting h s, (w.1, w.2.conn) ∉ h.bans → (s.players w.1).noSubmit = false
  decided : Decided h

theorem Agrees.init (disk : Disk Bytes UInt8) : Agrees .init (.init disk) where
  length := rfl
  bans b hb := by cases hb
  flag id hc := by cases hc
  banned w hw := by cases hw
  free w hw := by cases hw
  decided o ho := by cases ho

section Steps
variable {h : History} {s : Server}

theorem waiting_append (hl : h.marks.length = s.writerQueue.length) (id : ℕ) (signal : Signal)
    (m : Mark) :
    waiting { h with marks := h.marks ++ [m] }
    { s with writerQueue := s.writerQueue ++ [(id, signal)] } =
      waiting h s ++ if submits signal then [(id, m)] else [] := by
  have hz : (s.writerQueue ++ [(id, signal)]).zip (h.marks ++ [m]) =
      s.writerQueue.zip h.marks ++ [((id, signal), m)] := List.zip_append hl.symm
  rw [waiting, hz, List.filterMap_append, waiting]
  congr 1
  by_cases hs : submits signal = true
  · simp [hs]
  · simp [hs]

theorem waiting_cons {id : ℕ} {signal : Signal} {q : List (ℕ × Signal)} {m : Mark} {ms : List Mark}
    (hq : s.writerQueue = (id, signal) :: q) (hm : h.marks = m :: ms) :
    waiting h s = (if submits signal then [(id, m)] else []) ++
      waiting { h with marks := ms } { s with writerQueue := q } := by
  rw [waiting, hq, hm, List.zip_cons_cons, List.filterMap_cons, waiting]
  by_cases hs : submits signal = true
  · simp [hs]
  · simp [hs]

theorem Agrees.players (ha : Agrees h s) {s' : Server} (hq : s'.writerQueue = s.writerQueue)
    (hflag : ∀ j, (s'.players j).noSubmit = (s.players j).noSubmit)
    (hconn : ∀ j, s'.connected j = true → s.connected j = true) : Agrees h s' := by
  have hwait : waiting h s' = waiting h s := by rw [waiting, hq, waiting]
  refine ⟨ha.length.trans (by rw [hq]), ha.bans, fun j hj => ?_, fun w hw hb => ?_,
    fun w hw hn => ?_, ha.decided⟩
  · rw [hflag]
    exact ha.flag j (hconn j hj)
  · rw [hwait] at hw
    rw [hflag]
    exact ha.banned w hw hb
  · rw [hwait] at hw
    rw [hflag]
    exact ha.free w hw hn

theorem Agrees.connect (ha : Agrees h s) {id : ℕ} (hfree : (s.players id).noSubmit = false) :
    Agrees { h with conn := Function.update h.conn id (h.conn id + 1) }
      { s with connected := Function.update s.connected id true } := by
  refine ⟨ha.length, fun b hb => ?_, fun j hj => ?_, ha.banned, ha.free, ha.decided⟩
  · have hle := ha.bans b hb
    dsimp only
    rw [Function.update_apply]
    split_ifs with hbi
    · rw [hbi] at hle
      omega
    · exact hle
  · dsimp only at hj ⊢
    rcases eq_or_ne j id with rfl | hne
    · rw [Function.update_self, hfree]
      refine iff_of_false (by simp) fun hmem => ?_
      have hle := ha.bans _ hmem
      dsimp only at hle
      omega
    · rw [Function.update_of_ne hne]
      rw [Function.update_of_ne hne] at hj
      exact ha.flag j hj

theorem Agrees.putInServer (ha : Agrees h s) (dataDir : Bytes) {id : ℕ} {isBot : Bool}
    {authid name : Bytes} (hC : Settled (h, s) (.putInServer id isBot authid name)) :
    Agrees (tick dataDir h s (.putInServer id isBot authid name))
      (fnClientPutInServerPost id isBot authid name s) := by
  have hflag := noSubmit_putInServer s id isBot authid name
  rw [tick]
  by_cases hc : s.connected id = true
  · rw [if_pos hc]
    refine ha.players rfl hflag fun j hj => ?_
    rw [connected_putInServer] at hj
    split_ifs at hj with hji
    · rwa [hji]
    · exact hj
  · rw [if_neg hc]
    have hfree : (s.players id).noSubmit = false := hC (by simpa using hc)
    exact (ha.connect hfree).players rfl hflag fun _ hj => hj

/-- A player leaves: a flag that is cleared decides no run that waits. -/
theorem Agrees.dropClient (ha : Agrees h s) {id : ℕ} (hC : Settled (h, s) (.dropClient id)) :
    Agrees h (kzSvDropClient id s) := by
  have hq := writerQueue_dropClient s id
  have hflag := noSubmit_dropClient s id
  have hwait : waiting h (kzSvDropClient id s) = waiting h s := by rw [waiting, hq, waiting]
  refine ⟨ha.length.trans (by rw [hq]), ha.bans, fun j hj => ?_, fun w hw hb => ?_,
    fun w hw hn => ?_, ha.decided⟩
  · obtain ⟨hne, hj⟩ := connected_dropClient s id hj
    rcases hflag j with hf | ⟨hji, -⟩
    · rw [hf]
      exact ha.flag j hj
    · exact absurd hji hne
  · rw [hwait] at hw
    have hset := ha.banned w hw hb
    rcases hflag w.1 with hf | ⟨hwi, -, hk⟩
    · rw [hf]
      exact hset
    · rw [hwi] at hset
      rw [hC hset hk w hw hwi] at hb
      cases hb
  · rw [hwait] at hw
    rcases hflag w.1 with hf | ⟨-, hf, -⟩
    · rw [hf]
      exact ha.free w hw hn
    · exact hf

/-- **A ban.** -/
theorem Agrees.playerJoinAck (ha : Agrees h s) (dataDir : Bytes) {engine : Engine}
    {isBanned : BoolField}
    {steamid : Field} (hC : Settled (h, s) (.playerJoinAck engine isBanned steamid)) :
    Agrees (tick dataDir h s (.playerJoinAck engine isBanned steamid))
      (onPlayerJoinAck 3 engine isBanned steamid s) := by
  rw [tick, onPlayerJoinAck]
  rcases hb : bannedSlot 3 engine isBanned steamid with _ | id
  · exact ha
  · replace hC := hC id hb
    dsimp only
    have hflag := noSubmit_update s id { s.players id with noSubmit := true }
    have hold (w : ℕ × Mark) (hw : w ∈ waiting h s) (hid : w.1 = id) :
        (w.1, w.2.conn) ∈ h.bans ∨ s.connected id = true ∧ w.2.conn = h.conn id := by
      rw [hid]
      exact hC w hw hid
    have hbanned : ∀ w ∈ waiting h s, w.2.banned = true →
        ((s.update id { s.players id with noSubmit := true }).players w.1).noSubmit = true :=
          fun w hw hm => by
      rw [hflag]
      split_ifs
      · rfl
      · exact ha.banned w hw hm
    split_ifs with hc
    · refine ⟨ha.length, fun b hb => ?_, fun j hj => ?_, hbanned, fun w hw hn => ?_, fun o ho => ?_⟩
      · rcases List.mem_cons.mp hb with rfl | hb
        · exact le_rfl
        · exact ha.bans b hb
      · rw [hflag, List.mem_cons, Prod.mk.injEq]
        rcases eq_or_ne j id with rfl | hne
        · simp
        · rw [if_neg hne, ha.flag j hj]
          simp [hne]
      · rw [List.mem_cons, not_or] at hn
        rw [hflag, if_neg, ha.free w hw hn.2]
        intro hid
        rcases hold w hw hid with hmem | ⟨-, hmem⟩
        · exact hn.2 hmem
        · exact hn.1 (by rw [hmem, hid])
      · refine ⟨(ha.decided o ho).1, fun hn => (ha.decided o ho).2
          fun hmem => hn (List.mem_cons_of_mem _ hmem)⟩
    · refine ⟨ha.length, ha.bans, fun j hj => ?_, hbanned, fun w hw hn => ?_, ha.decided⟩
      · rw [hflag, if_neg]
        · exact ha.flag j hj
        · rintro rfl
          exact hc hj
      · rw [hflag, if_neg, ha.free w hw hn]
        intro hid
        rcases hold w hw hid with hmem | ⟨hmem, -⟩
        · exact hn hmem
        · exact hc hmem

theorem connected_of_pushed {id : ℕ} {allowPause : Bool} {n : Native} {signal : Signal}
    (hp : pushed id allowPause n s = some signal) (hs : submits signal = true) :
    s.connected id = true := by
  unfold pushed at hp
  split_ifs at hp with hvalid
  cases n with
  | paused =>
    unfold packet at hp
    dsimp only at hp
    split_ifs at hp
    obtain rfl := Option.some.inj hp
    cases hs
  | _ => exact (Bool.and_eq_true_iff.mp hvalid.1).1

theorem Agrees.native (ha : Agrees h s) (dataDir : Bytes) (id : ℕ) (allowPause : Bool)
    (n : Native) :
    Agrees (tick dataDir h s (.native id allowPause n)) (onNative id allowPause n s) := by
  rw [tick, onNative]
  rcases hp : pushed id allowPause n s with _ | signal
  · exact ha
  · have hnew (w : ℕ × Mark) (hw : w ∈ waiting h s ++ if submits signal then
        [(id, (⟨h.conn id, (id, h.conn id) ∈ h.bans⟩ : Mark))] else []) :
        w ∈ waiting h s ∨
          s.connected id = true ∧ w = (id, ⟨h.conn id, (id, h.conn id) ∈ h.bans⟩) := by
      refine (List.mem_append.mp hw).imp_right fun hw => ?_
      split_ifs at hw with hs
      · exact ⟨connected_of_pushed hp hs, List.mem_singleton.mp hw⟩
      · cases hw
    refine ⟨by simp [ha.length], ha.bans, ha.flag, fun w hw hb => ?_, fun w hw hn => ?_, ha.decided⟩
    · rw [waiting_append ha.length] at hw
      rcases hnew w hw with hw | ⟨hc, rfl⟩
      · exact ha.banned w hw hb
      · exact (ha.flag id hc).mpr (of_decide_eq_true hb)
    · rw [waiting_append ha.length] at hw
      rcases hnew w hw with hw | ⟨hc, rfl⟩
      · exact ha.free w hw hn
      · simpa using mt (ha.flag id hc).mp hn

/-- **The writer takes a signal**, and the flag decides as it did when the run was finished. -/
theorem Agrees.process (ha : Agrees h s) (dataDir : Bytes) (env : Env) :
    Agrees (tick dataDir h s (.process env)) (onProcess dataDir env s) := by
  rcases hq : s.writerQueue with _ | ⟨⟨id, signal⟩, q⟩
  · have hp : Slots.process dataDir env s = none := by rw [Slots.process, hq]
    rw [tick, onProcess, hp]
    exact ha
  · obtain ⟨m, ms, hm⟩ : ∃ m ms, h.marks = m :: ms := by
      refine List.exists_cons_of_ne_nil fun h0 => ?_
      have := ha.length
      rw [h0, hq] at this
      cases this
    let i : Input := ⟨signal, { env with noSubmit := (s.players id).noSubmit }⟩
    let r := step dataDir ⟨s.entries id, s.disk⟩ i
    have hp : Slots.process dataDir env s = some (id, signal, r) := by rw [Slots.process, hq]
    have hw := waiting_cons hq hm
    have hrest (w : ℕ × Mark)
        (hmem : w ∈ waiting { h with marks := ms } { s with writerQueue := q }) :
        w ∈ waiting h s := by
      rw [hw]
      exact List.mem_append_right _ hmem
    rw [tick, onProcess, hp, hm, hq]
    dsimp only
    refine ⟨?_, ha.bans, ha.flag, fun w hw => ha.banned w (hrest w hw),
      fun w hw => ha.free w (hrest w hw), ?_⟩
    · have := ha.length
      rw [hm, hq] at this
      simpa using this
    · intro o ho
      dsimp only at ho
      split_ifs at ho with hs
      · rcases List.mem_append.mp ho with ho | ho
        · exact ha.decided o ho
        · rw [List.mem_singleton.mp ho]
          have hmem : (id, m) ∈ waiting h s := by
            rw [hw, if_pos hs]
            exact List.mem_append_left _ (List.mem_singleton_self _)
          obtain ⟨hyes, hno⟩ := step_decided dataDir ⟨s.entries id, s.disk⟩ (i := i) hs
          exact ⟨fun hb => hyes (ha.banned _ hmem hb), fun hn => hno (ha.free _ hmem hn)⟩
      · exact ha.decided o ho

/-- **A step.** -/
theorem agrees_next (ha : Agrees h s) (dataDir : Bytes) {e : Event} (hC : Settled (h, s) e) :
    Agrees (tick dataDir h s e) (Slots.next dataDir 3 s e) := by
  cases e with
  | putInServer id isBot authid name => exact ha.putInServer dataDir hC
  | dropClient id => exact ha.dropClient hC
  | playerJoinAck engine isBanned steamid => exact ha.playerJoinAck dataDir hC
  | native id allowPause n => exact ha.native dataDir id allowPause n
  | earlyMapchange => exact ⟨ha.length, ha.bans, ha.flag, ha.banned, ha.free, ha.decided⟩
  | mapLoaded => exact ⟨ha.length, ha.bans, ha.flag, ha.banned, ha.free, ha.decided⟩
  | process env => exact ha.process dataDir env
  | files disk => exact ⟨ha.length, ha.bans, ha.flag, ha.banned, ha.free, ha.decided⟩

end Steps

/-- **Ban status decides submission** in every run whose steps meet the condition, whatever the
order in which players join and leave, bans arrive, runs are finished, maps change and the writer
gets to the signals. -/
theorem ban_decides (dataDir : Bytes) (disk : Disk Bytes UInt8) {es : List Event}
    (hC : Along (track dataDir) Settled (.init, .init disk) es) :
    Decided (run (track dataDir) (.init, .init disk) es).1 :=
  (Along.run (P := fun hs : History × Server => Agrees hs.1 hs.2)
    (fun _ _ ha hC => agrees_next ha dataDir hC) hC (Agrees.init disk)).decided

/-! ### Samples -/

/-- The player that is banned. -/
def sampleAuthid : Bytes := str "STEAM_0:1:23"

/-- The engine with one player. -/
def sampleEngine : Engine := ⟨32, fun id => if id = 1 then some sampleAuthid else none⟩

/-- He joins. -/
def sampleJoin : Event := .putInServer 1 false sampleAuthid (str "kz")

/-- The answer that he is banned. -/
def sampleBan : Event := .playerJoinAck sampleEngine (.bool true) (.text sampleAuthid)

/-- A run, up to the queue. -/
def sampleFinished : List Event :=
  [.native 1 false (.started 36), .native 1 false (.frame (sampleFrame 1)),
    .native 1 false (.finished 12345 true 0)]

/-- The writer takes three items. -/
def sampleProcess : List Event := [.process sampleEnv, .process sampleEnv, .process sampleEnv]

/-- What the events have left in the history. -/
def sampleTrack (es : List Event) : History :=
  (run (track (str "d")) (.init, .init fun _ => none) es).1

/-- He joins, is banned, finishes, and the writer gets to it. -/
def sampleBanned : List Event := sampleJoin :: sampleBan :: sampleFinished ++ sampleProcess

theorem ban_decides_sample : (sampleTrack sampleBanned).outcomes = [⟨1, ⟨1, true⟩, true, false⟩] ∧
    Decided (sampleTrack sampleBanned) := by
  refine ⟨by decide +kernel, ban_decides (str "d") _ ?_⟩
  refine ⟨fun _ => rfl, fun _ _ w hw => ?_, trivial, trivial, trivial, trivial, trivial,
    trivial, trivial⟩
  cases hw

/-- A banned player leaves before the writer gets to the finished run. -/
def sampleCleared : List Event :=
  sampleJoin :: sampleBan :: sampleFinished ++ .dropClient 1 :: sampleProcess

/-- A banned player leaves during an early map change, and the next one in the slot is not
banned. -/
def sampleInherited : List Event :=
  [sampleJoin, sampleBan, .earlyMapchange, .dropClient 1, .mapLoaded, sampleJoin] ++
    sampleFinished ++ sampleProcess

/-- A player leaves, and the next one in the slot is banned before the writer gets to the finished
run. -/
def sampleReplaced : List Event :=
  sampleJoin :: sampleFinished ++ [.dropClient 1, sampleJoin, sampleBan] ++ sampleProcess

theorem ban_undecided :
    ¬ Decided (sampleTrack sampleCleared) ∧ ¬ Decided (sampleTrack sampleInherited) ∧
    ¬ Decided (sampleTrack sampleReplaced) := by
  have hcleared : (sampleTrack sampleCleared).outcomes = [⟨1, ⟨1, true⟩, true, true⟩] := by
    decide +kernel
  have hinherited : (sampleTrack sampleInherited).outcomes = [⟨1, ⟨2, false⟩, true, false⟩] ∧
      (sampleTrack sampleInherited).bans = [(1, 1)] := by decide +kernel
  have hreplaced : (sampleTrack sampleReplaced).outcomes = [⟨1, ⟨1, false⟩, true, false⟩] ∧
      (sampleTrack sampleReplaced).bans = [(1, 2)] := by decide +kernel
  refine ⟨fun hd => ?_, fun hd => ?_, fun hd => ?_⟩
  · have := (hd ⟨1, ⟨1, true⟩, true, true⟩ (by rw [hcleared]; exact List.mem_singleton_self _)).1
      rfl
    cases this
  · have := (hd ⟨1, ⟨2, false⟩, true, false⟩
      (by rw [hinherited.1]; exact List.mem_singleton_self _)).2
      (by rw [hinherited.2]; decide) rfl
    cases this
  · have := (hd ⟨1, ⟨1, false⟩, true, false⟩
      (by rw [hreplaced.1]; exact List.mem_singleton_self _)).2
      (by rw [hreplaced.2]; decide) rfl
    cases this

end KzGlobal.Players.Bans
