import KzGlobal.Lib.Loop
import KzGlobal.Playback.Announce
import KzGlobal.Playback.Deleted

/-! # The cursor of the bot

`kz_bot_think` and `kz_pb_addtofullpack` read the frames at `frame_counter` and behind it, without a
check of the index. Here they are computations that stop with an index that is not one of the
frames, and the callbacks of the playback come in any order. A replay is played only with two frames
or more, `frame_counter` is before the last frame whatever the speed, and where the map change
empties the frames they are not read (`OnFrames`): no run stops (`cursor_on_frames`). -/

namespace KzGlobal.Playback.Cursor

open KzGlobal.Lib.Loop KzGlobal.Lib.Stdio KzGlobal.Lib.PosixPath KzGlobal.Krp.Format
open KzGlobal.Playback.Threads KzGlobal.Playback.Announce KzGlobal.Playback.Deleted

/-! ### Reading frames -/

/-- `frames[index]`. The fault is an index that is not one of the frames. -/
def frameAt (frames : List KrpFrame) (index : ℤ) : Except ℤ KrpFrame :=
  if index < 0 then .error index
  else
    match frames[index.toNat]? with
    | some f => .ok f
    | none => .error index

theorem frameAt_eq_ok {frames : List KrpFrame} {index : ℤ} (h0 : 0 ≤ index)
    (h : index < frames.length) : ∃ f, frameAt frames index = .ok f := by
  have hlt : index.toNat < frames.length := by omega
  refine ⟨frames[index.toNat], ?_⟩
  rw [frameAt, if_neg (not_lt.mpr h0), List.getElem?_eq_getElem hlt]

/-- The frames that `kz_bot_think` reads. -/
def framesOfThink (pb : KrpPlayback) : Except ℤ (List KrpFrame) :=
  if pb.frames.length < 2 then .ok []
  else do
    let index := pb.frameCounter
    let nextIndex := if index + 1 < pb.frames.length then index + 1 else index
    let frame ← frameAt pb.frames index
    let nextFrame ← frameAt pb.frames nextIndex
    pure [frame, nextFrame]

/-- The frame that `kz_pb_addtofullpack` reads, for the entity of the bot and another host. -/
def kzPbAddtofullpack (player : Bool) (ent host : ℕ) (s : Pb) : Except ℤ (Option KrpFrame) :=
  if ¬ player ∨ s.botId = 0 then .ok none
  else if s.botId ≠ ent ∨ s.botId = host then .ok none
  else
    match s.botData with
    | none => .ok none
    | some pb =>
      if pb.frames = [] then .ok none
      else do
        let frame ← frameAt pb.frames pb.frameCounter
        pure (some frame)

/-! ### The machine -/

/-- `kz_pb_think` of the entity that makes the bot think, which ends where no bot is in its slot any
more. -/
def kzPbThink (fwd : ForwardIds) (isBot : Bool) (s : Pb) : Except ℤ Pb :=
  if s.botId = 0 then .ok s
  else if ¬ isBot then .ok { s with botId := 0 }
  else
    match s.botData with
    | none => .ok s
    | some pb => do
      let _ ← framesOfThink pb
      pure { s with botData := some (kzBotThink fwd pb).1 }

/-- The steps of the threads, and the callbacks of the engine for the bot. -/
inductive Event
  | threads (e : Threads.Event)
  | think (fwd : ForwardIds) (isBot : Bool)
  | addtofullpack (player : Bool) (ent host : ℕ)
  | stopIfPlaying (path : Path)

section Machine
variable (dataDir : Bytes) (unzstd : Bytes → Option Bytes)

/-- The main thread is called for something else only when it is done with what it did. -/
def next (s : Pb) : Event → Except ℤ Pb
  | .threads e => .ok (Threads.next dataDir unzstd s e)
  | .think fwd isBot => if s.main = .idle then kzPbThink fwd isBot s else .ok s
  | .addtofullpack player ent host =>
    if s.main = .idle then do
      let _ ← kzPbAddtofullpack player ent host s
      pure s
    else .ok s
  | .stopIfPlaying path => .ok (Threads.begin (kzPbStopIfPlaying path) s)

end Machine

/-! ### The invariant -/

/-- **The cursor is on the frames.** -/
structure OnFrames (pb : KrpPlayback) : Prop where
  two_le : 2 ≤ pb.frames.length
  finish : pb.finishFrame = pb.frames.length - 1
  nonneg : 0 ≤ pb.frameCounter
  lt_finish : pb.frameCounter < pb.finishFrame

/-- What the parser thread has in hand. -/
def playback : Parser → Option KrpPlayback
  | .parsed pb => some pb
  | .present pb => some pb
  | _ => none

/-- The frames of what is played are empty or the cursor is on them, and what was parsed has two
frames or more. -/
structure Inv (s : Pb) : Prop where
  botData : ∀ pb, s.botData = some pb → pb.frames = [] ∨ OnFrames pb
  data : ∀ pb ∈ s.data, 2 ≤ pb.frames.length
  parser : ∀ pb, playback s.parser = some pb → 2 ≤ pb.frames.length

theorem inv_init (disk : Disk Path UInt8) (mapname : Bytes) : Inv (.init disk mapname) :=
  ⟨nofun, nofun, nofun⟩

theorem OnFrames.load {pb : KrpPlayback} (h : 2 ≤ pb.frames.length) : OnFrames pb.load where
  two_le := h
  finish := rfl
  nonneg := le_rfl
  lt_finish := by
    change (0 : ℤ) < pb.frames.length - 1
    omega

/-- **A think** keeps the cursor on the frames, at either speed. -/
theorem OnFrames.think {pb : KrpPlayback} (h : OnFrames pb) (fwd : ForwardIds) :
    OnFrames (kzBotThink fwd pb).1 := by
  have hlen := h.two_le
  have hfin := h.finish
  have h0 := h.nonneg
  have hlt := h.lt_finish
  have hstep := step_pos pb
  rw [kzBotThink, if_neg (by omega)]
  refine ⟨hlen, hfin, ?_, ?_⟩
  · change 0 ≤ nextFrame pb
    unfold nextFrame
    split_ifs <;> omega
  · change nextFrame pb < pb.finishFrame
    unfold nextFrame
    split_ifs <;> omega

theorem OnFrames.succ_lt {pb : KrpPlayback} (h : OnFrames pb) :
    pb.frameCounter + 1 < pb.frames.length := by
  have hfin := h.finish
  have hlt := h.lt_finish
  omega

theorem OnFrames.frameAt {pb : KrpPlayback} (h : OnFrames pb) :
    ∃ f, frameAt pb.frames pb.frameCounter = .ok f := by
  have hlt := h.succ_lt
  exact frameAt_eq_ok h.nonneg (by omega)

theorem OnFrames.framesOfThink {pb : KrpPlayback} (h : OnFrames pb) :
    ∃ frames, framesOfThink pb = .ok frames := by
  have hlen := h.two_le
  have h0 := h.nonneg
  have hnext0 : 0 ≤ pb.frameCounter + 1 := by omega
  obtain ⟨frame, hframe⟩ := h.frameAt
  obtain ⟨next, hnext⟩ := frameAt_eq_ok hnext0 h.succ_lt
  refine ⟨[frame, next], ?_⟩
  rw [Cursor.framesOfThink, if_neg (by omega)]
  simp only [if_pos h.succ_lt, hframe, hnext, ok_bind, pure_eq_ok]

/-! ### Steps -/

section Steps
variable {s s' : Pb}

theorem Inv.mono (h : Inv s) (hbot : s'.botData = s.botData ∨ s'.botData = none)
    (hdata : ∀ pb ∈ s'.data, pb ∈ s.data)
    (hparser : playback s'.parser = playback s.parser ∨ playback s'.parser = none) : Inv s' where
  botData pb hpb := by
    rcases hbot with heq | heq
    · exact h.botData pb (heq ▸ hpb)
    · rw [heq] at hpb
      exact nomatch hpb
  data pb hpb := h.data pb (hdata pb hpb)
  parser pb hpb := by
    rcases hparser with heq | heq
    · exact h.parser pb (heq ▸ hpb)
    · rw [heq] at hpb
      exact nomatch hpb

theorem inv_begin {f : Pb → Pb} (h : Inv s) (hf : Inv (f s)) : Inv (Threads.begin f s) := by
  unfold Threads.begin
  split_ifs
  · exact hf
  · exact h

/-- **A replay is parsed** only with two frames or more. -/
theorem two_le_of_parseFile {unzstd : Bytes → Option Bytes} {file : Path} {src : Bytes}
    {pb : KrpPlayback} (h : parseFile unzstd file src = some pb) : 2 ≤ pb.frames.length := by
  unfold parseFile at h
  dsimp only at h
  split_ifs at h with hfile hname hnumber hframes
  obtain rfl := Option.some.inj h
  exact hframes

theorem inv_readFront (unzstd : Bytes → Option Bytes) (fails : Bool) (h : Inv s) :
    Inv (readFront unzstd fails s) := by
  unfold readFront
  split
  · dsimp only
    split
    · rename_i file _ _ _ pb hpb
      obtain ⟨src, -, hsrc⟩ := Option.bind_eq_some_iff.mp hpb
      refine ⟨h.botData, h.data, fun pb' hpb' => ?_⟩
      obtain rfl := Option.some.inj hpb'
      exact two_le_of_parseFile hsrc
    · exact h.mono (Or.inl rfl) (fun _ => id) (Or.inr rfl)
  · exact h

theorem inv_checkExists (env : Env) (h : Inv s) : Inv (checkExists env s) := by
  unfold checkExists
  split
  · rename_i pb hpb
    split_ifs
    · exact h.mono (Or.inl rfl) (fun _ => id) (Or.inr rfl)
    · exact h.mono (Or.inl rfl) (fun _ => id) (Or.inl (by rw [hpb]; rfl))
  · exact h

theorem inv_pushParsed (h : Inv s) : Inv (pushParsed s) := by
  unfold pushParsed
  split
  · rename_i pb hpb
    split_ifs
    · exact h
    · refine ⟨h.botData, fun pb' hpb' => ?_, nofun⟩
      rcases List.mem_append.mp hpb' with hpb' | hpb'
      · exact h.data pb' hpb'
      · rw [List.mem_singleton.mp hpb']
        exact h.parser pb (by rw [hpb]; rfl)
  · exact h

theorem inv_popFront (h : Inv s) : Inv (popFront s) := by
  unfold popFront
  split
  · exact h.mono (Or.inl rfl) (fun _ => id) (Or.inr rfl)
  · exact h

theorem inv_kzPbStopIfPlaying (path : Path) (h : Inv s) : Inv (kzPbStopIfPlaying path s) := by
  unfold kzPbStopIfPlaying
  split_ifs
  · exact h.mono (Or.inr rfl) (fun _ => id) (Or.inl rfl)
  · exact h

theorem inv_kzPbFrame (dataDir : Bytes) (env : Env) (h : Inv s) :
    Inv (kzPbFrame dataDir env s) := by
  obtain ⟨m, hidle | hnone | ⟨q, hparse⟩⟩ := kzPbFrame_cases dataDir env s
  · rw [hidle]
    exact h.mono (Or.inl rfl) (fun _ => id) (Or.inl rfl)
  · rw [hnone]
    exact h.mono (Or.inr rfl) (fun _ => id) (Or.inl rfl)
  · rw [hparse]
    exact h.mono (Or.inl rfl) (fun _ => id) (Or.inl rfl)

/-- **Loading** puts the cursor on the first frame. -/
theorem inv_scanNext (env : Env) (h : Inv s) : Inv (scanNext env s) := by
  unfold scanNext
  split
  · exact h.mono (Or.inl rfl) (fun _ => id) (Or.inl rfl)
  · rename_i entry hlast
    split_ifs
    · exact h.mono (Or.inl rfl) (fun _ hpb => List.dropLast_subset _ hpb) (Or.inl rfl)
    all_goals
      refine ⟨fun pb hpb => ?_, nofun, h.parser⟩
      obtain rfl := Option.some.inj hpb
      exact Or.inr (OnFrames.load (h.data entry (List.mem_of_getLast? hlast)))

theorem inv_proceed (dataDir : Bytes) (env : Env) (h : Inv s) : Inv (proceed dataDir env s) := by
  unfold proceed
  split
  · exact h
  · exact h.mono (Or.inl rfl) (fun _ hpb => List.mem_of_mem_filter hpb) (Or.inl rfl)
  · exact (inv_kzPbStopIfPlaying _ h).mono (Or.inl rfl) (fun _ => id) (Or.inl rfl)
  · rename_i mapname _
    obtain ⟨q, hq⟩ := kzPbReloadSrBot_eq dataDir env mapname s
    rw [hq]
    exact h.mono (Or.inl rfl) (fun _ => id) (Or.inl rfl)
  · exact h.mono (Or.inl rfl) (fun _ => id) (Or.inl rfl)
  · exact inv_scanNext env h

/-- **The map change** empties the frames, and the cursor stays where it is. -/
theorem inv_kzPbServerDeactivatePost (h : Inv s) : Inv (kzPbServerDeactivatePost s) := by
  refine ⟨fun pb hpb => ?_, nofun, h.parser⟩
  obtain ⟨pb', -, rfl⟩ := Option.map_eq_some_iff.mp hpb
  exact Or.inl rfl

theorem inv_setSpeed (double : Bool) (h : Inv s) : Inv (setSpeed double s) := by
  refine ⟨fun pb hpb => ?_, h.data, h.parser⟩
  obtain ⟨pb', hpb', rfl⟩ := Option.map_eq_some_iff.mp hpb
  rcases h.botData pb' hpb' with hnil | hon
  · exact Or.inl hnil
  · exact Or.inr ⟨hon.two_le, hon.finish, hon.nonneg, hon.lt_finish⟩

/-- **A step of the threads.** -/
theorem inv_threads (dataDir : Bytes) (unzstd : Bytes → Option Bytes) (e : Threads.Event)
    (h : Inv s) : Inv (Threads.next dataDir unzstd s e) := by
  have hsame {s' : Pb} (hbot : s'.botData = s.botData) (hdata : s'.data = s.data)
      (hparser : s'.parser = s.parser) : Inv s' :=
    h.mono (Or.inl hbot) (fun _ hpb => hdata ▸ hpb) (Or.inl (by rw [hparser]))
  cases e with
  | read fails => exact inv_readFront unzstd fails h
  | check env => exact inv_checkExists env h
  | push => exact inv_pushParsed h
  | pop => exact inv_popFront h
  | deleteRecord mapname uid removed =>
    refine inv_begin h ?_
    unfold kzWsDeleteRecordReplay
    split_ifs
    · exact h
    all_goals exact hsame rfl rfl rfl
  | frame env => exact inv_begin h (inv_kzPbFrame dataDir env h)
  | proceed env => exact inv_proceed dataDir env h
  | deactivate => exact inv_begin h (inv_kzPbServerDeactivatePost h)
  | loadMap mapname =>
    exact inv_begin (f := fun s => { s with mapname := mapname }) h (hsame rfl rfl rfl)
  | parseFile env file =>
    refine inv_begin h ?_
    obtain ⟨q, hq⟩ := kzPbParseFileAsync_eq env file s
    rw [hq]
    exact hsame rfl rfl rfl
  | speed double => exact inv_begin h (inv_setSpeed double h)
  | write file b => exact hsame rfl rfl rfl
  | remove file => exact hsame rfl rfl rfl

/-- **The bot thinks** and no read is outside the frames. -/
theorem sat_kzPbThink (fwd : ForwardIds) (isBot : Bool) (h : Inv s) :
    Sat (kzPbThink fwd isBot s) Inv fun _ => False := by
  unfold kzPbThink
  by_cases hid : s.botId = 0
  · rw [if_pos hid]
    exact sat_ok.mpr h
  rw [if_neg hid]
  by_cases hbot : isBot = true
  · rw [if_neg (not_not_intro hbot)]
    cases hdata : s.botData with
    | none => exact sat_ok.mpr h
    | some pb =>
      dsimp only
      rcases h.botData pb hdata with hnil | hon
      · have hlen : pb.frames.length < 2 := by
          rw [hnil, List.length_nil]
          omega
        have hthink : (kzBotThink fwd pb).1 = pb := by rw [kzBotThink, if_pos hlen]
        rw [framesOfThink, if_pos hlen, ok_bind, hthink, ← hdata]
        exact sat_ok.mpr h
      · obtain ⟨frames, hframes⟩ := hon.framesOfThink
        rw [hframes, ok_bind]
        refine sat_ok.mpr ⟨fun pb' hpb' => ?_, h.data, h.parser⟩
        obtain rfl := Option.some.inj hpb'
        exact Or.inr (hon.think fwd)
  · rw [if_pos hbot]
    exact sat_ok.mpr (h.mono (Or.inl rfl) (fun _ => id) (Or.inl rfl))

theorem kzPbAddtofullpack_eq_ok (player : Bool) (ent host : ℕ) (h : Inv s) :
    ∃ frame, kzPbAddtofullpack player ent host s = .ok frame := by
  unfold kzPbAddtofullpack
  split_ifs
  · exact ⟨none, rfl⟩
  · exact ⟨none, rfl⟩
  · cases hbot : s.botData with
    | none => exact ⟨none, rfl⟩
    | some pb =>
      dsimp only
      split_ifs with hnil
      · exact ⟨none, rfl⟩
      · have hon := (h.botData pb hbot).resolve_left hnil
        obtain ⟨frame, hframe⟩ := hon.frameAt
        exact ⟨some frame, by rw [hframe]; rfl⟩

/-- **One step** reads no frame outside. -/
theorem sat_next (dataDir : Bytes) (unzstd : Bytes → Option Bytes) (s : Pb) (e : Event)
    (h : Inv s) : Sat (next dataDir unzstd s e) Inv fun _ => False := by
  cases e with
  | threads e => exact sat_ok.mpr (inv_threads dataDir unzstd e h)
  | think fwd isBot => exact sat_ite (fun _ => sat_kzPbThink fwd isBot h) fun _ => sat_ok.mpr h
  | addtofullpack player ent host =>
    refine sat_ite (fun _ => ?_) fun _ => sat_ok.mpr h
    obtain ⟨frame, hframe⟩ := kzPbAddtofullpack_eq_ok player ent host h
    rw [hframe, ok_bind]
    exact sat_ok.mpr h
  | stopIfPlaying path => exact sat_ok.mpr (inv_begin h (inv_kzPbStopIfPlaying path h))

end Steps

/-- **The cursor never leaves the frames.** No read of a run is outside the frames, and in the state
after it `finish_frame` is the number of frames minus one where there are frames. -/
theorem cursor_on_frames (dataDir : Bytes) (unzstd : Bytes → Option Bytes)
    (disk : Disk Path UInt8) (mapname : Bytes) (es : List Event) :
    ∃ s, es.foldlM (next dataDir unzstd) (Pb.init disk mapname) = .ok s ∧
      ∀ pb, s.botData = some pb → pb.frames ≠ [] → pb.finishFrame = pb.frames.length - 1 := by
  obtain ⟨s, hrun, hinv⟩ :=
    (sat_foldlM_forall (sat_next dataDir unzstd) es (inv_init disk mapname)).exists_ok
  refine ⟨s, hrun, fun pb hpb hne => ?_⟩
  exact ((hinv.botData pb hpb).resolve_left hne).finish

end KzGlobal.Playback.Cursor
