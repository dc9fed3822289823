import KzGlobal.Replay.Counts

/-! # What is left of a rejected run

A REJECT with deletion deletes the file of the run that is being recorded. It finds the run through
the open file, so the `.tmp` of a paused run stays, and an UNPAUSE takes it up again
(`rejected_finished`). A later FINISH saves only frames signalled after the REJECT exactly when no
other `.tmp` of the player holds a frame (`rejected_forgotten_iff`). -/

namespace KzGlobal.Replay.Rejected

open KzGlobal.Lib KzGlobal.Lib.Stdio KzGlobal.Lib.Runs
open KzGlobal.Krp.Format KzGlobal.Krp.Records KzGlobal.Krp.Walk
open KzGlobal.Replay.Text KzGlobal.Replay.Writer KzGlobal.Replay.Frames
open KzGlobal.Replay.Headers KzGlobal.Replay.Effect KzGlobal.Replay.Laws KzGlobal.Replay.Capture

/-! ### Frames -/

/-- The frames among the entries. -/
def framesIn (es : List Entry) : List KrpFrame :=
  es.filterMap fun e => match e with
    | .frame f => some f
    | .event _ => none

/-- The frames that records play back. -/
def playedFrames (rs : List Record) : List KrpFrame := framesIn (played rs)

/-- The frames signalled by a list of inputs. -/
def signalledFrames (is : List Input) : List KrpFrame :=
  is.flatMap fun i => framesIn (signalled i.signal)

theorem playedFrames_event (rs : List Record) (id : UInt8) :
    playedFrames (rs ++ [.event id]) = playedFrames rs := by
  rw [playedFrames, played_event, framesIn, List.filterMap_append]
  exact List.append_nil _

theorem playedFrames_frame (rs : List Record) {r : FrameRecord} {f : KrpFrame}
    (h : Shows (applyFrame (shown rs) r) f) :
    playedFrames (rs ++ [.frame r]) = playedFrames rs ++ [f] := by
  rw [playedFrames, played_frame rs h, framesIn, List.filterMap_append]
  rfl

theorem length_framesIn_playback : ∀ (rs : List Record) (b : ℕ → UInt8) (t : ℕ),
    (framesIn ((playback b t rs).map payload)).length = (frames rs).length
  | [], _, _ => rfl
  | .event _ :: rs, b, t => length_framesIn_playback rs b (t + 1)
  | .frame r :: rs, b, t =>
    congrArg Nat.succ (length_framesIn_playback rs (applyFrame b r) (t + 1))

theorem playedFrames_eq_nil {rs : List Record} : playedFrames rs = [] ↔ frames rs = [] := by
  rw [← List.length_eq_zero_iff, ← List.length_eq_zero_iff, playedFrames, played,
    length_framesIn_playback]

/-! ### The signals of a player -/

/-- A signal that carries the player's id, if it carries one. -/
def OfPlayer (steamidShort : CString 35) (i : Input) : Prop :=
  match i.signal with
  | .start _ sid _ | .unpause sid | .finish _ _ _ sid _ => sid = steamidShort
  | _ => True

/-- The paths that the player's START and UNPAUSE may open. -/
def playerPaths (dataDir : Bytes) (steamidShort : CString 35) : Set Bytes :=
  {p | ∃ env, Accepted env steamidShort ∧ p = openPath dataDir env steamidShort}

theorem OfPlayer.domain {dataDir : Bytes} {steamidShort sid : CString 35} {i : Input}
    (h : OfPlayer steamidShort i)
    (hs : (∃ ts nick, i.signal = .start ts sid nick) ∨ i.signal = .unpause sid)
    (ha : Accepted i.env sid) : openPath dataDir i.env sid ∈ playerPaths dataDir steamidShort := by
  rcases hs with ⟨ts, nick, hs⟩ | hs
  · simp only [OfPlayer, hs] at h
    exact ⟨i.env, h ▸ ha, by rw [h]⟩
  · simp only [OfPlayer, hs] at h
    exact ⟨i.env, h ▸ ha, by rw [h]⟩

/-! ### Laws -/

/-- Captures name a map that a FINISH accepts. -/
def Named (h : KrpHeader) (_ : List Record) : Prop := kzWsValidReplaySegment (fileName h) = true

/-- The law of the map's name in a header, of an open file and of a closed one. -/
def nameLaw : Law Unit where
  tick _ _ _ := ()
  closed _ := Named
  opened _ _ := Named

theorem nameLaw_lawful (dataDir : Bytes) (steamidShort : CString 35) :
    nameLaw.Lawful dataDir (playerPaths dataDir steamidShort) fun _ i =>
    OfPlayer steamidShort i where
  keep _ _ _ hc := hc
  idle _ _ _ _ ho := ho
  domain hC hs ha := hC.domain hs ha
  start _ _ ha := by
    change kzWsValidReplaySegment (fileName _) = true
    rw [fileName_startHeader]
    exact ha.2
  unpause _ _ _ hc := hc
  event _ _ _ ho := ho
  frame _ _ _ ho := ho
  pause _ _ _ ho := by
    change kzWsValidReplaySegment (fileName _) = true
    rw [fileName_runHeader]
    exact ho
  abandon _ _ _ ho := ho
  finish _ _ _ ho := by
    change kzWsValidReplaySegment (fileName _) = true
    rw [fileName_finishHeader]
    exact ho

/-- Captures play frames that were signalled since. -/
def sinceLaw : Law (List KrpFrame) where
  tick g _ i := g ++ framesIn (signalled i.signal)
  closed g _ rs := (playedFrames rs).Sublist g
  opened g r _ rs := (playedFrames rs).Sublist g ∧ Follows r rs

theorem run_sinceLaw (dataDir : Bytes) (is : List Input) (g : List KrpFrame) (s : Slot) :
    (Runs.run (withGhost (next dataDir) sinceLaw.tick) (g, s) is).1 = g ++ signalledFrames is := by
  induction is generalizing g s with
  | nil => exact (List.append_nil g).symm
  | cons i is ih =>
    rw [run_cons, signalledFrames, List.flatMap_cons, ← List.append_assoc]
    exact ih _ _

theorem sinceLaw_lawful (dataDir : Bytes) (steamidShort : CString 35) :
    sinceLaw.Lawful dataDir (playerPaths dataDir steamidShort) fun _ i =>
    OfPlayer steamidShort i where
  keep _ _ _ hc := hc.trans (List.sublist_append_left ..)
  idle _ _ _ _ ho := ⟨ho.1.trans (List.sublist_append_left ..), ho.2⟩
  domain hC hs ha := hC.domain hs ha
  start _ _ _ := ⟨List.nil_sublist _, fun h0 => absurd rfl h0⟩
  unpause _ _ _ hc := ⟨hc, fun h0 => absurd rfl h0⟩
  event {g s i id h rs} _ hs _ ho := by
    refine ⟨?_, ho.2.event (by rw [countEvent_eq]; rfl) (by rw [countEvent_eq]; rfl) id⟩
    rw [playedFrames_event]
    exact ho.1.trans (List.sublist_append_left ..)
  frame {g s i f h rs} _ hs _ ho := by
    obtain ⟨hg, hf⟩ := ho
    refine ⟨?_, hf.frame f⟩
    rw [playedFrames_frame rs (hf.shows f)]
    change (playedFrames rs ++ [f]).Sublist (g ++ framesIn (signalled i.signal))
    rw [hs]
    exact hg.append (List.Sublist.refl _)
  pause _ _ _ ho := ho.1.trans (List.sublist_append_left ..)
  abandon _ _ _ ho := ho.1.trans (List.sublist_append_left ..)
  finish _ _ _ ho := ho.1.trans (List.sublist_append_left ..)

/-! ### After a REJECT -/

section Reject
variable {dataDir : Bytes} {steamidShort : CString 35} {s : Slot} {reject : Input}

/-- No `.tmp` of the player other than that of the open file holds a frame. -/
def NoneLeft (dataDir : Bytes) (steamidShort : CString 35) (s : Slot) : Prop :=
  ∀ p ∈ playerPaths dataDir steamidShort, (s.fd.isSome = true → p ≠ s.filepath) →
    ∀ h rs, s.disk p = some (krprOf h rs) → frames rs = []

/-- Whatever the player's signals do from here on, a FINISH saves only frames signalled from here
on. -/
def Forgotten (dataDir : Bytes) (steamidShort : CString 35) (s : Slot) : Prop :=
  ∀ (is : List Input) (finish : Input) (uid path : Bytes),
    (∀ i ∈ is, OfPlayer steamidShort i) → OfPlayer steamidShort finish →
    .saved uid path ∈ (step dataDir (run (next dataDir) s is) finish).2 →
    ∃ h rs, (next dataDir (run (next dataDir) s is) finish).disk path = some (krprOf h rs) ∧
      (playedFrames rs).Sublist (signalledFrames is)

theorem next_reject (hs : reject.signal = .reject true) : next dataDir s reject =
    { s with
      fd := none
      disk := if s.fd.isSome = true then s.disk.unlink s.filepath else s.disk
      checkpoints := 0
      gochecks := 0 } := by
  unfold next step
  simp only [hs, onReject_eq, and_true]

theorem disk_reject (dataDir : Bytes) (hs : reject.signal = .reject true) {p : Bytes}
    (hp : s.fd.isSome = true → p ≠ s.filepath) : (next dataDir s reject).disk p = s.disk p := by
  rw [next_reject hs]
  dsimp only
  split_ifs with hfd
  · exact Disk.unlink_of_ne _ (hp hfd)
  · rfl

/-- Where no frame is left behind, later files hold later frames alone. -/
theorem forgotten_of_files (hfd : s.fd = none)
    (hf : Files (playerPaths dataDir steamidShort) (fun _ rs => frames rs = []) s.disk) :
    Forgotten dataDir steamidShort s := by
  intro is finish uid path his _ hsaved
  have hI : sinceLaw.Holds (playerPaths dataDir steamidShort) [] s :=
    .closed hfd (hf.imp fun _ _ _ rs h0 => by
      change (playedFrames rs).Sublist []
      rw [playedFrames_eq_nil.mpr h0])
  have hrun := (sinceLaw_lawful dataDir steamidShort).run (along_of_forall his) hI
  rw [run_sinceLaw, List.nil_append] at hrun
  obtain ⟨h, rs, hr, hsub, -⟩ := hrun.saved hsaved
  obtain ⟨_, _, _, _, nick, -, -, -, -, hdisk⟩ := saved_of_finish hr hsaved
  exact ⟨_, rs, hdisk, hsub⟩

/-- Where nothing but later frames can be saved, no closed capture that a FINISH accepts holds a
frame: an UNPAUSE and a FINISH would save it. -/
theorem Forgotten.frames_eq_nil (hF : Forgotten dataDir steamidShort s) {env : Env}
    (ha : Accepted env steamidShort) {h : KrpHeader} {rs : List Record}
    (hd : s.disk (openPath dataDir env steamidShort) = some (krprOf h rs)) (hn : Named h rs) :
    frames rs = [] := by
  let env' : Env := { env with fopenOk := true, renameOk := true }
  let unpause : Input := ⟨.unpause steamidShort, env'⟩
  let finish : Input := ⟨.finish 0 true 0 steamidShort sampleNickname, env'⟩
  have ha' : Accepted env' steamidShort := ha
  have hu : next dataDir s unpause = _ := onUnpause_eq dataDir ha' hd rfl
  have hr : Recording (run (next dataDir) s [unpause]) h rs := by
    rw [run_cons, run_nil, hu]
    exact ⟨rfl, Disk.store_self ..⟩
  obtain ⟨uid, path, hsaved⟩ := finish_saves hr (i := finish) rfl ha.1 hn rfl
  obtain ⟨h', rs', hdisk', hsub⟩ := hF [unpause] finish uid path (by
    intro i hi
    rw [List.mem_singleton.mp hi]
    rfl) rfl hsaved
  obtain ⟨_, _, _, _, nick, -, -, -, -, hdisk⟩ := saved_of_finish hr hsaved
  rw [hdisk, Option.some.injEq] at hdisk'
  obtain ⟨-, rfl⟩ := krprOf_inj hdisk'
  exact playedFrames_eq_nil.mp (List.sublist_nil.mp hsub)

end Reject

/-- **A rejected run is never finished exactly when the REJECT finds no other `.tmp` of the player
with a frame**: in every state that the player's signals reach. -/
theorem rejected_forgotten_iff (dataDir : Bytes) (steamidShort : CString 35)
    {disk : Disk Bytes UInt8} (hd : Files (playerPaths dataDir steamidShort) Named disk)
    {is : List Input} (his : ∀ i ∈ is, OfPlayer steamidShort i) {reject : Input}
    (hs : reject.signal = .reject true) :
    Forgotten dataDir steamidShort (next dataDir (run (next dataDir) (.init disk) is) reject) ↔
      NoneLeft dataDir steamidShort (run (next dataDir) (.init disk) is) := by
  have hrun : nameLaw.Holds (playerPaths dataDir steamidShort) ()
      (run (next dataDir) (.init disk) is) :=
    (nameLaw_lawful dataDir steamidShort).run (along_of_forall his)
      (.closed rfl hd : nameLaw.Holds _ () _)
  generalize run (next dataDir) (.init disk) is = s at hrun ⊢
  have hC : OfPlayer steamidShort reject := by simp only [OfPlayer, hs]
  have hfd : (next dataDir s reject).fd = none := by rw [next_reject hs]
  have hfiles := ((nameLaw_lawful dataDir steamidShort).step hC hrun).files hfd
  constructor
  · rintro hF p hp hne h rs hb
    rw [← disk_reject dataDir hs hne] at hb
    obtain ⟨h', rs', he, hn⟩ := hfiles p hp _ hb
    obtain ⟨rfl, rfl⟩ := krprOf_inj he
    obtain ⟨env, ha, rfl⟩ := hp
    exact hF.frames_eq_nil ha hb hn
  · intro hN
    refine forgotten_of_files hfd fun p hp b hb => ?_
    obtain ⟨h, rs, rfl, -⟩ := hfiles p hp b hb
    have hne : s.fd.isSome = true → p ≠ s.filepath := by
      rintro hopen rfl
      rw [next_reject hs] at hb
      dsimp only at hb
      rw [if_pos hopen, Disk.unlink_self] at hb
      cases hb
    rw [disk_reject dataDir hs hne] at hb
    exact ⟨h, rs, rfl, hN p hp hne h rs hb⟩

/-- A run that is paused when it is rejected. -/
def pausedRun : List Input :=
  [sampleStart, sampleInput (.frame (sampleFrame 1)), sampleInput .pause]

/-- The run is rejected, and its file deleted. -/
def sampleReject : Input := sampleInput (.reject true)

/-- The run goes on. -/
def sampleUnpause : Input := sampleInput (.unpause samplePlayer)

theorem pausedRun_ofPlayer : ∀ i ∈ pausedRun, OfPlayer samplePlayer i := by
  simp only [pausedRun, List.forall_mem_cons]
  exact ⟨rfl, trivial, trivial, fun _ h => absurd h List.not_mem_nil⟩

theorem rejected_forgotten_iff_sample :
    Forgotten (str "d") samplePlayer
        (next (str "d") (run (next (str "d")) (.init fun _ => none) pausedRun) sampleReject) ↔
      NoneLeft (str "d") samplePlayer (run (next (str "d")) (.init fun _ => none) pausedRun) :=
  rejected_forgotten_iff (str "d") samplePlayer (fun _ _ _ h => by cases h) pausedRun_ofPlayer rfl

theorem recording_unpaused : Recording
    (run (next (str "d")) (.init fun _ => none) (pausedRun ++ [sampleReject, sampleUnpause]))
    (runHeader (startHeader 36 samplePlayer sampleNickname sampleServer.header) 0 0)
    [.frame (keyframe (sampleFrame 1))] :=
  ⟨by decide +kernel, by decide +kernel⟩

/-- **A rejected run that is finished**: it was paused, and the FINISH saves the frame that was
recorded before the REJECT. -/
theorem rejected_finished : ∃ uid path h rs,
    .saved uid path ∈ (step (str "d") (run (next (str "d")) (.init fun _ => none)
      (pausedRun ++ [sampleReject, sampleUnpause])) sampleFinish).2 ∧
    (next (str "d") (run (next (str "d")) (.init fun _ => none)
      (pausedRun ++ [sampleReject, sampleUnpause])) sampleFinish).disk path = some (krprOf h rs) ∧
    signalledFrames pausedRun = [sampleFrame 1] ∧ playedFrames rs = [sampleFrame 1] ∧
    signalledFrames [sampleUnpause] = [] := by
  have hr := recording_unpaused
  obtain ⟨uid, path, hs⟩ :=
    finish_saves hr (i := sampleFinish) rfl (by decide) (by decide +kernel) rfl
  obtain ⟨_, _, _, _, nick, -, -, -, -, hdisk⟩ := saved_of_finish hr hs
  refine ⟨uid, path, _, _, hs, hdisk, rfl, ?_, rfl⟩
  exact playedFrames_frame [] (shows_keyframe _ _)

end KzGlobal.Replay.Rejected
