import KzGlobal.Playback.Threads

/-! # A deleted record is not played

What `kz_pb_frame` plays it has seen on disk under the lock, so a replay that was parsed before its
file was removed is not played once the file is gone. A deletion removes the file first and
then stops the playback, and the file stays away until it is written again
(`deleted_not_played`). -/

namespace KzGlobal.Playback.Deleted

open KzGlobal.Lib.Runs KzGlobal.Lib.Stdio KzGlobal.Lib.PosixPath KzGlobal.Krp.Format
open KzGlobal.Replay.Text KzGlobal.Replay.Paths KzGlobal.Playback.Threads

/-! ### What the functions change -/

theorem kzPbParseFileAsync_eq (env : Env) (file : Path) (s : Pb) :
    ∃ q, kzPbParseFileAsync env file s = { s with parseQueue := q } := by
  unfold kzPbParseFileAsync
  split_ifs
  · exact ⟨_, rfl⟩
  · exact ⟨s.parseQueue, rfl⟩

theorem kzPbReloadSrBot_eq (dataDir : Bytes) (env : Env) (mapname : Bytes) (s : Pb) :
    ∃ q, kzPbReloadSrBot dataDir env mapname s = { s with parseQueue := q } := by
  unfold kzPbReloadSrBot
  split_ifs
  · exact ⟨s.parseQueue, rfl⟩
  · split
    · exact ⟨s.parseQueue, rfl⟩
    · split_ifs
      · exact ⟨s.parseQueue, rfl⟩
      · exact kzPbParseFileAsync_eq ..

/-- A frame up to the lock: the bot is loaded or not, without a replay or with a request to parse
one, and the lock is taken or not. -/
theorem kzPbFrame_cases (dataDir : Bytes) (env : Env) (s : Pb) :
    ∃ m,
      kzPbFrame dataDir env s = { s with main := m } ∨
        kzPbFrame dataDir env s = { s with botEnt := true, botData := none, main := m } ∨
        ∃ q, kzPbFrame dataDir env s = { s with botEnt := true, parseQueue := q, main := m } := by
  unfold kzPbFrame
  by_cases ha : env.afterLoad = true
  · rw [if_pos ha]
    dsimp only
    cases kzPbFindSrReplay dataDir env s.mapname { s with botEnt := true } with
    | none =>
      split_ifs
      · exact ⟨s.main, Or.inr (Or.inl rfl)⟩
      · exact ⟨.lock, Or.inr (Or.inl rfl)⟩
    | some file =>
      obtain ⟨q, hq⟩ := kzPbParseFileAsync_eq env file { s with botEnt := true }
      dsimp only
      split_ifs
      · exact ⟨s.main, Or.inr (Or.inr ⟨q, hq⟩)⟩
      · refine ⟨.lock, Or.inr (Or.inr ⟨q, ?_⟩)⟩
        rw [hq]
  · rw [if_neg ha]
    dsimp only
    split_ifs
    · exact ⟨s.main, Or.inl rfl⟩
    · exact ⟨.lock, Or.inl rfl⟩

theorem kzPbFrame_spec (dataDir : Bytes) (env : Env) (s : Pb) :
    (kzPbFrame dataDir env s).disk = s.disk ∧
      ((kzPbFrame dataDir env s).playing = s.playing ∨
        (kzPbFrame dataDir env s).playing = none) := by
  obtain ⟨m, hidle | hnone | ⟨q, hparse⟩⟩ := kzPbFrame_cases dataDir env s
  · rw [hidle]
    exact ⟨rfl, Or.inl rfl⟩
  · rw [hnone]
    exact ⟨rfl, Or.inr rfl⟩
  · rw [hparse]
    exact ⟨rfl, Or.inl rfl⟩

/-- **What is played exists.** A pass under the lock leaves what is played, or plays a parsed replay
whose file it has seen. -/
theorem scanNext_spec (env : Env) (s : Pb) :
    (scanNext env s).disk = s.disk ∧
      ((scanNext env s).playing = s.playing ∨
        ∃ pb ∈ s.data, (scanNext env s).playing = some pb.filepath ∧
        s.disk pb.filepath ≠ none) := by
  unfold scanNext
  split
  · exact ⟨rfl, Or.inl rfl⟩
  · rename_i entry hlast
    by_cases hc : (s.disk entry.filepath = none ∨ env.existsError = true) ∨
      s.mapname ≠ headerMap entry.header
    · rw [if_pos hc]
      exact ⟨rfl, Or.inl rfl⟩
    · rw [if_neg hc]
      rw [not_or, not_or] at hc
      exact ⟨rfl, Or.inr ⟨entry, List.mem_of_getLast? hlast, rfl, hc.1.1⟩⟩

theorem kzPbStopIfPlaying_spec (path : Path) (s : Pb) :
    (kzPbStopIfPlaying path s).disk = s.disk ∧ (kzPbStopIfPlaying path s).playing ≠ some path ∧
      ((kzPbStopIfPlaying path s).playing = s.playing ∨
        (kzPbStopIfPlaying path s).playing = none) := by
  unfold kzPbStopIfPlaying
  split_ifs with h
  · exact ⟨rfl, by simp [Pb.playing], Or.inr rfl⟩
  · exact ⟨rfl, h, Or.inl rfl⟩

theorem readFront_eq (unzstd : Bytes → Option Bytes) (fails : Bool) (s : Pb) :
    ∃ parser, readFront unzstd fails s = { s with parser := parser } := by
  unfold readFront
  split
  · dsimp only
    split
    · exact ⟨_, rfl⟩
    · exact ⟨_, rfl⟩
  · exact ⟨s.parser, rfl⟩

theorem checkExists_eq (env : Env) (s : Pb) :
    ∃ parser, checkExists env s = { s with parser := parser } := by
  unfold checkExists
  split
  · exact ⟨_, rfl⟩
  · exact ⟨s.parser, rfl⟩

theorem pushParsed_eq (s : Pb) : ∃ data pending parser,
    pushParsed s = { s with data := data, pendingData := pending, parser := parser } := by
  unfold pushParsed
  split
  · split_ifs
    · exact ⟨s.data, s.pendingData, s.parser, rfl⟩
    · exact ⟨_, _, _, rfl⟩
  · exact ⟨s.data, s.pendingData, s.parser, rfl⟩

theorem popFront_eq (s : Pb) :
    ∃ q parser, popFront s = { s with parseQueue := q, parser := parser } := by
  unfold popFront
  split
  · exact ⟨_, _, rfl⟩
  · exact ⟨s.parseQueue, s.parser, rfl⟩

/-! ### Steps -/

/-- The main thread is at the functions of a deletion that have yet to drop or to stop the path. -/
def Deleting (p : Path) (s : Pb) : Prop :=
  ∃ mapname, s.main = .dropParsed mapname p ∨ s.main = .stopIfPlaying mapname p

/-- The file is written. -/
def Writes (p : Path) (e : Event) : Prop := ∃ b, e = .write p b

theorem not_deleting {p : Path} {s : Pb} (h : s.main = .idle) : ¬ Deleting p s := by
  rintro ⟨mapname, h' | h'⟩
  all_goals
    rw [h] at h'
    cases h'

section Steps
variable {p : Path} {s s' : Pb}

theorem begin_disk {f : Pb → Pb} (hd : s.disk p = none) (hf : (f s).disk p = none) :
    (begin f s).disk p = none := by
  unfold Threads.begin
  split_ifs
  · exact hf
  · exact hd

theorem begin_playing {f : Pb → Pb} (hp : s.playing ≠ some p) (hf : (f s).playing ≠ some p) :
    (begin f s).playing ≠ some p := by
  unfold Threads.begin
  split_ifs
  · exact hf
  · exact hp

/-- A path that is not played is not played after a step that leaves what is played or stops it. -/
theorem ne_of_keeps (h : s.playing ≠ some p) (hs : s'.playing = s.playing ∨ s'.playing = none) :
    s'.playing ≠ some p := by
  rcases hs with hs | hs
  · rwa [hs]
  · simp [hs]

theorem unlink_none {d : Disk Path UInt8} (q : Path) (h : d p = none) : d.unlink q p = none := by
  rcases eq_or_ne p q with rfl | hne
  · exact Disk.unlink_self ..
  · rwa [Disk.unlink_of_ne _ hne]

variable (dataDir : Bytes) (unzstd : Bytes → Option Bytes)

/-- The steps of the thread that parses. -/
def Parses : Event → Prop
  | .read _ => True
  | .check _ => True
  | .push => True
  | .pop => True
  | _ => False

/-- The steps that the main thread begins where it is idle. -/
def Begins : Event → Prop
  | .deleteRecord _ _ _ => True
  | .frame _ => True
  | .deactivate => True
  | .loadMap _ => True
  | .parseFile _ _ => True
  | .speed _ => True
  | _ => False

/-- **The parser** leaves the files, what is played and the main thread. -/
theorem parser_next (s : Pb) {e : Event} (he : Parses e) :
    (next dataDir unzstd s e).disk = s.disk ∧ (next dataDir unzstd s e).playing = s.playing ∧
      (next dataDir unzstd s e).main = s.main := by
  cases e with
  | read fails =>
    obtain ⟨parser, hr⟩ := readFront_eq unzstd fails s
    rw [next, hr]
    exact ⟨rfl, rfl, rfl⟩
  | check env =>
    obtain ⟨parser, hr⟩ := checkExists_eq env s
    rw [next, hr]
    exact ⟨rfl, rfl, rfl⟩
  | push =>
    obtain ⟨data, pending, parser, hr⟩ := pushParsed_eq s
    rw [next, hr]
    exact ⟨rfl, rfl, rfl⟩
  | pop =>
    obtain ⟨q, parser, hr⟩ := popFront_eq s
    rw [next, hr]
    exact ⟨rfl, rfl, rfl⟩
  | _ => exact absurd he id

theorem proceed_disk (env : Env) (s : Pb) : (proceed dataDir env s).disk = s.disk := by
  unfold proceed
  split
  next => rfl
  next mapname path hm => rfl
  next mapname path hm => exact (kzPbStopIfPlaying_spec path s).1
  next mapname hm =>
    obtain ⟨q, hq⟩ := kzPbReloadSrBot_eq dataDir env mapname s
    rw [hq]
  next hm => rfl
  next hm => exact (scanNext_spec env s).1

/-- **A file that is gone** stays away until it is written. -/
theorem disk_next {e : Event} (hd : s.disk p = none) (he : ¬ Writes p e) :
    (next dataDir unzstd s e).disk p = none := by
  have hparser (h : Parses e) : (next dataDir unzstd s e).disk p = none := by
    rwa [(parser_next dataDir unzstd s h).1]
  cases e with
  | deleteRecord mapname uid removed =>
    refine begin_disk hd ?_
    unfold kzWsDeleteRecordReplay
    split_ifs
    · exact hd
    · exact unlink_none _ (unlink_none _ hd)
    · exact hd
  | frame env => exact begin_disk hd ((kzPbFrame_spec dataDir env s).1 ▸ hd)
  | proceed env => rwa [next, proceed_disk]
  | deactivate => exact begin_disk hd hd
  | loadMap mapname => exact begin_disk (f := fun s => { s with mapname := mapname }) hd hd
  | parseFile env file =>
    obtain ⟨q, hq⟩ := kzPbParseFileAsync_eq env file s
    exact begin_disk hd (by rwa [hq])
  | speed double => exact begin_disk (f := setSpeed double) hd hd
  | write file b => exact (Disk.store_of_ne _ (fun h => he ⟨b, by rw [h]⟩) b).trans hd
  | remove file => exact unlink_none file hd
  | _ => exact hparser trivial

/-- **What the main thread plays next** it has seen on disk. -/
theorem proceed_playing (env : Env) (hd : s.disk p = none) (hp : s.playing ≠ some p) :
    (proceed dataDir env s).playing ≠ some p := by
  unfold proceed
  split
  next => exact hp
  next mapname path hm => exact hp
  next mapname path hm => exact ne_of_keeps hp (kzPbStopIfPlaying_spec path s).2.2
  next mapname hm =>
    obtain ⟨q, hq⟩ := kzPbReloadSrBot_eq dataDir env mapname s
    rwa [hq]
  next hm => exact hp
  next hm =>
    rcases (scanNext_spec env s).2 with hplay | ⟨pb, -, hplay, hon⟩
    · rwa [hplay]
    · rw [hplay]
      rintro ⟨⟩
      exact hon hd

/-- **A step plays no file that is gone.** -/
theorem playing_next (e : Event) (hd : s.disk p = none) (hp : s.playing ≠ some p) :
    (next dataDir unzstd s e).playing ≠ some p := by
  have hparser (h : Parses e) : (next dataDir unzstd s e).playing ≠ some p := by
    rwa [(parser_next dataDir unzstd s h).2.1]
  cases e with
  | deleteRecord mapname uid removed =>
    refine begin_playing hp ?_
    unfold kzWsDeleteRecordReplay
    split_ifs
    · exact hp
    · exact hp
    · exact hp
  | frame env => exact begin_playing hp (ne_of_keeps hp (kzPbFrame_spec dataDir env s).2)
  | proceed env => exact proceed_playing dataDir env hd hp
  | deactivate =>
    refine begin_playing hp (ne_of_keeps hp (Or.inl ?_))
    simp [kzPbServerDeactivatePost, Pb.playing, Function.comp_def]
  | loadMap mapname => exact begin_playing (f := fun s => { s with mapname := mapname }) hp hp
  | parseFile env file =>
    obtain ⟨q, hq⟩ := kzPbParseFileAsync_eq env file s
    exact begin_playing hp (by rwa [hq])
  | speed double =>
    refine begin_playing (f := setSpeed double) hp (ne_of_keeps hp (Or.inl ?_))
    simp [setSpeed, Pb.playing, Function.comp_def]
  | write file b => exact hp
  | remove file => exact hp
  | _ => exact hparser trivial

theorem next_of_begins (hm : s.main ≠ .idle) {e : Event} (he : Begins e) :
    next dataDir unzstd s e = s := by
  have hbegin (f : Pb → Pb) : begin f s = s := if_neg hm
  cases e with
  | deleteRecord mapname uid removed => exact hbegin _
  | frame env => exact hbegin _
  | deactivate => exact hbegin _
  | loadMap mapname => exact hbegin fun s => { s with mapname := mapname }
  | parseFile env file => exact hbegin _
  | speed double => exact hbegin _
  | _ => exact absurd he id

/-- **A deletion that goes on** ends with a stop of what it deletes. -/
theorem deleting_next (e : Event) (h : Deleting p s) :
    Deleting p (next dataDir unzstd s e) ∨ (next dataDir unzstd s e).playing ≠ some p := by
  have hparser (he : Parses e) : Deleting p (next dataDir unzstd s e) := by
    rwa [Deleting, (parser_next dataDir unzstd s he).2.2]
  have hbegins (he : Begins e) : Deleting p (next dataDir unzstd s e) := by
    rwa [next_of_begins dataDir unzstd (fun hi => not_deleting hi h) he]
  cases e with
  | proceed env =>
    obtain ⟨mapname, hm | hm⟩ := h
    · left
      rw [next, proceed, hm]
      exact ⟨mapname, Or.inr rfl⟩
    · right
      rw [next, proceed, hm]
      exact (kzPbStopIfPlaying_spec p s).2.1
  | write file b => exact Or.inl h
  | remove file => exact Or.inl h
  | read fails => exact Or.inl (hparser trivial)
  | check env => exact Or.inl (hparser trivial)
  | push => exact Or.inl (hparser trivial)
  | pop => exact Or.inl (hparser trivial)
  | _ => exact Or.inl (hbegins trivial)

end Steps

/-! ### Runs -/

/-- The file of a path is gone, and it is not played but while its deletion goes on. -/
structure Gone (p : Path) (s : Pb) : Prop where
  disk : s.disk p = none
  playing : Deleting p s ∨ s.playing ≠ some p

/-- The file of a path is gone, and it is not played. -/
structure Silent (p : Path) (s : Pb) : Prop where
  disk : s.disk p = none
  playing : s.playing ≠ some p

section Runs
variable {dataDir : Bytes} {unzstd : Bytes → Option Bytes} {p : Path} {s : Pb} {es : List Event}

theorem silent_run (h : Silent p s) (hw : ∀ e ∈ es, ¬ Writes p e) :
    Silent p (run (next dataDir unzstd) s es) :=
  Along.run (P := Silent p)
    (fun _ e h he => ⟨disk_next dataDir unzstd h.disk he,
      playing_next dataDir unzstd e h.disk h.playing⟩)
    (along_of_forall (A := fun e => ¬ Writes p e) hw) h

theorem gone_next {e : Event} (h : Gone p s) (he : ¬ Writes p e) :
    Gone p (next dataDir unzstd s e) where
  disk := disk_next dataDir unzstd h.disk he
  playing := by
    rcases h.playing with hdel | hp
    · exact deleting_next dataDir unzstd e hdel
    · exact Or.inr (playing_next dataDir unzstd e h.disk hp)

theorem gone_run (h : Gone p s) (hw : ∀ e ∈ es, ¬ Writes p e) :
    Gone p (run (next dataDir unzstd) s es) :=
  Along.run (P := Gone p) (fun _ _ h he => gone_next h he)
    (along_of_forall (A := fun e => ¬ Writes p e) hw) h

/-- **The removal of the files of a record.** -/
theorem gone_of_deleted {mapname uid : Bytes} (hm : kzWsValidReplaySegment mapname = true)
    (hu : kzWsValidReplaySegment uid = true) (hi : s.main = .idle) :
    Gone (recordPath dataDir mapname uid (str ".krpz"))
      (next dataDir unzstd s (.deleteRecord mapname uid true)) := by
  have hstep : next dataDir unzstd s (.deleteRecord mapname uid true) =
      kzWsDeleteRecordReplay dataDir mapname uid true s := if_pos hi
  rw [hstep, kzWsDeleteRecordReplay, if_neg (not_refused hm hu)]
  exact ⟨Disk.unlink_self .., Or.inl ⟨mapname, Or.inl rfl⟩⟩

/-- **A deleted record is never played.** Whatever the threads did before, and in whatever order
they go on: once the main thread is through with the deletion, the record is not played as long as
its file is not written. -/
theorem deleted_not_played (dataDir : Bytes) (unzstd : Bytes → Option Bytes)
    (disk : Disk Path UInt8) (map : Bytes) (before during after : List Event) {mapname uid : Bytes}
    (hm : kzWsValidReplaySegment mapname = true) (hu : kzWsValidReplaySegment uid = true)
    (hstart : (run (next dataDir unzstd) (.init disk map) before).main = .idle)
    (hdone : (run (next dataDir unzstd) (.init disk map)
      (before ++ .deleteRecord mapname uid true :: during)).main = .idle)
    (hw : ∀ e ∈ during ++ after, ¬ Writes (recordPath dataDir mapname uid (str ".krpz")) e) :
    (run (next dataDir unzstd) (.init disk map)
      (before ++ .deleteRecord mapname uid true :: during ++ after)).playing ≠
        some (recordPath dataDir mapname uid (str ".krpz")) := by
  have hrun : run (next dataDir unzstd) (.init disk map)
      (before ++ .deleteRecord mapname uid true :: during) =
      run (next dataDir unzstd)
        (next dataDir unzstd (run (next dataDir unzstd) (.init disk map) before)
        (.deleteRecord mapname uid true)) during := by
    rw [run, List.foldl_append]
    rfl
  have hgone : Gone (recordPath dataDir mapname uid (str ".krpz"))
      (run (next dataDir unzstd) (.init disk map)
      (before ++ .deleteRecord mapname uid true :: during)) := by
    rw [hrun]
    exact gone_run (gone_of_deleted hm hu hstart) fun e he => hw e (List.mem_append_left _ he)
  have hsilent : Silent _ _ := ⟨hgone.disk, hgone.playing.resolve_left (not_deleting hdone)⟩
  rw [run, List.foldl_append]
  exact (silent_run hsilent fun e he => hw e (List.mem_append_right _ he)).playing

end Runs

/-! ### A sample -/

/-- A server whose folder is empty. -/
def sampleEnv : Env where
  entries _ := []
  existsError := false
  mapHasProWr := false
  replaysParse := true
  afterLoad := true
  botEntFreed := false
  fakeClient := 1

/-- A header that a replay of the map can have. -/
def sampleHeader : KrpHeader :=
  ((((KrpHeader.zero.setNum .magic krpMagic).setNum .version krpCurrentVersion).set
    .mapName (str "m")).setNum .sizeTypes 2).setNum .sizeFlags 32

/-- A keyframe and a delta that changes nothing. -/
def sampleBody : Bytes :=
  sampleHeader.bytes ++ [krpFrametypeKeyframe, krpFrametypeDelta] ++ List.replicate 32 0

/-- The name of the record that is deleted. -/
def sampleUid : Bytes := str "0_00012345_a_b"

/-- Where the replay of that record is. -/
def samplePath : Path := recordPath (str "d") (str "m") sampleUid (str ".krpz")

/-- A replay is played, and parsed again up to the check for its file. -/
def sampleBefore : List Event :=
  [.write samplePath [1], .parseFile sampleEnv samplePath, .read false, .check sampleEnv,
    .push, .pop,
    .frame sampleEnv, .proceed sampleEnv, .proceed sampleEnv, .parseFile sampleEnv samplePath,
      .read false,
    .check sampleEnv]

/-- It is deleted, and pushed after the parsed replays of its path were dropped. -/
def sampleDuring : List Event := [.proceed sampleEnv, .push, .proceed sampleEnv, .proceed sampleEnv]

/-- The events behind the deletion: the parser pops, two frames, and the rest of the call. -/
def sampleAfter : List Event :=
  [.pop, .frame sampleEnv, .frame { sampleEnv with afterLoad := false }, .proceed sampleEnv,
    .proceed sampleEnv]

theorem deleted_not_played_sample :
    let disk : Disk Path UInt8 := fun _ => none
    let machine := next (str "d") fun _ => some sampleBody
    (run machine (.init disk (str "m")) sampleBefore).playing = some samplePath ∧
      (run machine (.init disk (str "m"))
        (sampleBefore ++ .deleteRecord (str "m") sampleUid true :: sampleDuring ++
        sampleAfter)).playing ≠ some samplePath := by
  refine ⟨by decide +kernel,
    deleted_not_played (str "d") _ _ _ sampleBefore sampleDuring sampleAfter ?_ ?_ ?_ ?_ ?_⟩
  · decide
  · decide
  · decide +kernel
  · decide +kernel
  · intro e he
    simp only [sampleDuring, sampleAfter, List.cons_append, List.nil_append, List.mem_cons,
      List.not_mem_nil, or_false] at he
    rcases he with rfl | rfl | rfl | rfl | rfl | rfl | rfl | rfl | rfl
    all_goals
      rintro ⟨b, hb⟩
      cases hb

end KzGlobal.Playback.Deleted
