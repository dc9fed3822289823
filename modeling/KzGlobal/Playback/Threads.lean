import KzGlobal.Lib.Runs
import KzGlobal.Submit.Confined

/-! # Playback

The thread that parses replays and the main thread that plays them, deletes them and changes the
map. A step is what a thread does without a point where the other can come between: the parser reads
the front of its queue, looks whether the file is still there, pushes the replay under the lock and
pops the queue; the main thread deletes a record function by function, and holds the lock as long as
`kz_pb_frame` looks through what was parsed. The writer and the handlers of messages write and
remove files at any time. Paths are equal as `std::filesystem` compares them. -/

namespace KzGlobal.Playback.Threads

open KzGlobal.Lib.Stdio KzGlobal.Lib.FileProgram KzGlobal.Lib.PosixPath
open KzGlobal.Krp.Format KzGlobal.Krp.Codec
open KzGlobal.Replay.Text KzGlobal.Replay.Paths KzGlobal.Replay.Selection KzGlobal.Submit.Confined

/-! ### Parsed replays -/

/-- `krp_playback`, with the time of the run in milliseconds. -/
structure KrpPlayback where
  filepath : Path
  header : KrpHeader
  frames : List KrpFrame
  timeMs : ℕ
  doubleSpeed : Bool := false
  frameCounter : ℤ := 0
  finishFrame : ℤ := 0
  delayCounter : ℤ := 0

/-- `header.map.name` as a C string. -/
def headerMap (h : KrpHeader) : Bytes := cstr (h.bytes.drop Member.mapName.field.off)

/-- A call of `on_frame`. -/
def frameOf : Call → Option KrpFrame
  | .onFrame _ _ f => some f
  | .onEvent _ _ => none

/-- Header and frames of a replay, over the decompression of `zstd`. A replay that is not one has no
frames. -/
def parsePlayback (unzstd : Bytes → Option Bytes) (src : Bytes) : KrpHeader × List KrpFrame :=
  match unzstd src with
  | none => (.zero, [])
  | some body =>
    match mapSections body with
    | .error _ => (.zero, [])
    | .ok s =>
      match forEachRecord s with
      | .error _ => (s.header, [])
      | .ok calls => (s.header, calls.filterMap frameOf)

/-- What the parser thread makes of a file with the bytes `src`: nothing where they are no replay,
where the name holds no time or where there are less than two frames. -/
def parseFile (unzstd : Bytes → Option Bytes) (file : Path) (src : Bytes) : Option KrpPlayback :=
  if src = [] ∨ extension file.filename ≠ str ".krpz" then none
  else
    let (header, frames) := parsePlayback unzstd src
    if file.filename.length < 10 then none
    else
      let msStr := (file.filename.drop 2).take 8
      -- `std::stoul` throws where there is no number
      if (strtoul msStr).2 = msStr then none
      else if 1 < frames.length then
        some { filepath := file, header := header, frames := frames, timeMs := (strtoul msStr).1 }
      else none

/-! ### The threads -/

/-- The parser thread: between two files, with a parsed replay, with one whose file was there, and
before the pop. -/
inductive Parser
  | waiting
  | parsed (pb : KrpPlayback)
  | present (pb : KrpPlayback)
  | finished

/-- What the main thread is about to do: the rest of a deletion, or of a frame. -/
inductive Main
  | idle
  | dropParsed (mapname : Bytes) (path : Path)
  | stopIfPlaying (mapname : Bytes) (path : Path)
  | reload (mapname : Bytes)
  | lock
  | scan
  deriving DecidableEq

/-- The files and the state of the playback. -/
structure Pb where
  disk : Disk Path UInt8
  mapname : Bytes
  parseQueue : List Path
  parser : Parser
  data : List KrpPlayback
  pendingData : Bool
  botData : Option KrpPlayback
  botEnt : Bool
  botId : ℕ
  main : Main

/-- Nothing is parsed, loaded or played. -/
def Pb.init (disk : Disk Path UInt8) (mapname : Bytes) : Pb where
  disk := disk
  mapname := mapname
  parseQueue := []
  parser := .waiting
  data := []
  pendingData := false
  botData := none
  botEnt := false
  botId := 0
  main := .idle

/-- The path of what is played. -/
def Pb.playing (s : Pb) : Option Path := s.botData.map KrpPlayback.filepath

/-- What the threads read besides: the entries of directories, whether `exists` fails, the record of
the map, a setting, the time since the map was loaded, whether the entity of the bot is gone and the
fake client that is created. -/
structure Env where
  entries : Bytes → List Bytes
  existsError : Bool
  mapHasProWr : Bool
  replaysParse : Bool
  afterLoad : Bool
  botEntFreed : Bool
  fakeClient : ℕ

/-- The capacity of the queue of the parser. -/
def parseQueueSize : ℕ := 4

/-- `kz_pb_parse_file_async` drops the file where parsing is off or the queue is full. -/
def kzPbParseFileAsync (env : Env) (file : Path) (s : Pb) : Pb :=
  if env.replaysParse ∧ s.parseQueue.length < parseQueueSize then
    { s with parseQueue := s.parseQueue ++ [file] }
  else s

section Functions
variable (dataDir : Bytes)

/-- The record of the server among the files of a map. -/
def kzPbFindSrReplay (env : Env) (mapname : Bytes) (s : Pb) : Option Path :=
  match ((kzPbFindFastest dataDir mapname).run env.entries fun p => s.disk (parse p)).2 with
  | none => none
  | some file => if env.mapHasProWr ∧ fileClass file = some 1 then none else some (parse file)

/-- The replay that is asked of the server where none is found changes nothing here. -/
def kzPbReloadSrBot (env : Env) (mapname : Bytes) (s : Pb) : Pb :=
  if ¬ kzWsValidReplaySegment mapname ∨ mapname ≠ s.mapname then s
  else
    match kzPbFindSrReplay dataDir env mapname s with
    | none => s
    | some file => if s.playing = some file then s else kzPbParseFileAsync env file s

/-- `kz_pb_drop_parsed_replay`. -/
def kzPbDropParsedReplay (path : Path) (s : Pb) : Pb :=
  let data := s.data.filter (·.filepath ≠ path)
  { s with data := data, pendingData := if data = [] then false else s.pendingData }

/-- `kz_pb_stop_if_playing`: the bot lets go of a replay that is deleted. -/
def kzPbStopIfPlaying (path : Path) (s : Pb) : Pb :=
  if s.playing = some path then { s with botId := 0, botData := none } else s

/-- The path of a record. -/
def recordPath (mapname uid ext : Bytes) : Path := parse (mapReplayPath dataDir mapname uid ext)

/-- `kz_ws_delete_record_replay` up to the removal of the files, which may fail. -/
def kzWsDeleteRecordReplay (mapname uid : Bytes) (removed : Bool) (s : Pb) : Pb :=
  if ¬ kzWsValidReplaySegment mapname ∨ ¬ kzWsValidReplaySegment uid then s
  else
    let path (ext : Bytes) := recordPath dataDir mapname uid ext
    { s with
      disk := if removed then (s.disk.unlink (path (str ".krpr"))).unlink (path (str ".krpz"))
        else s.disk
      main := .dropParsed mapname (path (str ".krpz")) }

/-- `kz_pb_frame` up to the lock. -/
def kzPbFrame (env : Env) (s : Pb) : Pb :=
  let s :=
    if env.afterLoad then
      let s := { s with botEnt := true }
      match kzPbFindSrReplay dataDir env s.mapname s with
      | some file => kzPbParseFileAsync env file s
      | none => { s with botData := none }
    else s
  if ¬ s.botEnt ∨ env.botEntFreed ∨ ¬ s.pendingData then s else { s with main := .lock }

/-- What is played from the beginning. -/
def KrpPlayback.load (pb : KrpPlayback) : KrpPlayback :=
  { pb with
    doubleSpeed := false, frameCounter := 0, finishFrame := pb.frames.length - 1,
    delayCounter := 0 }

/-- One pass of the loop in `kz_pb_frame`, under the lock: the last replay is dropped or played. -/
def scanNext (env : Env) (s : Pb) : Pb :=
  match s.data.getLast? with
  | none => { s with main := .idle }
  | some entry =>
    if (s.disk entry.filepath = none ∨ env.existsError) ∨ s.mapname ≠ headerMap entry.header then
      { s with data := s.data.dropLast }
    else
      { s with
        data := []
        botData := some entry.load
        botId := if s.botId = 0 then env.fakeClient else s.botId
        main := .idle }

/-- The next step of what the main thread does. -/
def proceed (env : Env) (s : Pb) : Pb :=
  match s.main with
  | .idle => s
  | .dropParsed mapname path =>
    { kzPbDropParsedReplay path s with main := .stopIfPlaying mapname path }
  | .stopIfPlaying mapname path => { kzPbStopIfPlaying path s with main := .reload mapname }
  | .reload mapname => { kzPbReloadSrBot dataDir env mapname s with main := .idle }
  | .lock => { s with pendingData := false, main := .scan }
  | .scan => scanNext env s

/-- `kz_pb_server_deactivate_post`: the frames that are played and those that wait are dropped. -/
def kzPbServerDeactivatePost (s : Pb) : Pb :=
  { s with
    botId := 0
    botEnt := false
    botData := s.botData.map fun pb => { pb with frames := [] }
    data := [] }

/-- The command `playback speed`. -/
def setSpeed (double : Bool) (s : Pb) : Pb :=
  { s with botData := s.botData.map fun pb => { pb with doubleSpeed := double } }

end Functions

/-! ### The parser thread -/

/-- The front of the queue is read and parsed. -/
def readFront (unzstd : Bytes → Option Bytes) (fails : Bool) (s : Pb) : Pb :=
  match s.parser, s.parseQueue with
  | .waiting, file :: _ =>
    let src := if fails then none else s.disk file
    match src.bind (parseFile unzstd file) with
    | some pb => { s with parser := .parsed pb }
    | none => { s with parser := .finished }
  | _, _ => s

/-- A replay is dropped whose file was deleted meanwhile. -/
def checkExists (env : Env) (s : Pb) : Pb :=
  match s.parser with
  | .parsed pb =>
    { s with
      parser := if s.disk pb.filepath = none ∨ env.existsError then .finished else .present pb }
  | _ => s

/-- The push waits while the main thread holds the lock. -/
def pushParsed (s : Pb) : Pb :=
  match s.parser with
  | .present pb =>
    if s.main = .scan then s
    else { s with data := s.data ++ [pb], pendingData := true, parser := .finished }
  | _ => s

/-- The parser takes off the queue what it has finished. -/
def popFront (s : Pb) : Pb :=
  match s.parser with
  | .finished => { s with parseQueue := s.parseQueue.tail, parser := .waiting }
  | _ => s

/-! ### The machine -/

/-- The steps of the parser and of the main thread. -/
inductive Event
  | read (fails : Bool)
  | check (env : Env)
  | push
  | pop
  | deleteRecord (mapname uid : Bytes) (removed : Bool)
  | frame (env : Env)
  | proceed (env : Env)
  | deactivate
  | loadMap (mapname : Bytes)
  | parseFile (env : Env) (file : Path)
  | speed (double : Bool)
  | write (file : Path) (b : Bytes)
  | remove (file : Path)

section Machine
variable (dataDir : Bytes) (unzstd : Bytes → Option Bytes)

/-- What the main thread begins only when it is done with what it did. -/
def begin (f : Pb → Pb) (s : Pb) : Pb := if s.main = .idle then f s else s

/-- What an event makes of the playback. -/
def next (s : Pb) : Event → Pb
  | .read fails => readFront unzstd fails s
  | .check env => checkExists env s
  | .push => pushParsed s
  | .pop => popFront s
  | .deleteRecord mapname uid removed =>
    begin (kzWsDeleteRecordReplay dataDir mapname uid removed) s
  | .frame env => begin (kzPbFrame dataDir env) s
  | .proceed env => proceed dataDir env s
  | .deactivate => begin kzPbServerDeactivatePost s
  | .loadMap mapname => begin (fun s => { s with mapname := mapname }) s
  | .parseFile env file => begin (kzPbParseFileAsync env file) s
  | .speed double => begin (setSpeed double) s
  | .write file b => { s with disk := s.disk.store file b }
  | .remove file => { s with disk := s.disk.unlink file }

end Machine

/-! ### The whole module -/

/-- The files as the strings of their paths. -/
def Pb.files (s : Pb) : Disk Bytes UInt8 := fun p => s.disk (parse p)

section Module
variable (dataDir : Bytes)

theorem kzPbFindSrReplay_eq {env : Env} {handlers : Submit.Confined.Env}
    (h : handlers.mapHasProWr = env.mapHasProWr)
    (mapname : Bytes) (s : Pb) : kzPbFindSrReplay dataDir env mapname s =
      ((Submit.Confined.kzPbFindSrReplay dataDir handlers mapname).run env.entries s.files).2.map
      parse := by
  unfold kzPbFindSrReplay Submit.Confined.kzPbFindSrReplay
  rw [Prog.run_bind]
  change (match ((kzPbFindFastest dataDir mapname).run env.entries s.files).2 with
    | none => none
    | some file => if env.mapHasProWr ∧ fileClass file = some 1 then none
      else some (parse file)) = _
  rcases ((kzPbFindFastest dataDir mapname).run env.entries s.files).2 with _ | file
  · rfl
  · dsimp only
    rw [h]
    split_ifs
    · rfl
    · rfl

theorem not_refused {mapname uid : Bytes} (hm : kzWsValidReplaySegment mapname = true)
    (hu : kzWsValidReplaySegment uid = true) :
    ¬ (¬ kzWsValidReplaySegment mapname = true ∨ ¬ kzWsValidReplaySegment uid = true) := by
  rw [not_or, not_not, not_not]
  exact ⟨hm, hu⟩

/-- A deletion leaves the files that it leaves in the whole module, but for those that have other
strings of the removed paths. -/
theorem files_kzWsDeleteRecordReplay {mapname uid : Bytes}
    (hm : kzWsValidReplaySegment mapname = true)
    (hu : kzWsValidReplaySegment uid = true) (s : Pb) (p : Bytes) :
    (kzWsDeleteRecordReplay dataDir mapname uid true s).files p = none ∨
      (kzWsDeleteRecordReplay dataDir mapname uid true s).files p =
        Submit.System.kzWsDeleteRecordReplay dataDir mapname uid s.files p := by
  have hvalid := not_refused hm hu
  have hne : uid ≠ [] := segment_ne_nil hu
  rw [kzWsDeleteRecordReplay, if_neg hvalid, Submit.System.kzWsDeleteRecordReplay, if_neg hvalid,
    Submit.System.kzWsDeleteReplayFiles, if_neg hne]
  by_cases hz : parse p = recordPath dataDir mapname uid (str ".krpz")
  · left
    rw [Pb.files, hz]
    exact Disk.unlink_self ..
  by_cases hr : parse p = recordPath dataDir mapname uid (str ".krpr")
  · left
    exact (Disk.unlink_of_ne _ hz).trans (hr ▸ Disk.unlink_self ..)
  · right
    have hz' : p ≠ mapReplayPath dataDir mapname uid (str ".krpz") := fun h0 => hz (by rw [h0]; rfl)
    have hr' : p ≠ mapReplayPath dataDir mapname uid (str ".krpr") := fun h0 => hr (by rw [h0]; rfl)
    have hfold : ((s.files.unlink (mapReplayPath dataDir mapname uid (str ".krpr"))).unlink
        (mapReplayPath dataDir mapname uid (str ".krpz"))) p = s.files p :=
      (Disk.unlink_of_ne _ hz').trans (Disk.unlink_of_ne _ hr')
    exact ((Disk.unlink_of_ne _ hz).trans (Disk.unlink_of_ne _ hr)).trans hfold.symm

end Module
end KzGlobal.Playback.Threads
