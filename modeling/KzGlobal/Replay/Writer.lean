import KzGlobal.Lib.Stdio
import KzGlobal.Lib.Runs
import KzGlobal.Replay.Text

/-! # The replay writer thread

`kz_rp_writer_thread` for one player: the entries of its static arrays for that player and the disk
are a `Slot`, and `step` is what one signal of the queue does to it. The header of the server at
that moment, the player's ban flag and the outcomes of `fopen` and `rename` come with the signal, as
its `Env`. The log is left out. -/

namespace KzGlobal.Replay.Writer

open KzGlobal.Lib.Packed KzGlobal.Lib.Stdio KzGlobal.Lib.Runs
open KzGlobal.Krp.Format KzGlobal.Replay.Text

/-! ### The header of the server -/

/-- The fields `kz_rp_update_header` sets in `g_header` on a map. -/
def kzRpUpdateHeader (serverIp serverPort checksum : ℕ) (mapname : Bytes) (g : KrpHeader) :
    KrpHeader :=
  (((((g.setNum .magic krpMagic).setNum .version krpCurrentVersion).setNum .serverIp
    serverIp).setNum
    .serverPort serverPort).setNum .mapChecksum checksum).set .mapName (snprintf 64 mapname)

/-- The values `g_header` takes: zero, then what the updates make of it. -/
inductive GHeader : KrpHeader → Prop
  | zero : GHeader .zero
  | update {g : KrpHeader} (ip port crc : ℕ) (mapname : Bytes) : (0 : UInt8) ∉ mapname → GHeader g →
      GHeader (kzRpUpdateHeader ip port crc mapname g)

/-- `g_header`, as `kz_rp_get_header` copies it. -/
structure ServerHeader where
  header : KrpHeader
  reached : GHeader header

/-- `header.map.name`. -/
def mapName (h : KrpHeader) : Bytes := cstr (h.get .mapName)

/-! ### Signals -/

/-- The packets of the queue with the members of `krp_packet::data` that their handlers read. A run
time is `time * 1000.0f`, truncated. -/
inductive Signal
  | frame (f : KrpFrame)
  | event (id : UInt8)
  | start (ts : ℕ) (steamidShort : CString 35) (nickname : CString 32)
  | pause
  | unpause (steamidShort : CString 35)
  | reject (deleteFile : Bool)
  | finish (timeMs : ℕ) (submit : Bool) (charPrefix : UInt8) (steamidShort : CString 35)
      (nickname : CString 32)
  deriving DecidableEq

/-- What a handler finds outside the queue. -/
structure Env where
  header : ServerHeader
  noSubmit : Bool
  fopenOk : Bool
  renameOk : Bool

/-- An item of the queue, and what the writer finds when it gets to it. -/
structure Input where
  signal : Signal
  env : Env

/-- The fields of an ADD_RECORD message. -/
structure AddRecord where
  steamid : Bytes
  mapName : Bytes
  timeMs : ℕ
  checkpoints : ℕ
  gochecks : ℕ
  localUid : Bytes
  deriving DecidableEq

/-- What a FINISH leaves for the others: a renamed file, and the compression or submission of it. -/
inductive Output
  | saved (uid path : Bytes)
  | compress (path : Bytes)
  | addRecord (r : AddRecord)
  deriving DecidableEq

/-! ### The state -/

/-- An open `FILE*`: the path it was opened at and its position. -/
structure Handle where
  path : Bytes
  pos : ℕ
  deriving DecidableEq

/-- The entries of the static arrays for one player. -/
structure Entries where
  fd : Option Handle
  last : KrpFrame
  counter : ℕ
  checkpoints : ℕ
  gochecks : ℕ
  filepath : Bytes

/-- The entries for one player, and the disk. -/
structure Slot extends Entries where
  disk : Disk Bytes UInt8

/-- An open file of bytes. -/
abbrev File := OpenFile UInt8

/-- A frame of zero bytes. -/
def zeroFrame : KrpFrame := ⟨List.replicate sizeofKrpFrame 0, List.length_replicate⟩

/-- The entries the thread begins with. -/
def Entries.init : Entries := ⟨none, zeroFrame, 0, 0, 0, []⟩

/-- The state the thread begins in. -/
def Slot.init (disk : Disk Bytes UInt8) : Slot := ⟨.init, disk⟩

/-- The stream behind a handle. -/
def Slot.file (s : Slot) (fd : Handle) : File := ⟨(s.disk fd.path).getD [], fd.pos⟩

/-- What was done to the stream reaches the disk. -/
def Slot.sync (s : Slot) (fd : Handle) (fp : File) : Slot :=
  { s with disk := s.disk.store fd.path fp.bytes, fd := some ⟨fd.path, fp.pos⟩ }

/-! ### Header fields of an open file -/

/-- `kz_rp_timestamp_from_header`; the position is put back. -/
def kzRpTimestampFromHeader (fp : File) : ℕ × File :=
  let currentPos := fp.pos
  let r := (fp.seek Member.timestamp.field.off).read 8
  (if r.1.length = 8 then le r.1 else 0, r.2.seek currentPos)

/-- `kz_rp_mapname_from_header`; the position is put back. -/
def kzRpMapnameFromHeader (fp : File) : Bytes × File :=
  let currentPos := fp.pos
  let r := (fp.seek Member.mapName.field.off).read 63
  (if r.1.length = 0 then [] else cstr (r.1 ++ [0]), r.2.seek currentPos)

/-- `kz_rp_write_run_to_header`; the position is put back. -/
def kzRpWriteRunToHeader (fp : File) (checkpoints teleports : ℕ) : File :=
  let currentPos := fp.pos
  let fp := (fp.seek Member.runCheckpoints.field.off).write (leBytes 4 checkpoints)
  let fp := (fp.seek Member.runTeleports.field.off).write (leBytes 4 teleports)
  fp.seek currentPos

/-- `kz_rp_run_from_header`: two zeros where one of the reads fails. -/
def kzRpRunFromHeader (fp : File) : (ℕ × ℕ) × File :=
  let currentPos := fp.pos
  let cp := (fp.seek Member.runCheckpoints.field.off).read 4
  let tp := (cp.2.seek Member.runTeleports.field.off).read 4
  (if cp.1.length = 4 ∧ tp.1.length = 4 then (le cp.1, le tp.1) else (0, 0), tp.2.seek currentPos)

/-! ### Records -/

/-- `kz_rp_write_frametype`: a full mask follows the byte of a keyframe. -/
def kzRpWriteFrametype (fp : File) (frametype : UInt8) : File :=
  let fp := fp.write [frametype]
  if frametype = krpFrametypeKeyframe then fp.write (List.replicate sizeofKrpMask 0xFF) else fp

/-- `kz_rp_write_event`. -/
def kzRpWriteEvent (fp : File) (event : UInt8) : File := fp.write [event]

/-- The members `cmd`, `vars` and `glb` of the frame, which are all of it. -/
def kzRpWriteKeyframe (fp : File) (curr : KrpFrame) : File :=
  ((fp.write (curr.bytes.take 48)).write ((curr.bytes.drop 48).take 60)).write (curr.bytes.drop 108)

/-- How byte `i` of the frame differs. -/
def diff (curr last : KrpFrame) (i : ℕ) : UInt8 := curr.byte i ^^^ last.byte i

/-- The mask and the buffer of changed bytes after the first `n` bytes of the frame. -/
def deltaLoop (curr last : KrpFrame) (n : ℕ) : Bytes × Bytes :=
  (List.range n).foldl (fun acc i =>
    if diff curr last i ≠ 0 then
      (acc.1.set (i / 8) (acc.1.getD (i / 8) 0 ||| UInt8.ofNat (2 ^ (i % 8))),
        acc.2 ++ [diff curr last i])
    else acc) (List.replicate sizeofKrpMask 0, [])

/-- `kz_rp_write_delta`: the mask, and the bytes that differ. -/
def kzRpWriteDelta (fp : File) (curr last : KrpFrame) : File :=
  let r := deltaLoop curr last sizeofKrpFrame
  let fp := fp.write r.1
  if 0 < r.2.length then fp.write r.2 else fp

/-! ### Signals -/

section Handlers
variable (dataDir : Bytes) (env : Env)

/-- The header a run starts with. -/
def startHeader (ts : ℕ) (steamidShort : CString 35) (nickname : CString 32) (header : KrpHeader) :
    KrpHeader :=
  ((header.setNum .timestamp ts).set .playerName (snprintf 32 nickname.bytes)).set .playerSteamid
    (snprintf 35 (steamidOf steamidShort.bytes))

/-- A START: the old handle is closed, and a new file opened with its header. -/
def onStart (ts : ℕ) (steamidShort : CString 35) (nickname : CString 32) (s : Slot) : Slot :=
  let s := { s with fd := none }
  let header := env.header.header
  if ¬ kzWsValidReplaySegment steamidShort.bytes ∨ ¬ kzWsValidReplaySegment (mapName header) then s
  else
    let path := tmpPath dataDir (mapName header) steamidShort.bytes
    let header := startHeader ts steamidShort nickname header
    let s := { s with filepath := path }
    let s := if env.fopenOk then s.sync ⟨path, 0⟩ ((⟨[], 0⟩ : File).write header.bytes) else s
    { s with last := zeroFrame, counter := 0, checkpoints := 0, gochecks := 0 }

/-- The counters of an EVENT, which run whether a file is open or not. -/
def countEvent (id : UInt8) (s : Slot) : Slot :=
  if id = krpEventCheckpoint then { s with checkpoints := (s.checkpoints + 1) % 2 ^ 32 }
  else if id = krpEventGocheck then { s with gochecks := (s.gochecks + 1) % 2 ^ 32 }
  else s

/-- An EVENT counts, whether a file is open or not. -/
def onEvent (id : UInt8) (s : Slot) : Slot :=
  match s.fd with
  | some fd =>
    countEvent id
      (s.sync fd (kzRpWriteEvent (kzRpWriteFrametype (s.file fd) krpFrametypeEvent) id))
  | none => countEvent id s

/-- A FRAME: a keyframe where the counter is zero, else what has changed. -/
def onFrame (curr : KrpFrame) (s : Slot) : Slot :=
  match s.fd with
  | some fd =>
    let fp := s.file fd
    let fp := if s.counter = 0 then
        kzRpWriteKeyframe (kzRpWriteFrametype fp krpFrametypeKeyframe) curr
      else kzRpWriteDelta (kzRpWriteFrametype fp krpFrametypeDelta) curr s.last
    { s.sync fd fp with last := curr, counter := s.counter + 1 }
  | none => s

/-- A PAUSE writes the counts to the header and closes the file. -/
def onPause (s : Slot) : Slot :=
  match s.fd with
  | some fd =>
    { s.sync fd (kzRpWriteRunToHeader (s.file fd) s.checkpoints s.gochecks) with fd := none }
  | none => s

/-- An UNPAUSE opens the file again, and takes the counts from its header. -/
def onUnpause (steamidShort : CString 35) (s : Slot) : Slot :=
  let header := env.header.header
  if ¬ kzWsValidReplaySegment steamidShort.bytes ∨ ¬ kzWsValidReplaySegment (mapName header) then s
  else
    let path := tmpPath dataDir (mapName header) steamidShort.bytes
    let s := { s with filepath := path, fd := none, counter := 0 }
    match s.disk path, env.fopenOk with
    | some bytes, true =>
      let r := kzRpRunFromHeader (⟨bytes, 0⟩ : File).seekEnd
      { s.sync ⟨path, 0⟩ r.2 with checkpoints := r.1.1, gochecks := r.1.2 }
    | _, _ => s

/-- A REJECT closes the file, and deletes it where it is asked to. -/
def onReject (deleteFile : Bool) (s : Slot) : Slot :=
  let s := match s.fd with
    | some _ =>
      let s := { s with fd := none }
      if deleteFile then { s with disk := s.disk.unlink s.filepath } else s
    | none => s
  { s with checkpoints := 0, gochecks := 0 }

/-- `strncpy` of a nickname into `player.name`, which pads with NULs. -/
def paddedName (nickname : CString 32) : Bytes :=
  nickname.bytes ++ List.replicate (32 - nickname.bytes.length) 0

/-- The header a finished run gets. -/
def finishHeader (nickname : CString 32) (s : Slot) (header : KrpHeader) : KrpHeader :=
  ((header.set .playerName (paddedName nickname)).setNum .runCheckpoints s.checkpoints).setNum
    .runTeleports s.gochecks

/-- The file of a finished run once its header is rewritten; a file too short for a header is left
as it is. -/
def finishFile (nickname : CString 32) (s : Slot) (fp : File) : File :=
  let r := (fp.seek 0).read sizeofKrpHeader
  if h : r.1.length = sizeofKrpHeader then
    (r.2.seek 0).write (finishHeader nickname s ⟨r.1, h⟩).bytes
  else r.2

/-- What follows a successful rename. -/
def finishOutputs (timeMs : ℕ) (submit : Bool) (steamidShort : CString 35)
    (mapname uid npath : Bytes) (s : Slot) : List Output :=
  if ¬ submit ∨ env.noSubmit then [.compress npath]
  else [.addRecord {
    steamid := cstr (snprintf 35 (steamidOf steamidShort.bytes))
    mapName := mapname
    timeMs := timeMs
    checkpoints := s.checkpoints
    gochecks := s.gochecks
    localUid := uid }]

/-- `npath`, before it is cut to the buffer of `new_path`. -/
def finishPath (uid : Bytes) : Bytes :=
  replaceExtension (joinPath (replaysDir dataDir) uid) (str ".krpr")

/-- A FINISH: the header is completed, the file renamed and the record handed on. -/
def onFinish (timeMs : ℕ) (submit : Bool) (charPrefix : UInt8) (steamidShort : CString 35)
    (nickname : CString 32) (s : Slot) : Slot × List Output :=
  match s.fd with
  | none => (s, [])
  | some fd =>
    let name := kzRpMapnameFromHeader (s.file fd)
    if ¬ kzWsValidReplaySegment steamidShort.bytes ∨ ¬ kzWsValidReplaySegment name.1 then
      ({ s with fd := none, disk := s.disk.unlink s.filepath }, [])
    else
      let ts := kzRpTimestampFromHeader name.2
      let uid := uidStr s.gochecks (timeMs % 2 ^ 32) steamidShort.bytes ts.1 env.noSubmit charPrefix
      let npath := finishPath dataDir uid
      let newPath := npath.take 254
      let s := { s.sync fd (finishFile nickname s ts.2) with fd := none }
      match s.disk.rename s.filepath newPath, env.renameOk with
      | some disk, true =>
        ({ s with disk }, .saved uid newPath ::
          finishOutputs env timeMs submit steamidShort name.1 uid npath s)
      | _, _ => (s, [])

end Handlers

/-- **One signal.** -/
def step (dataDir : Bytes) (s : Slot) (i : Input) : Slot × List Output :=
  match i.signal with
  | .start ts steamidShort nickname => (onStart dataDir i.env ts steamidShort nickname s, [])
  | .event id => (onEvent id s, [])
  | .frame f => (onFrame f s, [])
  | .pause => (onPause s, [])
  | .unpause steamidShort => (onUnpause dataDir i.env steamidShort s, [])
  | .reject deleteFile => (onReject deleteFile s, [])
  | .finish timeMs submit charPrefix steamidShort nickname =>
    onFinish dataDir i.env timeMs submit charPrefix steamidShort nickname s

/-- The state after one signal. -/
def next (dataDir : Bytes) (s : Slot) (i : Input) : Slot := (step dataDir s i).1

end KzGlobal.Replay.Writer
