import KzGlobal.Krp.Codec
import KzGlobal.Replay.Paths
import KzGlobal.Storage.Ledger

/-! # Submission and upload of runs

The module as a whole: the writer thread that saves runs, the storage, the WebSocket thread that
handles the server's replies, the main thread that runs their callbacks and retries messages, and
the threads that upload and compress replays. An event is one step of one thread; an allocation of
an id and the save under it are one step. File and database operations succeed. What is left out of
the threads: the log, the bots, the downloads' transfers, and messages in flight: the server may
answer whatever was saved. -/

namespace KzGlobal.Submit.System

open KzGlobal.Lib.Stdio KzGlobal.Lib.Autoincrement KzGlobal.Krp.Format KzGlobal.Krp.Codec
open KzGlobal.Replay.Text KzGlobal.Replay.Writer KzGlobal.Replay.Paths
open KzGlobal.Storage.Queue KzGlobal.Storage.Ledger

/-! ### Data -/

/-- The text of a message: the JSON of an ADD_RECORD, which the error handler parses again, the JSON
of any other message, or the uid of an upload. -/
inductive Text
  | addRecord (r : AddRecord)
  | json (text : Bytes)
  | uid (localUid : Bytes)
  deriving DecidableEq

/-- A text that is not sent; a record's is never empty. -/
def Text.isEmpty : Text → Bool
  | .addRecord _ => false
  | .json text => text.isEmpty
  | .uid localUid => localUid.isEmpty

/-- The messages that are saved besides ADD_RECORD. -/
inductive OtherMsg
  | mapChange
  | playerJoin
  | playerLeave
  | wantMapInfo
  | getReplay

/-- The type of a message. -/
def OtherMsg.msgType : OtherMsg → ℕ
  | .mapChange => msgMapChange
  | .playerJoin => msgPlayerJoin
  | .playerLeave => msgPlayerLeave
  | .wantMapInfo => msgWantMapInfo
  | .getReplay => msgGetReplay

/-- `ws_upload`; its id is always 0. -/
structure Upload where
  filepath : Bytes
  localUid : Bytes
  deriving DecidableEq

/-- What the handlers of the WebSocket thread leave to the main thread. -/
inductive Callback
  | upload (metadata : Upload)
  | requeue (uid : Bytes)
  | discard (uid : Bytes)
  | deleteRecord (mapname uid : Bytes)
  | downloaded (mapname uid body : Bytes)
  | other
  deriving DecidableEq

/-- A message of the server, with the fields that its handler reads; a field may be missing. -/
inductive Reply
  | recordAck (localUid : Option Bytes)
  | fileAck (localUid : Option Bytes) (status : Bool)
  | error (hasMessage : Bool)
  | delRecordNotify (mapname localUid : Option Bytes)
  | other (hasCallback : Bool)

/-- The capacity of the queue of uploads. -/
def uploadQueueSize : ℕ := 64

/-- The capacity of the queue of the compressor. -/
def compressQueueSize : ℕ := 32

/-- The capacity of the queue of callbacks. -/
def incomingQueueSize : ℕ := 64

/-- The state of the module. The last four fields are what happened so far: messages saved, uids of
finished runs, uids whose upload was sent, and uids that the server accepted or refused. No function
reads them. -/
structure Sys where
  disk : Disk Bytes UInt8
  players : ℕ → Entries
  store : Store Text
  active : Finset Bytes
  uploadQueue : List Upload
  uploading : Bool
  compressQueue : List Bytes
  incoming : List Callback
  handled : Option (Option Callback × ℕ)
  saved : List (Saved Text)
  finished : List Bytes
  sent : List Bytes
  answered : List Bytes

/-- The system at the start, on this disk. -/
def Sys.init (disk : Disk Bytes UInt8) : Sys :=
  ⟨disk, fun _ => .init, .empty, ∅, [], false, [], [], none, [], [], [], []⟩

/-- `kz_storage_save` under the id of `kz_storage_get_next_id`. -/
def Sys.save (now : ℤ) (text : Text) (msgType : ℕ) (table : StorageTable) (s : Sys) : Sys :=
  { s with
    store := kzStorageSave now text msgType (kzStorageGetNextId table s.store) table s.store
    saved := s.saved ++ [⟨table, kzStorageGetNextId table s.store, msgType, text⟩] }

/-- `kz_ws_release_active_upload`. -/
def kzWsReleaseActiveUpload (uid : Bytes) (s : Sys) : Sys := { s with active := s.active.erase uid }

/-- `g_replay_upload_queue.try_push`. -/
def kzRpCompressAndUploadAsync (upr : Upload) (s : Sys) : Sys × Bool :=
  if s.uploadQueue.length < uploadQueueSize then
    ({ s with uploadQueue := s.uploadQueue ++ [upr] }, true)
  else (s, false)

/-- What the callers of `kz_rp_compress_and_upload_async` do: an upload that finds no room is no
longer active. -/
def uploadOrRelease (upr : Upload) (uid : Bytes) (s : Sys) : Sys :=
  let r := kzRpCompressAndUploadAsync upr s
  if r.2 then r.1 else kzWsReleaseActiveUpload uid s

theorem uploadOrRelease_room {s : Sys} (h : s.uploadQueue.length < uploadQueueSize) (upr : Upload)
    (uid : Bytes) : uploadOrRelease upr uid s =
    { s with uploadQueue := s.uploadQueue ++ [upr] } := by
  unfold uploadOrRelease kzRpCompressAndUploadAsync
  rw [if_pos h]
  rfl

theorem uploadOrRelease_full {s : Sys} (h : ¬ s.uploadQueue.length < uploadQueueSize) (upr : Upload)
    (uid : Bytes) : uploadOrRelease upr uid s = { s with active := s.active.erase uid } := by
  unfold uploadOrRelease kzRpCompressAndUploadAsync
  rw [if_neg h]
  rfl

section Module
variable (dataDir : Bytes)

/-! ### The writer thread -/

/-- What becomes of an output of the writer. -/
def output (now : ℤ) (s : Sys) : Output → Sys
  | .saved uid _ => { s with finished := uid :: s.finished }
  | .compress path =>
    if s.compressQueue.length < compressQueueSize then
      { s with compressQueue := s.compressQueue ++ [path] }
    else s
  | .addRecord r => s.save now (.addRecord r) msgAddRecord .outgoingQueue

/-- The writer's entries of a player, with the disk. -/
def Sys.slot (s : Sys) (player : ℕ) : Slot := ⟨s.players player, s.disk⟩

/-- The writer handles an item; its outputs go to the rest of the system. -/
def onSignal (player : ℕ) (i : Input) (now : ℤ) (s : Sys) : Sys :=
  let r := step dataDir (s.slot player) i
  let s := { s with
    disk := r.1.disk
    players := Function.update s.players player r.1.toEntries }
  r.2.foldl (output now) s

/-! ### The WebSocket thread -/

/-- `kz_ws_ack_record_ack`: the uid is under way and saved; the callback queues the upload. -/
def kzWsAckRecordAck (now : ℤ) (localUid : Option Bytes) (s : Sys) : Sys × Option Callback :=
  match localUid with
  | none => (s, none)
  | some uid =>
    if ¬ kzWsValidReplaySegment uid then (s, none)
    else
      let replay := replayPath dataDir uid (str ".krpr")
      let metadata : Upload := ⟨replay.take 254, uid.take 63⟩
      if (s.disk replay).isSome then
        ({ s with active := insert uid s.active }.save now (.uid metadata.localUid) 0 .uploadQueue,
          some (.upload metadata))
      else (s, none)

/-- The removal of files of a map's directory. Which `.krpz` files these are comes from the listing
of the directory. -/
def kzRpPruneReplays (mapname : Bytes) (names : List Bytes) (disk : Disk Bytes UInt8) :
    Disk Bytes UInt8 :=
  names.foldl (fun disk name =>
    let path := joinPath (joinPath (replaysDir dataDir) mapname) name
    if extension path = str ".krpz" then disk.unlink path else disk) disk

/-- The lambda `cleanup` of `kz_ws_ack_file_ack`. -/
def cleanup (uid : Bytes) (s : Sys) : Sys :=
  { s with
    store := kzStorageDeleteByValue (.uid uid) .uploadQueue (eraseUpload (.uid uid) s.store)
    active := s.active.erase uid }

/-- Moving an accepted replay to the directory of its map: the disk after it, where the raw replay
names a map and the compressed one exists. -/
def moveAccepted (uid : Bytes) (names : List Bytes) (disk : Disk Bytes UInt8) :
    Option (Disk Bytes UInt8) := do
  let filepath := replayPath dataDir uid (str ".krpr")
  let b ← disk filepath
  let mapname := (kzRpMapnameFromHeader ⟨b, 0⟩).1
  if ¬ kzWsValidReplaySegment mapname then none
  else
    let moved ← disk.rename (replaceExtension filepath (str ".krpz"))
      (mapReplayPath dataDir mapname uid (str ".krpz"))
    some (kzRpPruneReplays dataDir mapname names (moved.unlink filepath))

/-- `kz_ws_ack_file_ack`: an accepted replay is moved, and a refused one is asked for again. -/
def kzWsAckFileAck (names : List Bytes) (localUid : Option Bytes) (status : Bool) (s : Sys) :
    Sys × Option Callback :=
  match localUid with
  | none => (s, none)
  | some uid =>
    if ¬ kzWsValidReplaySegment uid then (s, none)
    else
      let uid := uid.take 63
      if status then
        match moveAccepted dataDir uid names s.disk with
        | none => (cleanup uid s, none)
        | some disk => (cleanup uid { s with disk }, some .other)
      else (s, some (.requeue uid))

/-- The row of `outgoing_queue` that `kz_storage_try_get_outgoing` finds. -/
def kzStorageTryGetOutgoing (msgId : ℕ) (s : Store Text) : Option (Stored Text) :=
  ((s.tables .outgoingQueue).rows.find? fun r => r.1 = msgId).map Prod.snd

/-- `kz_ws_ack_error`: the record that failed is discarded. -/
def kzWsAckError (msgId : ℕ) (hasMessage : Bool) (s : Sys) : Option Callback :=
  if msgId = 0 ∨ ¬ hasMessage then none
  else
    match kzStorageTryGetOutgoing msgId s.store with
    | some ⟨msgType, .addRecord r, _⟩ =>
      if msgType = msgAddRecord then some (.discard r.localUid) else none
    | _ => none

/-- `kz_ws_ack_del_record_notify`; both texts must be segments. -/
def kzWsAckDelRecordNotify (mapname localUid : Option Bytes) : Option Callback :=
  match mapname, localUid with
  | some mapname, some uid =>
    if ¬ kzWsValidReplaySegment mapname ∨ ¬ kzWsValidReplaySegment uid then none
    else some (.deleteRecord mapname uid)
  | _, _ => none

/-- The uids of the ADD_RECORD messages with an id. -/
def recordUids (saved : List (Saved Text)) (msgId : ℕ) : List Bytes :=
  saved.filterMap fun m =>
    match m with
    | ⟨.outgoingQueue, id, _, .addRecord r⟩ => if id = msgId then some r.localUid else none
    | _ => none

/-- The uids of runs that a reply settles: an accepted upload, or an error for an ADD_RECORD. -/
def settles (saved : List (Saved Text)) (msgId : ℕ) : Reply → List Bytes
  | .fileAck (some uid) true => [uid]
  | .error _ => recordUids saved msgId
  | _ => []

/-- The handler of a message in `kz_ws_onmessage`. -/
def handler (now : ℤ) (names : List Bytes) (msgId : ℕ) (reply : Reply) (s : Sys) :
    Sys × Option Callback :=
  match reply with
  | .recordAck localUid => kzWsAckRecordAck dataDir now localUid s
  | .fileAck localUid status => kzWsAckFileAck dataDir names localUid status s
  | .error hasMessage => (s, kzWsAckError msgId hasMessage s)
  | .delRecordNotify mapname localUid => (s, kzWsAckDelRecordNotify mapname localUid)
  | .other hasCallback => (s, if hasCallback then some .other else none)

/-! ### The upload and compress threads -/

/-- `krp::compress`, over the compression of `zstd`. -/
def compress (zstd : Bytes → Option Bytes) (krpr : Bytes) : Option Bytes :=
  match validateHeader krpr, buildKrpzBody krpr with
  | .ok _, .ok columnar => zstd columnar
  | _, _ => none

/-- The disk with the compressed file beside the raw one. -/
def kzRpCompressFile (zstd : Bytes → Option Bytes) (file : Bytes) (disk : Disk Bytes UInt8) :
    Option (Disk Bytes UInt8) := do
  let src ← disk file
  if src = [] then none
  else
    let dst ← compress zstd src
    some (disk.store (replaceExtension file (str ".krpz")) dst)

/-- The disk once the file of an upload is open: the compressed one as it is, or the raw one
compressed. -/
def openUpload (zstd : Bytes → Option Bytes) (pathname : Bytes) (disk : Disk Bytes UInt8) :
    Option (Disk Bytes UInt8) :=
  if extension pathname = str ".krpz" then (disk pathname).map fun _ => disk
  else kzRpCompressFile zstd pathname disk

/-- `kz_rp_upload_thread` up to the last chunk of the first upload. An upload that was sent stays
active. -/
def uploadSend (zstd : Bytes → Option Bytes) (s : Sys) : Sys :=
  match s.uploadQueue with
  | [] => s
  | item :: rest =>
    if s.uploading then s
    else
      match openUpload zstd item.filepath s.disk with
      | none => kzWsReleaseActiveUpload item.localUid { s with uploadQueue := rest }
      | some disk => { s with disk, uploading := true, sent := item.localUid :: s.sent }

/-- The thread takes off the queue what it has sent. -/
def uploadPop (s : Sys) : Sys :=
  if s.uploading then { s with uploadQueue := s.uploadQueue.tail, uploading := false } else s

/-- `kz_rp_compress_thread`, for one path. -/
def kzRpCompressThread (zstd : Bytes → Option Bytes) (src : Bytes) (disk : Disk Bytes UInt8) :
    Disk Bytes UInt8 :=
  match kzRpCompressFile zstd src disk with
  | none => disk
  | some disk =>
    match disk src with
    | none => disk
    | some b =>
      let mapname := (kzRpMapnameFromHeader ⟨b, 0⟩).1
      let compressed := replaceExtension src (str ".krpz")
      let dst := joinPath (joinPath (replaysDir dataDir) mapname) (filename compressed)
      if mapname = [] then disk
      else
        match disk.rename compressed dst with
        | none => disk
        | some disk => disk.unlink src

/-! ### The main thread -/

/-- The removal of both files of a uid, in the directory of a map or above. -/
def kzWsDeleteReplayFiles (uid : Bytes) (mapname : Option Bytes) (disk : Disk Bytes UInt8) :
    Disk Bytes UInt8 :=
  if uid = [] then disk
  else
    [str ".krpr", str ".krpz"].foldl (fun disk ext =>
      match mapname with
      | some mapname => disk.unlink (mapReplayPath dataDir mapname uid ext)
      | none => disk.unlink (replayPath dataDir uid ext)) disk

/-- `kz_ws_delete_record_replay`, on the disk. -/
def kzWsDeleteRecordReplay (mapname uid : Bytes) (disk : Disk Bytes UInt8) : Disk Bytes UInt8 :=
  if ¬ kzWsValidReplaySegment mapname ∨ ¬ kzWsValidReplaySegment uid then disk
  else kzWsDeleteReplayFiles dataDir uid (some mapname) disk

/-- The file that a retried upload takes: the compressed one where it exists. -/
def retryPath (uid : Bytes) (disk : Disk Bytes UInt8) : Bytes :=
  let replay := replayPath dataDir uid (str ".krpz")
  if (disk replay).isSome then replay else replaceExtension replay (str ".krpr")

/-- `kz_ws_requeue_replay_upload`: a replay that is there and not under way. -/
def kzWsRequeueReplayUpload (now : ℤ) (uid : Bytes) (s : Sys) : Sys :=
  let replay := retryPath dataDir uid s.disk
  if uid = [] ∨ s.disk replay = none ∨ uid ∈ s.active then s
  else
    uploadOrRelease ⟨replay.take 254, uid.take 63⟩ uid
      ({ s with active := insert uid s.active }.save now (.uid uid) 0 .uploadQueue)

/-- A callback, run while the server is on the map `current`. -/
def runCallback (now : ℤ) (current : Bytes) (s : Sys) : Callback → Sys
  | .upload metadata => uploadOrRelease metadata metadata.localUid s
  | .requeue uid => kzWsRequeueReplayUpload dataDir now uid s
  | .discard uid =>
    { s with
      disk := kzWsDeleteReplayFiles dataDir uid none s.disk
      store := kzStorageDeleteByValue (.uid uid) .uploadQueue s.store
      active := s.active.erase uid }
  | .deleteRecord mapname uid =>
    { s with disk := kzWsDeleteRecordReplay dataDir mapname uid s.disk }
  | .downloaded mapname uid body =>
    if mapname = current then
      { s with disk := s.disk.store (mapReplayPath dataDir mapname uid (str ".krpz")) body }
    else s
  | .other => s

/-- What a retry pass does with an upload. -/
def retryUpload (uid : Bytes) (s : Sys) : Sys :=
  let replay := retryPath dataDir uid s.disk
  if uid ∈ s.active ∨ s.disk replay = none then s
  else
    uploadOrRelease ⟨replay.take 254, uid.take 63⟩ uid { s with active := insert uid s.active }

/-- The retry pass of `kz_ws_run_tasks`. -/
def runRetryPass (delay maxRetries : ℤ) (ts : ℤ) (s : Sys) : Sys :=
  let r := retryPass Text.isEmpty delay maxRetries ts s.store.retryQueue
  let s := { s with store := { s.store with retryQueue := r.1 } }
  match r.2 with
  | some ⟨_, _, _, _, .uploadQueue, .uid uid⟩ => retryUpload dataDir uid s
  | _ => s

/-! ### Events -/

/-- One step of one thread. The WebSocket thread handles a message (`receive`), waits for room in
the queue of callbacks (`push`) or stops waiting (`giveUp`), and then deletes the message that was
answered (`deleteMsg`). -/
inductive Event
  | signal (player : ℕ) (i : Input) (now : ℤ)
  | save (m : OtherMsg) (text : Bytes) (now : ℤ)
  | receive (reply : Reply) (msgId : ℕ) (now : ℤ) (names : List Bytes)
  | push
  | giveUp
  | deleteMsg
  | runTask (now : ℤ) (current : Bytes)
  | retryPass (delay maxRetries : ℤ) (ts : ℤ)
  | clear
  | load
  | requeueAllPending
  | uploadSend
  | uploadPop
  | compress
  | prune (mapname : Bytes) (names : List Bytes)
  | downloaded (mapname uid body : Bytes)
  | restart

/-- The handling of a message, where the thread is not busy with another one. -/
def receive (reply : Reply) (msgId : ℕ) (now : ℤ) (names : List Bytes) (s : Sys) : Sys :=
  match s.handled with
  | some _ => s
  | none =>
    let s := { s with answered := settles s.saved msgId reply ++ s.answered }
    let r := handler dataDir now names msgId reply s
    { r.1 with handled := some (r.2, msgId) }

/-- The handler's callback is queued for the main thread. -/
def push (s : Sys) : Sys :=
  match s.handled with
  | some (some fn, msgId) =>
    if s.incoming.length < incomingQueueSize then
      { s with incoming := s.incoming ++ [fn], handled := some (none, msgId) }
    else s
  | _ => s

/-- The handler gives up where the queue is full; the message is not deleted. -/
def giveUp (s : Sys) : Sys :=
  match s.handled with
  | some (some _, _) => if s.incoming.length < incomingQueueSize then s
    else { s with handled := none }
  | _ => s

/-- The handler deletes the message that was answered. -/
def deleteMsg (s : Sys) : Sys :=
  match s.handled with
  | some (none, msgId) =>
    { s with
      store := if 0 < msgId then kzStorageDelete msgId .outgoingQueue s.store else s.store
      handled := none }
  | _ => s

/-- `kz_ws_run_tasks` runs the first callback. -/
def runTask (now : ℤ) (current : Bytes) (s : Sys) : Sys :=
  match s.incoming with
  | [] => s
  | fn :: rest => runCallback dataDir now current { s with incoming := rest } fn

/-- The compressor takes the next file. -/
def compressNext (zstd : Bytes → Option Bytes) (s : Sys) : Sys :=
  match s.compressQueue with
  | [] => s
  | src :: rest =>
    { s with compressQueue := rest, disk := kzRpCompressThread dataDir zstd src s.disk }

/-- The end of a download, whose map and uid were valid segments. -/
def downloaded (mapname uid body : Bytes) (s : Sys) : Sys :=
  if s.incoming.length < incomingQueueSize ∧ kzWsValidReplaySegment mapname ∧
      kzWsValidReplaySegment uid then
    { s with incoming := s.incoming ++ [.downloaded mapname uid body] }
  else s

/-- The disk and the tables are what is left. -/
def restart (s : Sys) : Sys :=
  { s with
    players := fun _ => .init
    store := { kzStorageLoad s.store with lastTs := 0 }
    active := ∅
    uploadQueue := []
    uploading := false
    compressQueue := []
    incoming := []
    handled := none }

/-- **One step.** -/
def next (zstd : Bytes → Option Bytes) (s : Sys) : Event → Sys
  | .signal player i now => onSignal dataDir player i now s
  | .save m text now => s.save now (.json text) m.msgType .outgoingQueue
  | .receive reply msgId now names => receive dataDir reply msgId now names s
  | .push => push s
  | .giveUp => giveUp s
  | .deleteMsg => deleteMsg s
  | .runTask now current => runTask dataDir now current s
  | .retryPass delay maxRetries ts => runRetryPass dataDir delay maxRetries ts s
  | .clear => { s with store := kzStorageClear s.store }
  | .load => { s with store := kzStorageLoad s.store }
  | .requeueAllPending => { s with store := kzStorageRequeueAllPending s.store }
  | .uploadSend => uploadSend zstd s
  | .uploadPop => uploadPop s
  | .compress => compressNext dataDir zstd s
  | .prune mapname names => { s with disk := kzRpPruneReplays dataDir mapname names s.disk }
  | .downloaded mapname uid body => downloaded mapname uid body s
  | .restart => restart s

end Module

end KzGlobal.Submit.System
