import KzGlobal.Storage.Queue
import KzGlobal.Replay.Text

/-! # Requests of plugins

A plugin asks for the details of a map and names a function for the answer, which is registered as a
forward. The forward is called at once where the answer is known; otherwise it waits in
`g_plugin_callbacks` under the id of the WANT_MAP_INFO that is saved, and the callback of the reply
calls it on the main thread. Forwards are named by the order in which they were registered: the
number that the host gives may name another one once a forward is released. The WebSocket thread
handles a reply and then deletes the row with its id, so the main thread comes in between. The
sending of messages is left out, and the fetch that a MAP_INFO may start is one of the messages that
are saved besides. -/

namespace KzGlobal.Plugins.Callbacks

open KzGlobal.Lib.Autoincrement KzGlobal.Krp.Format KzGlobal.Replay.Text KzGlobal.Storage.Queue

/-! ### The answer -/

/-- What a plugin learns of a map: `szWR_Pro`, `szWR_Noob` and `map_props`. -/
structure MapInfo where
  wrPro : Bytes
  wrNoob : Bytes
  type : ℤ
  length : ℤ
  difficulty : ℤ
  deriving DecidableEq

/-- The members of `data` in a MAP_INFO, where they are there and of their type. `mapName` is empty
where `data.map_name` holds no text. -/
structure MapInfoData where
  mapName : Option Bytes
  wrProSteamid : Option Bytes
  wrProTimeMs : ℤ
  wrNubSteamid : Option Bytes
  wrNubTimeMs : ℤ
  type : Option ℤ
  length : Option ℤ
  difficulty : Option ℤ

/-- `%0nlld`. -/
def decimalWide (n value : ℕ) : Bytes :=
  let ds := digits 10 19 value []
  List.replicate (n - ds.length) 48 ++ ds

/-- `kz_ws_format_time`: minutes, seconds and milliseconds. -/
def kzWsFormatTime (timeMs : ℤ) : Bytes :=
  let t := timeMs.toNat
  (decimalWide 1 (t / 60000) ++ str ":" ++ decimalWide 2 (t % 60000 / 1000) ++ str "." ++
    decimalWide 3 (t % 1000)).take 31

/-- `"%s (%s)"` of a player and a time, in a buffer of 128 bytes, where there is a player. -/
def formatRecord (steamid : Option Bytes) (timeMs : ℤ) : Bytes :=
  match steamid with
  | none => []
  | some sid => if sid = [] then []
    else (sid ++ str " (" ++ kzWsFormatTime timeMs ++ str ")").take 127

/-- A callback of a MAP_INFO in the incoming queue. -/
structure MapInfoReply where
  msgId : ℕ
  map : Bytes
  info : MapInfo
  deriving DecidableEq

/-- The handler of a MAP_INFO, up to the callback it returns. -/
def kzWsAckMapInfo (data : MapInfoData) (msgId : ℕ) : Option MapInfoReply :=
  match data.mapName with
  | none => none
  | some mapName => some {
      msgId := msgId
      map := mapName.take 63
      info := {
        wrPro := formatRecord data.wrProSteamid data.wrProTimeMs
        wrNoob := formatRecord data.wrNubSteamid data.wrNubTimeMs
        type := data.type.getD (-1)
        length := data.length.getD (-1)
        difficulty := data.difficulty.getD (-1) } }

/-- The handler of a HELLO_ACK: its map info has no id. -/
def kzWsAckHello (hasHeartbeat : Bool) (mapInfo : Option MapInfoData) : Option MapInfoReply :=
  if hasHeartbeat then mapInfo.bind fun data => kzWsAckMapInfo data 0 else none

/-! ### The state -/

/-- The calls that are made with a forward. -/
inductive Call
  | execute (fwd : ℕ) (map : Bytes) (info : MapInfo)
  | unregister (fwd : ℕ)
  deriving DecidableEq

/-- The texts of the messages. -/
inductive Request
  | wantMapInfo (mapname : Bytes)
  | other
  deriving DecidableEq

/-- The storage, the map of the engine, `g_current_map_info` and `g_plugin_callbacks`, the number of
forwards and the calls made with them so far, what waits in the incoming queue, and the id that the
WebSocket thread is about to delete. -/
structure PluginState where
  store : Store Request
  mapname : Bytes
  updated : Bool
  currentMapInfo : MapInfo
  pluginCallbacks : ℕ → Option ℕ
  forwards : ℕ
  calls : List Call
  incoming : List MapInfoReply
  deleting : Option ℕ

/-- What the process starts with. -/
def PluginState.init (tables : StorageTable → Table (Stored Request)) : PluginState where
  store := ⟨tables, [], 0⟩
  mapname := []
  updated := false
  currentMapInfo := ⟨[], [], 0, 0, 0⟩
  pluginCallbacks := fun _ => none
  forwards := 0
  calls := []
  incoming := []
  deleting := none

/-! ### The functions -/

/-- `kz_call_map_info_forward`: the forward is executed and then unregistered. -/
def kzCallMapInfoForward (fwd : ℕ) (map : Bytes) (info : MapInfo) (s : PluginState) : PluginState :=
  { s with calls := s.calls ++ [.execute fwd map info, .unregister fwd] }

/-- The native. A plugin without the function it names registers nothing. -/
def kzApiGetMapDetails (now : ℤ) (mapname : Bytes) (hasHandler : Bool) (s : PluginState) :
    PluginState :=
  if hasHandler then
    let fwd := s.forwards
    let s := { s with forwards := s.forwards + 1 }
    if mapname = s.mapname ∧ s.updated then kzCallMapInfoForward fwd mapname s.currentMapInfo s
    else
      let msgId := kzStorageGetNextId .outgoingQueue s.store
      { s with
        pluginCallbacks := Function.update s.pluginCallbacks msgId (some fwd)
        store := kzStorageSave now (.wantMapInfo mapname) msgWantMapInfo msgId
          .outgoingQueue s.store }
  else s

/-- The callback of a MAP_INFO. -/
def onMapInfo (r : MapInfoReply) (s : PluginState) : PluginState :=
  match s.pluginCallbacks r.msgId with
  | some fwd => kzCallMapInfoForward fwd r.map r.info s
  | none => if r.map = s.mapname then { s with currentMapInfo := r.info, updated := true } else s

/-- The main thread takes a callback from the incoming queue. -/
def runCallback (s : PluginState) : PluginState :=
  match s.incoming with
  | [] => s
  | r :: rest => onMapInfo r { s with incoming := rest }

/-- The WebSocket thread has handled a message with an id. Where the incoming queue stays full the
callback is lost and the message is not deleted. -/
def receive (reply : Option MapInfoReply) (msgId : ℕ) (pushed : Bool) (s : PluginState) :
    PluginState :=
  if s.deleting = none then
    match reply, pushed with
    | some _, false => s
    | some r, true =>
      { s with incoming := s.incoming ++ [r], deleting := if 0 < msgId then some msgId else none }
    | none, _ => { s with deleting := if 0 < msgId then some msgId else none }
  else s

/-- The message that was answered is deleted, after the handler. -/
def deleteMsg (s : PluginState) : PluginState :=
  match s.deleting with
  | some msgId => { s with store := kzStorageDelete msgId .outgoingQueue s.store, deleting := none }
  | none => s

/-- The forward of one entry of the retry queue is released on a map change. -/
def releaseEntry (s : PluginState) (r : RetryMsg Request) : PluginState :=
  if r.msgType = msgWantMapInfo then
    match s.pluginCallbacks r.msgId with
    | some fwd =>
      { s with
        calls := s.calls ++ [.unregister fwd]
        pluginCallbacks := Function.update s.pluginCallbacks r.msgId none }
    | none => s
  else s

/-- `kz_storage_clear`: the forwards of the entries are released, and rows and entries go. -/
def storageClear (s : PluginState) : PluginState :=
  let s := s.store.retryQueue.foldl releaseEntry s
  { s with store := kzStorageClear s.store }

/-! ### The machine -/

/-- One step of a thread. A message is handled with its id; the other messages are those that are
saved or answered besides. -/
inductive Event
  | getMapDetails (now : ℤ) (mapname : Bytes) (hasHandler : Bool)
  | mapInfo (data : MapInfoData) (msgId : ℕ) (pushed : Bool)
  | helloAck (hasHeartbeat : Bool) (data : Option MapInfoData) (msgId : ℕ) (pushed : Bool)
  | answerOther (msgId : ℕ)
  | deleteMsg
  | runCallback
  | saveOther (now : ℤ) (msgType : ℕ) (table : StorageTable)
  | retryPass (isEmpty : Request → Bool) (delay maxRetries ts : ℤ)
  | requeueAllPending
  | storageClear
  | changeMap (mapname : Bytes)
  | mapLoaded
  | storageLoad

/-- What an event makes of the questions of the plugins. -/
def next (s : PluginState) : Event → PluginState
  | .getMapDetails now mapname hasHandler => kzApiGetMapDetails now mapname hasHandler s
  | .mapInfo data msgId pushed => receive (kzWsAckMapInfo data msgId) msgId pushed s
  | .helloAck hasHeartbeat data msgId pushed =>
    receive (kzWsAckHello hasHeartbeat data) msgId pushed s
  | .answerOther msgId => receive none msgId true s
  | .deleteMsg => deleteMsg s
  | .runCallback => runCallback s
  | .saveOther now msgType table =>
    { s with
      store := kzStorageSave now .other msgType (kzStorageGetNextId table s.store) table s.store }
  | .retryPass isEmpty delay maxRetries ts =>
    { s with store := { s.store with
      retryQueue := (retryPass isEmpty delay maxRetries ts s.store.retryQueue).1 } }
  | .requeueAllPending => { s with store := kzStorageRequeueAllPending s.store }
  | .storageClear => storageClear s
  | .changeMap mapname => { s with mapname := mapname }
  | .mapLoaded => { s with updated := false }
  | .storageLoad => { s with store := kzStorageLoad s.store }

end KzGlobal.Plugins.Callbacks
