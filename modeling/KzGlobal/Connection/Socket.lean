import KzGlobal.Lib.Runs
import KzGlobal.Replay.Text
import KzGlobal.Storage.Queue

/-! # The connection

Three threads use the socket. The main thread starts and stops it and sends what is queued or
retried; the WebSocket thread, which runs between a start and the stop, handles the events of the
connection one after the other; the writer thread sends the records it saves. What a thread is in
the middle of is the list of what it still does, and a step is the first item of it. Starting a
socket that runs does nothing, and a stop waits until no event is handled. The log, the handling of
messages and the TLS options are left out, and whether the socket is open is an input of the test
that asks for it. -/

namespace KzGlobal.Connection.Socket

open KzGlobal.Lib.Autoincrement KzGlobal.Krp.Format KzGlobal.Replay.Text KzGlobal.Storage.Queue

/-! ### What the threads do -/

/-- `WSState`. -/
inductive WSState
  | uninitialized
  | initialized
  | connected
  | disconnected
  | disconnectedButWorthRetrying
  deriving DecidableEq

/-- The events that change the state, with the code of a close and the HTTP status of an error. -/
inductive SocketEvent
  | opened
  | closed (code : ℕ)
  | error (httpStatus : ℕ)
  deriving DecidableEq

/-- A step of an event handler. -/
inductive HandlerStep
  | allowAutoReconnect (allowed : Bool)
  | automaticReconnection (on : Bool)
  | setWaits (min max : ℕ)
  | requeueAllPending
  | storeState (st : WSState)
  | buildHello
  | sendHello
  deriving DecidableEq

/-- `kz_ws_forbid_auto_reconnect`: the flag first, then the setting of the socket. -/
def kzWsForbidAutoReconnect : List HandlerStep :=
  [.allowAutoReconnect false, .automaticReconnection false]

/-- The cases of `kz_ws_onmessage`. -/
def kzWsOnmessage : SocketEvent → List HandlerStep
  | .opened =>
    [.allowAutoReconnect true, .automaticReconnection true, .requeueAllPending,
      .storeState .connected, .buildHello, .sendHello]
  | .closed code =>
    if code = 1008 ∨ code = 1003 then kzWsForbidAutoReconnect ++ [.storeState .disconnected]
    else [.storeState .disconnected]
  | .error httpStatus =>
    if httpStatus = 401 ∨ httpStatus = 403 then
      kzWsForbidAutoReconnect ++ [.storeState .disconnected]
    else if httpStatus = 429 ∨ httpStatus = 500 ∨ httpStatus = 502 then
      [.setWaits 10000 30000, .storeState .disconnectedButWorthRetrying]
    else [.storeState .disconnectedButWorthRetrying]

/-- What a frame finds: how many tasks it may still do once the callbacks ran, whether the socket is
open, the settings of retries and the time. -/
structure Frame where
  tasks : ℕ
  readyOpen : Bool
  retriesDelay : ℤ
  retriesMax : ℤ
  now : ℤ

/-- A step of the main thread. -/
inductive MainStep
  | stop
  | resetAutoReconnectPolicy
  | start (url token : Bytes)
  | configure (url token : Bytes)
  | applyAutoReconnectPolicy
  | startSocket
  | storeInitialized
  | checkConnected (frame : Frame)
  | sendQueued (tasks : ℕ) (frame : Frame)
  | retryPass (frame : Frame)

/-- The body of `kz_ws_start`. -/
def kzWsStart (url token : Bytes) : List MainStep :=
  if url = [] ∨ token = [] then []
  else if ¬ str "wss://" <+: url then []
  else [.configure url token, .applyAutoReconnectPolicy, .startSocket, .storeInitialized]

/-- The command `reconnect`. -/
def reconnect (st : WSState) (url token : Bytes) : List MainStep :=
  if url = [] ∨ token = [] then []
  else (if st ≠ .uninitialized then [.stop] else []) ++ [.start url token]

/-- The end of `KZ_Cvar_DirectSet` for a change of the url or the token. -/
def settingsChanged (st : WSState) (url token : Bytes) : List MainStep :=
  if url = [] ∨ token = [] then []
  else
    (if st ≠ .uninitialized then [.stop] else []) ++ [.resetAutoReconnectPolicy, .start url token]

/-! ### The state -/

variable {τ : Type}

/-- The text messages that are handed to the socket: a HELLO with its map name, or one that was
saved. -/
inductive Sent (τ : Type)
  | hello (mapName : Bytes)
  | text (message : τ)
  deriving DecidableEq

/-- `g_websocket_state` and the policy of reconnecting, the socket with its settings, the last event
since it was started, what was handed to it since the last Open, the messages that wait, the map
name in the header, and what each thread is in the middle of. -/
structure ConnState (τ : Type) where
  websocketState : WSState
  autoReconnectAllowed : Bool
  url : Bytes
  token : Bytes
  automaticReconnection : Bool
  waits : Option (ℕ × ℕ)
  running : Bool
  lastEvent : Option SocketEvent
  sent : Option (List (Sent τ))
  store : Store τ
  outgoingQueue : List τ
  mapName : Bytes
  hello : Bytes
  main : List MainStep
  handler : List HandlerStep
  writer : Option τ

/-- What the process starts with. -/
def ConnState.init (store : Store τ) : ConnState τ where
  websocketState := .uninitialized
  autoReconnectAllowed := true
  url := []
  token := []
  automaticReconnection := true
  waits := none
  running := false
  lastEvent := none
  sent := none
  store := store
  outgoingQueue := []
  mapName := []
  hello := []
  main := []
  handler := []
  writer := none

/-! ### Steps -/

section Steps
variable (isEmpty : τ → Bool)

/-- A message is handed to the socket. -/
def handOver (m : Sent τ) (s : ConnState τ) : ConnState τ :=
  { s with sent := s.sent.map (· ++ [m]) }

/-- `kz_ws_send_msg` for a message that was saved. -/
def kzWsSendMsg (message : τ) (s : ConnState τ) : ConnState τ :=
  if isEmpty message then s else handOver (.text message) s

/-- A step of an event handler. -/
def onHandlerStep : HandlerStep → ConnState τ → ConnState τ
  | .allowAutoReconnect allowed, s => { s with autoReconnectAllowed := allowed }
  | .automaticReconnection on, s => { s with automaticReconnection := on }
  | .setWaits min max, s => { s with waits := some (min, max) }
  | .requeueAllPending, s => { s with store := kzStorageRequeueAllPending s.store }
  | .storeState st, s => { s with websocketState := st }
  | .buildHello, s => { s with hello := s.mapName }
  | .sendHello, s => handOver (.hello s.hello) s

/-- The thread of the socket makes its next step. -/
def handlerStep (s : ConnState τ) : ConnState τ :=
  match s.handler with
  | [] => s
  | a :: rest => onHandlerStep a { s with handler := rest }

/-- The WebSocket thread gets the next event. The connection begins with an Open and ends with a
Close or an Error. -/
def beginEvent (e : SocketEvent) (s : ConnState τ) : ConnState τ :=
  if s.running = true ∧ s.handler = [] then
    { s with
      lastEvent := some e, sent := if e = .opened then some [] else none,
      handler := kzWsOnmessage e }
  else s

/-- The retry pass of a frame. Uploads are not sent as texts. -/
def retryStep (frame : Frame) (s : ConnState τ) : ConnState τ :=
  let r := retryPass isEmpty frame.retriesDelay frame.retriesMax frame.now s.store.retryQueue
  let s := { s with store := { s.store with retryQueue := r.1 } }
  match r.2 with
  | some entry => if entry.table = .outgoingQueue then kzWsSendMsg isEmpty entry.message s else s
  | none => s

/-- A step of the main thread, with what it still does after it. -/
def onMainStep (rest : List MainStep) : MainStep → ConnState τ → ConnState τ
  | .stop, s =>
    if s.handler = [] then { s with running := false, sent := none, main := rest } else s
  | .resetAutoReconnectPolicy, s => { s with autoReconnectAllowed := true, main := rest }
  | .start url token, s => { s with main := kzWsStart url token ++ rest }
  | .configure url token, s => { s with url := url, token := token, main := rest }
  | .applyAutoReconnectPolicy, s =>
    { s with automaticReconnection := s.autoReconnectAllowed, main := rest }
  | .startSocket, s =>
    if s.running then { s with main := rest }
      else { s with running := true, lastEvent := none, main := rest }
  | .storeInitialized, s => { s with websocketState := .initialized, main := rest }
  | .checkConnected frame, s =>
    if s.websocketState = .connected ∧ frame.readyOpen = true then
      { s with main := .sendQueued frame.tasks frame :: rest }
    else { s with main := rest }
  | .sendQueued tasks frame, s =>
    match s.outgoingQueue, tasks with
    | message :: queue, tasks + 1 =>
      kzWsSendMsg isEmpty message
        { s with outgoingQueue := queue, main := .sendQueued tasks frame :: rest }
    | [], _ + 1 => { s with main := .retryPass frame :: rest }
    | _, 0 => { s with main := rest }
  | .retryPass frame, s => retryStep isEmpty frame { s with main := rest }

/-- The main thread makes its next step. -/
def mainStep (s : ConnState τ) : ConnState τ :=
  match s.main with
  | [] => s
  | a :: rest => onMainStep isEmpty rest a s

/-! ### The machine -/

/-- What the main thread is called for. -/
inductive Call
  | start (url token : Bytes)
  | stop
  | reconnect (url token : Bytes)
  | settingsChanged (url token : Bytes)
  | runTasks (frame : Frame)

/-- The steps of a call of the main thread. -/
def callSteps (st : WSState) : Call → List MainStep
  | .start url token => [.start url token]
  | .stop => [.stop]
  | .reconnect url token => Socket.reconnect st url token
  | .settingsChanged url token => Socket.settingsChanged st url token
  | .runTasks frame => [.checkConnected frame]

/-- One step of a thread: the main thread begins a call or goes on with it, saves a message and
queues it, or changes the map; the WebSocket thread gets an event or goes on with its handler; the
writer thread saves a record or sends it. -/
inductive Event (τ : Type)
  | call (c : Call)
  | mainStep
  | queueMsg (now : ℤ) (text : τ) (msgType : ℕ) (pushed : Bool)
  | changeMap (mapName : Bytes)
  | socketEvent (e : SocketEvent)
  | handlerStep
  | writerSave (now : ℤ) (record : τ)
  | writerSend

/-- A message is saved under the next id. -/
def saveMsg (now : ℤ) (text : τ) (msgType : ℕ) (s : ConnState τ) : ConnState τ :=
  { s with
    store := kzStorageSave now text msgType (kzStorageGetNextId .outgoingQueue s.store)
      .outgoingQueue s.store }

/-- `kz_ws_queue_msg`. -/
def kzWsQueueMsg (text : τ) (pushed : Bool) (s : ConnState τ) : ConnState τ :=
  if isEmpty text ∨ pushed = false then s else { s with outgoingQueue := s.outgoingQueue ++ [text] }

/-- What an event makes of the connection. -/
def next (s : ConnState τ) : Event τ → ConnState τ
  | .call c => if s.main.isEmpty then { s with main := callSteps s.websocketState c } else s
  | .mainStep => mainStep isEmpty s
  | .queueMsg now text msgType pushed =>
    if s.main.isEmpty then kzWsQueueMsg isEmpty text pushed (saveMsg now text msgType s) else s
  | .changeMap mapName => if s.main.isEmpty then { s with mapName := mapName } else s
  | .socketEvent e => beginEvent e s
  | .handlerStep => handlerStep s
  | .writerSave now record =>
    if s.writer.isNone then { saveMsg now record msgAddRecord s with writer := some record } else s
  | .writerSend =>
    match s.writer with
    | some record => kzWsSendMsg isEmpty record { s with writer := none }
    | none => s

end Steps

end KzGlobal.Connection.Socket
