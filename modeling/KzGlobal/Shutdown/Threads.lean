import KzGlobal.Lib.Runs

/-! # The threads at work

Four threads do the work that the main thread queues: the writer, the uploads, the compression and
the parser. Each goes through its queue, checks under its mutex whether there is more to do and
sleeps on its condition variable until it is notified; the wait of the compression also ends after a
second. A line that a thread logs goes to a queue of 64 entries, which only `kz_log_flush` on the
main thread takes from, and a full queue is tried again until there is room. What an item makes its
thread do is the list of its lines and of the files it hands to the compression. -/

namespace KzGlobal.Shutdown.Threads

/-! ### What the threads do -/

/-- The threads that the main thread joins. -/
inductive Worker
  | writer
  | upload
  | compress
  | parser
  deriving DecidableEq

/-- The queues of log lines. The one of the storage is the writer's own, and the WebSocket thread
logs to `wsLog` too. -/
inductive LogQueue
  | wsLog
  | writerLog
  | uploadLog
  | compressLog
  | parseLog
  | storageLog
  deriving DecidableEq

/-- `g_log_queues`, in the order they were added. -/
def gLogQueues : List LogQueue :=
  [.wsLog, .writerLog, .uploadLog, .compressLog, .parseLog, .storageLog]

/-- What an item makes its thread do: log a line, queue a file whose compression logs some lines, or
notify the compression. -/
inductive Act
  | log (q : LogQueue)
  | compress (lines : List LogQueue)
  | notifyCompress
  deriving DecidableEq

/-- What a thread does before its loop and what it does with an item. -/
inductive Stage
  | init
  | item
  deriving DecidableEq

/-- Where a thread is: in what it does before the loop or with an item, at the condition of the
outer or of the inner loop, at the check of the predicate with the mutex locked, between a false
predicate and the sleep, asleep, or at its end. -/
inductive Pc
  | acting (stage : Stage) (acts : List Act)
  | outer
  | inner
  | locked
  | checked
  | asleep
  | done
  deriving DecidableEq

/-- A thread with its queue and the `nano_ts` of the line it is about to push. -/
structure WorkerState where
  pc : Pc
  queue : List (List Act)
  entry : Option ℕ

/-- The capacity of the queues. -/
def capacity : Worker → ℕ
  | .writer => 4096
  | .upload => 64
  | .compress => 32
  | .parser => 4

/-- The capacity of a log queue. -/
def logCapacity : ℕ := 64

/-- A step of the main thread. -/
inductive MainStep
  | flush (nanoDelay : ℕ)
  | drain (cutoff : ℕ)
  | push (t : Worker) (item : List Act) (notify : Bool)
  | notify (t : Worker)
  | storeKrpRunning
  | storePbRunning
  | join (t : Worker)
  deriving DecidableEq

/-- `kz_rp_uninit`: the flag, the notifies, then the joins. -/
def kzRpUninit : List MainStep :=
  [.storeKrpRunning, .notify .writer, .notify .upload, .notify .compress, .join .writer,
    .join .upload, .join .compress]

/-- `kz_pb_uninit`: the flag, the notify, then the join. -/
def kzPbUninit : List MainStep := [.storePbRunning, .notify .parser, .join .parser]

/-- `FN_GameShutdown` up to the last thread. The delay of the flush is `-1`. -/
def fnGameShutdown : List MainStep := .flush (2 ^ 64 - 1) :: (kzRpUninit ++ kzPbUninit)

/-! ### The state -/

/-- The running flags, the threads, the times of the lines in the log queues, the clock, what the
main thread is in the middle of, and whether the game shuts down. -/
structure ThreadsState where
  krpRunning : Bool
  pbRunning : Bool
  worker : Worker → WorkerState
  logs : LogQueue → List ℕ
  now : ℕ
  main : List MainStep
  shutdown : Bool

/-- After `kz_rp_init` and `kz_pb_init`. The writer begins with `kz_storage_init`, which may log
`lines`. -/
def ThreadsState.init (lines : List LogQueue) : ThreadsState where
  krpRunning := true
  pbRunning := true
  worker
    | .writer => ⟨.acting .init (lines.map .log), [], none⟩
    | _ => ⟨.outer, [], none⟩
  logs _ := []
  now := 0
  main := []
  shutdown := false

/-- The flag that a thread reads. -/
def ThreadsState.running (s : ThreadsState) : Worker → Bool
  | .parser => s.pbRunning
  | _ => s.krpRunning

/-- The state of a thread is set. -/
def ThreadsState.setWorker (t : Worker) (w : WorkerState) (s : ThreadsState) : ThreadsState :=
  { s with worker := Function.update s.worker t w }

/-- The place of a thread is set. -/
def ThreadsState.setPc (t : Worker) (pc : Pc) (s : ThreadsState) : ThreadsState :=
  s.setWorker t { s.worker t with pc := pc }

/-- The queue of a thread is set. -/
def ThreadsState.setQueue (t : Worker) (queue : List (List Act)) (s : ThreadsState) :
    ThreadsState :=
  s.setWorker t { s.worker t with queue := queue }

/-- A thread that sleeps checks its predicate again. -/
def notify (t : Worker) (s : ThreadsState) : ThreadsState :=
  if (s.worker t).pc = .asleep then s.setPc t .locked else s

/-! ### Steps of the threads -/

/-- The next thing a thread does, with what it does after it. -/
def onAct (t : Worker) (stage : Stage) (acts : List Act) : Act → ThreadsState → ThreadsState
  | .log q, s =>
    match (s.worker t).entry with
    | none => s.setWorker t { s.worker t with entry := some s.now }
    | some ts =>
      if (s.logs q).length < logCapacity then
        { s with logs := Function.update s.logs q (s.logs q ++ [ts]) }.setWorker t
          { s.worker t with pc := .acting stage acts, entry := none }
      else s
  | .compress lines, s =>
    if (s.worker .compress).queue.length < capacity .compress then
      (s.setQueue .compress ((s.worker .compress).queue ++ [lines.map .log])).setPc t
        (.acting stage (.notifyCompress :: acts))
    else s.setPc t (.acting stage (.log .writerLog :: .notifyCompress :: acts))
  | .notifyCompress, s => (notify .compress s).setPc t (.acting stage acts)

/-- A step of a thread. The compression takes an item off its queue before it starts with it, the
others when they are done with it. -/
def workerStep (t : Worker) (s : ThreadsState) : ThreadsState :=
  let w := s.worker t
  match w.pc with
  | .acting stage (a :: acts) => onAct t stage acts a s
  | .acting .init [] => s.setPc t .outer
  | .acting .item [] =>
    s.setWorker t { w with pc := .inner, queue := if t = .compress then w.queue else w.queue.tail }
  | .outer => s.setPc t (if s.running t = true ∨ w.queue ≠ [] then .inner else .done)
  | .inner =>
    match w.queue with
    | [] => s.setPc t .locked
    | item :: rest =>
      s.setWorker t
        { w with pc := .acting .item item, queue := if t = .compress then rest else w.queue }
  | .locked => s.setPc t (if w.queue ≠ [] ∨ s.running t = false then .outer else .checked)
  | .checked => s.setPc t .asleep
  | .asleep => s
  | .done => s

/-! ### Steps of the main thread -/

/-- The times up to which `kz_log_flush` takes entries: `now - nano_delay` in 64 bits. -/
def cutoffOf (now nanoDelay : ℕ) : ℕ := (now + 2 ^ 64 - nanoDelay) % 2 ^ 64

/-- The queue with the oldest entry before the cutoff at its front. -/
def oldest (cutoff : ℕ) (logs : LogQueue → List ℕ) : Option LogQueue :=
  (gLogQueues.foldl (fun best q =>
    match (logs q).head?, best with
    | some ts, none => if ts < cutoff then some (q, ts) else none
    | some ts, some (q', ts') => if ts < cutoff ∧ ts < ts' then some (q, ts) else some (q', ts')
    | none, best => best) none).map Prod.fst

/-- A step of the main thread, with what it still does after it. A flush reads the clock and then
takes one entry after the other. -/
def onMainStep (rest : List MainStep) : MainStep → ThreadsState → ThreadsState
  | .flush nanoDelay, s => { s with main := .drain (cutoffOf s.now nanoDelay) :: rest }
  | .drain cutoff, s =>
    match oldest cutoff s.logs with
    | some q => { s with logs := Function.update s.logs q (s.logs q).tail }
    | none => { s with main := rest }
  | .push t item withNotify, s =>
    if (s.worker t).queue.length < capacity t then
      { s.setQueue t ((s.worker t).queue ++ [item]) with
        main := if withNotify then .notify t :: rest else rest }
    else { s with main := rest }
  | .notify t, s => { notify t s with main := rest }
  | .storeKrpRunning, s => { s with krpRunning := false, main := rest }
  | .storePbRunning, s => { s with pbRunning := false, main := rest }
  | .join t, s => if (s.worker t).pc = .done then { s with main := rest } else s

/-- The main thread makes its next step. -/
def mainStep (s : ThreadsState) : ThreadsState :=
  match s.main with
  | [] => s
  | a :: rest => onMainStep rest a s

/-! ### The machine -/

/-- What the main thread is called for: a frame, an item that is queued, or the end of the game. -/
inductive Call
  | startFrame
  | queueItem (t : Worker) (item : List Act) (withNotify : Bool)
  | gameShutdown

/-- The steps of a call of the main thread. -/
def callSteps : Call → List MainStep
  | .startFrame => [.flush 50000000]
  | .queueItem t item withNotify => [.push t item withNotify]
  | .gameShutdown => fnGameShutdown

/-- One step: the clock goes on, the main thread begins a call or goes on with it, a thread takes a
step, the wait of the compression times out, or the WebSocket thread pushes a line. -/
inductive Event
  | clock (now : ℕ)
  | call (c : Call)
  | mainStep
  | workerStep (t : Worker)
  | timeout
  | webSocketLog (ts : ℕ)

/-- What an event makes of the threads; the clock does not go back. -/
def next (s : ThreadsState) : Event → ThreadsState
  | .clock now => { s with now := max s.now now }
  | .call c =>
    if s.main = [] ∧ s.shutdown = false then
      { s with main := callSteps c, shutdown := match c with | .gameShutdown => true | _ => false }
    else s
  | .mainStep => mainStep s
  | .workerStep t => workerStep t s
  | .timeout => if (s.worker .compress).pc = .asleep then s.setPc .compress .outer else s
  | .webSocketLog ts =>
    if (s.logs .wsLog).length < logCapacity then
      { s with logs := Function.update s.logs .wsLog (s.logs .wsLog ++ [ts]) }
    else s

end KzGlobal.Shutdown.Threads
