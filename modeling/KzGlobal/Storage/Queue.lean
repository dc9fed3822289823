import KzGlobal.Lib.Autoincrement
import KzGlobal.Lib.Runs

/-! # The message storage

The two tables of `storage.sq3` and `g_retry_queue` with what the functions of `kz_storage.cpp` do
to them. A message is text of any type `τ`; times are seconds. Every statement succeeds, but for an
`INSERT` of an id that is there. The callbacks of map-info requests and the log are left out. -/

namespace KzGlobal.Storage.Queue

open KzGlobal.Lib.Autoincrement

/-! ### Types of messages -/

/-- `WSMsgOut::MAP_CHANGE`. -/
def msgMapChange : ℕ := 2

/-- `WSMsgOut::PLAYER_JOIN`. -/
def msgPlayerJoin : ℕ := 3

/-- `WSMsgOut::PLAYER_LEAVE`. -/
def msgPlayerLeave : ℕ := 4

/-- `WSMsgOut::WANT_MAP_INFO`. -/
def msgWantMapInfo : ℕ := 5

/-- `WSMsgOut::ADD_RECORD`. -/
def msgAddRecord : ℕ := 8

/-- `WSMsgOut::GET_REPLAY`. -/
def msgGetReplay : ℕ := 9

/-- The tables of the database. -/
inductive StorageTable
  | outgoingQueue
  | uploadQueue
  deriving DecidableEq

/-- `retry_msg`. -/
structure RetryMsg (τ : Type) where
  retryCount : ℕ
  msgType : ℕ
  msgId : ℕ
  timestamp : ℤ
  table : StorageTable
  message : τ
  deriving DecidableEq

/-- The columns of a row behind its id. -/
structure Stored (τ : Type) where
  msgType : ℕ
  text : τ
  createdAt : ℤ
  deriving DecidableEq

/-- The tables, the retry queue and the static `last_ts` of `kz_storage_save`. -/
structure Store (τ : Type) where
  tables : StorageTable → Table (Stored τ)
  retryQueue : List (RetryMsg τ)
  lastTs : ℤ

variable {τ : Type}

/-- Both tables and the retry queue are empty. -/
def Store.empty : Store τ := ⟨fun _ => .empty, [], 0⟩

/-- A table is changed; the retry queue stays. -/
def Store.mapTable (s : Store τ) (table : StorageTable) (f : Table (Stored τ) → Table (Stored τ)) :
    Store τ :=
  { s with tables := Function.update s.tables table (f (s.tables table)) }

theorem tables_mapTable_self (s : Store τ) (table : StorageTable)
    (f : Table (Stored τ) → Table (Stored τ)) : (s.mapTable table f).tables table =
    f (s.tables table) :=
  Function.update_self ..

theorem tables_mapTable_of_ne (s : Store τ) {table table' : StorageTable} (h : table' ≠ table)
    (f : Table (Stored τ) → Table (Stored τ)) : (s.mapTable table f).tables table' =
    s.tables table' :=
  Function.update_of_ne h ..

/-! ### The functions -/

/-- `seq + 1`, or 1 where `sqlite_sequence` has no row for the table. -/
def kzStorageGetNextId (table : StorageTable) (s : Store τ) : ℕ := (s.tables table).nextId

/-- `kz_storage_save`: an entry of the retry queue, and a row of the table. -/
def kzStorageSave (now : ℤ) (text : τ) (msgType msgId : ℕ) (table : StorageTable) (s : Store τ) :
    Store τ :=
  let ts := if now - s.lastTs < 5 then now + 5 else now
  let s := { s with
    lastTs := now
    retryQueue := s.retryQueue ++ [RetryMsg.mk 0 msgType msgId ts table text] }
  s.mapTable table fun t => t.insert msgId ⟨msgType, text, now⟩

/-- `kz_storage_delete`: the entries of the retry queue, and the row. -/
def kzStorageDelete (msgId : ℕ) (table : StorageTable) (s : Store τ) : Store τ :=
  let s := { s with retryQueue := s.retryQueue.filter fun r => !decide (r.msgId = msgId ∧
    r.table = table) }
  s.mapTable table fun t => t.deleteWhere fun r => r.1 = msgId

/-- `DELETE FROM upload_queue WHERE local_uid = ?`; the other table is not touched. -/
def kzStorageDeleteByValue [DecidableEq τ] (value : τ) (table : StorageTable) (s : Store τ) :
    Store τ :=
  match table with
  | .uploadQueue => s.mapTable .uploadQueue fun t => t.deleteWhere fun r => r.2.text = value
  | .outgoingQueue => s

/-- The retry-queue entry that the cleanup of an accepted upload erases. -/
def eraseUpload [DecidableEq τ] (uid : τ) (s : Store τ) : Store τ :=
  { s with retryQueue := s.retryQueue.eraseP fun r => r.table = .uploadQueue ∧ r.message = uid }

/-- The retry-queue entry `kz_storage_load` makes of a row. -/
def loadRow (table : StorageTable) (r : ℕ × Stored τ) : RetryMsg τ :=
  ⟨0, r.2.msgType, r.1, r.2.createdAt, table, r.2.text⟩

/-- `kz_storage_load`: the rows of both tables become the retry queue. -/
def kzStorageLoad (s : Store τ) : Store τ :=
  { s with
    retryQueue := (s.tables .outgoingQueue).rows.map (loadRow .outgoingQueue) ++
      (s.tables .uploadQueue).rows.map (loadRow .uploadQueue) }

/-- The messages that do not survive a map change. -/
def dropsOnClear (r : RetryMsg τ) : Bool :=
  r.msgType = msgWantMapInfo ∨ r.msgType = msgPlayerJoin ∨ r.msgType = msgPlayerLeave

/-- `kz_storage_batch_delete` leaves the retry queue alone. -/
def kzStorageBatchDelete (ids : List ℕ) (table : StorageTable) (s : Store τ) : Store τ :=
  s.mapTable table fun t => t.deleteWhere fun r => r.1 ∈ ids

/-- `delete_list[0]` of `kz_storage_clear`. -/
def deleteList (s : Store τ) : List ℕ :=
  (s.retryQueue.filter fun r => dropsOnClear r && r.table = .outgoingQueue).map RetryMsg.msgId

/-- The rows of `outgoing_queue` go with the messages; the deletion for `upload_queue` is commented
out in the source. -/
def kzStorageClear (s : Store τ) : Store τ :=
  kzStorageBatchDelete (deleteList s) .outgoingQueue
    { s with retryQueue := s.retryQueue.filter fun r => !dropsOnClear r }

/-- `kz_storage_requeue_all_pending`: every entry is due, with no retries counted. -/
def kzStorageRequeueAllPending (s : Store τ) : Store τ :=
  { s with retryQueue := s.retryQueue.map fun r => { r with timestamp := 0, retryCount := 0 } }

/-- `DELETE FROM` a table, with its entries of the retry queue. -/
def kzStorageDeleteAll (table : StorageTable) (s : Store τ) : Store τ :=
  { s with retryQueue := s.retryQueue.filter fun r => r.table ≠ table }.mapTable table fun t =>
    t.deleteWhere fun _ => true

/-- The command `storage requeue` for one id, or for all. -/
def requeue (msgId : Option ℕ) (s : Store τ) : Store τ :=
  { s with retryQueue := s.retryQueue.map fun r =>
      if msgId = none ∨ msgId = some r.msgId then { r with timestamp := 0, retryCount := 0 }
        else r }

/-- The loop over the retry queue in `kz_ws_run_tasks`: what is left of the queue, and the message
the pass sends or uploads. A message that is due is dropped when it is empty, was sent too often or
needs no answer; the first other one is sent, and the pass ends. -/
def retryPass (isEmpty : τ → Bool) (delay maxRetries : ℤ) (ts : ℤ) :
    List (RetryMsg τ) → List (RetryMsg τ) × Option (RetryMsg τ)
  | [] => ([], none)
  | r :: rs =>
    if ts - r.timestamp > delay then
      if isEmpty r.message ∨ r.retryCount > maxRetries then retryPass isEmpty delay maxRetries ts rs
      else if r.msgType = msgPlayerLeave ∨ r.msgType = msgMapChange then
        retryPass isEmpty delay maxRetries ts rs
      else ({ r with timestamp := ts, retryCount := r.retryCount + 1 } :: rs, some r)
    else
      let rest := retryPass isEmpty delay maxRetries ts rs
      (r :: rest.1, rest.2)

end KzGlobal.Storage.Queue
