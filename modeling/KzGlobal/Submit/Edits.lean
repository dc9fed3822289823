import KzGlobal.Submit.Upload

/-! # What one step does to the storage

Apart from retry passes, loads and restarts, a step of any thread changes the storage by at most one
of its functions (`edit_next`): a message is saved under the next id, one is deleted, the uploads of
a uid are deleted, the messages of a map are cleared, or all times are reset. -/

namespace KzGlobal.Submit.Edits

open KzGlobal.Lib.Runs KzGlobal.Krp.Format KzGlobal.Replay.Text KzGlobal.Replay.Writer
open KzGlobal.Replay.Saves KzGlobal.Storage.Queue KzGlobal.Storage.Ledger
open KzGlobal.Submit.System

/-- The text of a message that an event may save in a state, with its type and table. -/
def Saves (s : Sys) : Event → Text → ℕ → StorageTable → Prop
  | .signal _ _ _, text, msgType, table =>
    (∃ r, text = .addRecord r) ∧ msgType = msgAddRecord ∧ table = .outgoingQueue
  | .save m json _, text, msgType, table =>
    text = .json json ∧ msgType = m.msgType ∧ table = .outgoingQueue
  | .receive (.recordAck (some uid)) _ _ _, text, msgType, table =>
    (kzWsValidReplaySegment uid = true ∧ text = .uid (uid.take 63)) ∧ msgType = 0 ∧
      table = .uploadQueue
  | .runTask _ _, text, msgType, table =>
    (∃ uid rest, s.incoming = .requeue uid :: rest ∧ text = .uid uid) ∧ msgType = 0 ∧
      table = .uploadQueue
  | _, _, _, _ => False

/-- The storage after one of its functions, where a text that is saved meets `T`. -/
inductive Edit (T : Text → ℕ → StorageTable → Prop) (s : Store Text) : Store Text → Prop
  | keep : Edit T s s
  | save {text : Text} {msgType : ℕ} {table : StorageTable} (now : ℤ) :
      T text msgType table →
        Edit T s (kzStorageSave now text msgType (kzStorageGetNextId table s) table s)
  | delete (id : ℕ) : Edit T s (kzStorageDelete id .outgoingQueue s)
  | accept (uid : Bytes) :
      Edit T s (kzStorageDeleteByValue (.uid uid) .uploadQueue (eraseUpload (.uid uid) s))
  | discard (uid : Bytes) : Edit T s (kzStorageDeleteByValue (.uid uid) .uploadQueue s)
  | clear : Edit T s (kzStorageClear s)
  | requeueAllPending : Edit T s (kzStorageRequeueAllPending s)

/-- The event goes through the retry queue or builds it anew. -/
def Renews : Event → Prop
  | .retryPass _ _ _ => True
  | .load => True
  | .restart => True
  | _ => False

theorem store_uploadOrRelease (upr : Upload) (uid : Bytes) (s : Sys) :
    (uploadOrRelease upr uid s).store = s.store := by
  by_cases hroom : s.uploadQueue.length < uploadQueueSize
  · rw [uploadOrRelease_room hroom]
  · rw [uploadOrRelease_full hroom]

section Steps
variable (dataDir : Bytes) (s : Sys)

theorem edit_signal (player : ℕ) (i : Input) (now : ℤ) :
    Edit (Saves s (.signal player i now)) s.store (onSignal dataDir player i now s).store := by
  unfold onSignal
  dsimp only
  rcases step_saves dataDir (s.slot player) i with hout | ⟨uid, o, -, ho, hout, -⟩
  · rw [hout]
    exact .keep
  · rw [hout, List.foldl_cons, List.foldl_cons, List.foldl_nil]
    rcases ho with rfl | ⟨r, rfl, -⟩
    · unfold output
      dsimp only
      split_ifs <;> exact .keep
    · exact .save now ⟨⟨r, rfl⟩, rfl, rfl⟩

theorem edit_handler (now : ℤ) (names : List Bytes) (msgId : ℕ) (reply : Reply) :
    Edit (Saves s (.receive reply msgId now names)) s.store
      (handler dataDir now names msgId reply s).1.store := by
  cases reply with
  | recordAck localUid =>
    unfold handler kzWsAckRecordAck
    rcases localUid with _ | uid
    · exact .keep
    · dsimp only
      split_ifs with hv
      · exact .save now ⟨⟨hv, rfl⟩, rfl, rfl⟩
      · exact .keep
      · exact .keep
  | fileAck localUid status =>
    unfold handler kzWsAckFileAck
    rcases localUid with _ | uid
    · exact .keep
    · dsimp only
      split_ifs
      · split <;> exact .accept _
      · exact .keep
      · exact .keep
  | error hasMessage => exact .keep
  | delRecordNotify mapname localUid => exact .keep
  | other hasCallback => exact .keep

theorem edit_runTask (now : ℤ) (current : Bytes) :
    Edit (Saves s (.runTask now current)) s.store (runTask dataDir now current s).store := by
  unfold runTask
  split
  · exact .keep
  · rename_i fn rest hin
    cases fn with
    | upload metadata =>
      unfold runCallback
      rw [store_uploadOrRelease]
      exact .keep
    | requeue uid =>
      unfold runCallback kzWsRequeueReplayUpload
      dsimp only
      split_ifs
      · exact .keep
      · rw [store_uploadOrRelease]
        exact .save now ⟨⟨uid, rest, hin, rfl⟩, rfl, rfl⟩
    | discard uid => exact .discard uid
    | deleteRecord mapname uid => exact .keep
    | downloaded mapname uid body =>
      unfold runCallback
      dsimp only
      split_ifs <;> exact .keep
    | other => exact .keep

theorem edit_receive (reply : Reply) (msgId : ℕ) (now : ℤ) (names : List Bytes) :
    Edit (Saves s (.receive reply msgId now names)) s.store
      (receive dataDir reply msgId now names s).store := by
  unfold receive
  split
  · exact .keep
  · exact edit_handler dataDir { s with answered := settles s.saved msgId reply ++
      s.answered } now names
      msgId reply

/-- **What a step does to the storage.** -/
theorem edit_next (zstd : Bytes → Option Bytes) {e : Event} (he : ¬ Renews e) :
    Edit (Saves s e) s.store (System.next dataDir zstd s e).store := by
  cases e with
  | signal player i now => exact edit_signal dataDir s player i now
  | save m text now => exact .save now ⟨rfl, rfl, rfl⟩
  | receive reply msgId now names => exact edit_receive dataDir s reply msgId now names
  | push =>
    unfold System.next push
    dsimp only
    split
    · split_ifs <;> exact .keep
    · exact .keep
  | giveUp =>
    unfold System.next giveUp
    dsimp only
    split
    · split_ifs <;> exact .keep
    · exact .keep
  | deleteMsg =>
    unfold System.next deleteMsg
    dsimp only
    split
    · dsimp only
      split_ifs
      · exact .delete _
      · exact .keep
    · exact .keep
  | runTask now current => exact edit_runTask dataDir s now current
  | clear => exact .clear
  | requeueAllPending => exact .requeueAllPending
  | uploadSend =>
    unfold System.next uploadSend
    dsimp only
    split
    · exact .keep
    · split_ifs
      · exact .keep
      · split <;> exact .keep
  | uploadPop =>
    unfold System.next uploadPop
    dsimp only
    split_ifs <;> exact .keep
  | compress =>
    unfold System.next compressNext
    dsimp only
    split <;> exact .keep
  | prune mapname names => exact .keep
  | downloaded mapname uid body =>
    unfold System.next downloaded
    dsimp only
    split_ifs <;> exact .keep
  | retryPass delay maxRetries ts => exact absurd trivial he
  | load => exact absurd trivial he
  | restart => exact absurd trivial he

theorem store_runRetryPass (delay maxRetries ts : ℤ) :
    (runRetryPass dataDir delay maxRetries ts s).store = { s.store with
      retryQueue := (retryPass Text.isEmpty delay maxRetries ts s.store.retryQueue).1 } := by
  unfold runRetryPass
  dsimp only
  split
  · unfold retryUpload
    dsimp only
    split_ifs
    · rfl
    · exact store_uploadOrRelease ..
  · rfl

end Steps

end KzGlobal.Submit.Edits
