import KzGlobal.Storage.Ledger
import KzGlobal.Submit.Confined

/-! # Fetches and downloads

A map whose replay was asked for is in `g_replay_fetch_pending`, and its GET_REPLAY has a row in the
storage. The reply starts a download on a thread of its own; at its end the body waits in the
incoming queue for the main thread. The WebSocket thread handles a reply and then deletes the row
with the id it carries, so other threads come in between. The files and the engine's time are
inputs. -/

namespace KzGlobal.Fetch.Downloads

open KzGlobal.Lib.Autoincrement KzGlobal.Krp.Format KzGlobal.Replay.Text KzGlobal.Storage.Queue
  KzGlobal.Storage.Ledger KzGlobal.Fetch.Reply

/-- The texts of the messages: GET_REPLAY, and what is built for others. -/
inductive Request
  | getReplay (mapname : Bytes)
  | other
  deriving DecidableEq

/-- `replay_download_retry`. -/
structure DownloadRetry where
  mapname : Bytes
  timestamp : ℤ
  retryCount : ℕ
  deriving DecidableEq

/-- A download thread. -/
structure Download where
  mapname : Bytes
  localUid : Bytes
  deriving DecidableEq

/-- The callback of a download: `ok` where a body came. -/
structure Finished extends Download where
  ok : Bool
  deriving DecidableEq

/-- The storage, the map of the engine and the one that was announced, the pending fetches, the
downloads and what waits in the incoming queue of them, and the id that the WebSocket thread is
about to delete. -/
structure FetchState where
  store : Store Request
  mapname : Bytes
  lastMapLoaded : Bytes
  fetchPending : Finset Bytes
  proUpgradeFailed : Finset Bytes
  downloadRetries : List DownloadRetry
  downloads : List Download
  incoming : List Finished
  deleting : Option ℕ

/-- What the process starts with. -/
def FetchState.init (tables : StorageTable → Table (Stored Request)) : FetchState where
  store := ⟨tables, [], 0⟩
  mapname := []
  lastMapLoaded := []
  fetchPending := ∅
  proUpgradeFailed := ∅
  downloadRetries := []
  downloads := []
  incoming := []
  deleting := none

/-- Settings, the connection, the time, the record of the map and what the folder of a map holds. -/
structure Env where
  replaysDownload : Bool
  connected : Bool
  retriesMax : ℤ
  retriesDelay : ℤ
  now : ℤ
  mapHasProWr : Bool
  localSufficient : Bytes → Bool
  localHasPro : Bytes → Bool

section Functions
variable (env : Env)

/-- A message is saved under the next id. -/
def FetchState.save (text : Request) (msgType : ℕ) (table : StorageTable) (s : FetchState) :
    FetchState :=
  { s with
    store := kzStorageSave env.now text msgType (kzStorageGetNextId table s.store) table s.store }

/-! ### The pending fetches -/

/-- `kz_ws_clear_replay_fetch_pending`. -/
def kzWsClearReplayFetchPending (mapname : Bytes) (s : FetchState) : FetchState :=
  if mapname = [] then s else { s with fetchPending := s.fetchPending.erase mapname }

/-- `kz_ws_clear_replay_fetch_pending_except`: with no map to keep, all are cleared. -/
def kzWsClearReplayFetchPendingExcept (keepMapname : Bytes) (s : FetchState) : FetchState :=
  { s with fetchPending := if keepMapname = [] then ∅ else s.fetchPending.filter (· = keepMapname) }

/-- `kz_ws_clear_replay_pro_upgrade_failed`: with no map, all are cleared. -/
def kzWsClearReplayProUpgradeFailed (mapname : Bytes) (s : FetchState) : FetchState :=
  { s with proUpgradeFailed := if mapname = [] then ∅ else s.proUpgradeFailed.erase mapname }

/-- Whether a GET_REPLAY is sent. -/
def fetches (mapname : Bytes) (s : FetchState) : Bool :=
  env.replaysDownload && kzWsValidReplaySegment mapname && env.connected &&
    decide (mapname ∉ s.fetchPending) && decide (mapname ∉ s.proUpgradeFailed) &&
    !env.localSufficient mapname

/-- `kz_ws_try_fetch_replay`: the map is marked and the question saved. -/
def kzWsTryFetchReplay (mapname : Bytes) (s : FetchState) : FetchState :=
  if fetches env mapname s then
    { s with fetchPending := insert mapname s.fetchPending }.save env
      (.getReplay mapname) msgGetReplay
      .outgoingQueue
  else s

/-! ### Retries of downloads -/

/-- The entries of a map are erased from the list of retries. -/
def eraseRetries (mapname : Bytes) (s : FetchState) : FetchState :=
  { s with downloadRetries := s.downloadRetries.filter (·.mapname ≠ mapname) }

/-- Changes the first entry of a map. -/
def updateFirst (mapname : Bytes) (f : DownloadRetry → DownloadRetry) :
    List DownloadRetry → List DownloadRetry
  | [] => []
  | r :: rs => if r.mapname = mapname then f r :: rs else r :: updateFirst mapname f rs

/-- `kz_ws_schedule_replay_download_retry`: one entry a map, erased after the last attempt. -/
def kzWsScheduleReplayDownloadRetry (mapname : Bytes) (s : FetchState) : FetchState :=
  let timestamp := env.now + env.retriesDelay
  let s :=
    match s.downloadRetries.find? (·.mapname = mapname) with
    | some entry =>
      if env.retriesMax < entry.retryCount + 1 then eraseRetries mapname s
      else
        { s with
          downloadRetries := updateFirst mapname (fun r => ⟨mapname, timestamp, r.retryCount + 1⟩)
            s.downloadRetries }
    | none => { s with downloadRetries := s.downloadRetries ++ [⟨mapname, timestamp, 1⟩] }
  kzWsClearReplayFetchPending mapname s

/-- One map that is due. -/
def processDue (s : FetchState) (mapname : Bytes) : FetchState :=
  if mapname ≠ s.mapname ∨ env.localSufficient mapname then eraseRetries mapname s
  else
    let s := kzWsTryFetchReplay env mapname s
    { s with
      downloadRetries :=
        updateFirst mapname (fun r => { r with timestamp := env.now + env.retriesDelay })
        s.downloadRetries }

/-- The maps whose time has come. -/
def dueMaps (s : FetchState) : List Bytes :=
  (s.downloadRetries.filter fun r => r.timestamp ≤ env.now).map DownloadRetry.mapname

/-- `kz_ws_process_replay_download_retries` does nothing while there is no connection. -/
def kzWsProcessReplayDownloadRetries (s : FetchState) : FetchState :=
  if env.connected then (dueMaps env s).foldl (processDue env) s else s

/-! ### Maps -/

/-- The part of `kz_ws_on_map_loaded` that concerns fetches, with the message of the map change. -/
def kzWsOnMapLoaded (force : Bool) (s : FetchState) : FetchState :=
  if ¬ kzWsValidReplaySegment s.mapname ∨ (force = false ∧ s.mapname = s.lastMapLoaded) then s
  else
    let s := { s with lastMapLoaded := s.mapname.take 63 }
    let s := kzWsClearReplayProUpgradeFailed s.mapname
      (kzWsClearReplayFetchPendingExcept s.mapname s)
    if env.connected then s.save env .other msgMapChange .outgoingQueue else s

/-! ### Replies -/

/-- The WebSocket thread is done with the handler of a message and will delete the row with its
id. -/
def FetchState.answered (msgId : ℕ) (s : FetchState) : FetchState :=
  { s with deleting := if 0 < msgId then some msgId else none }

/-- What the handler of a GET_REPLAY_ACK does with the outcome. -/
def applyOutcome : Outcome → FetchState → FetchState
  | .nothing, s => s
  | .clear mapname, s => kzWsClearReplayFetchPending mapname s
  | .ignoreNub mapname, s =>
    kzWsClearReplayFetchPending mapname
      { s with proUpgradeFailed := insert mapname s.proUpgradeFailed }
  | .download mapname uid, s => { s with downloads := s.downloads ++ [⟨mapname, uid⟩] }

/-- A GET_REPLAY_ACK is handled; its message is deleted afterwards. -/
def onGetReplayAck (url localUid mapName : Field) (msgId : ℕ) (s : FetchState) : FetchState :=
  if s.deleting = none then
    (applyOutcome (kzWsAckGetReplay env.mapHasProWr url localUid mapName) s).answered msgId
  else s

/-- The row of `outgoing_queue` that `kz_storage_try_get_outgoing` finds. -/
def kzStorageTryGetOutgoing (msgId : ℕ) (s : Store Request) : Option (Stored Request) :=
  ((s.tables .outgoingQueue).rows.find? fun r => r.1 = msgId).map Prod.snd

/-- The map of the GET_REPLAY that an ERROR_MSG answers, if it does. -/
def errorMap (hasMessage : Bool) (msgId : ℕ) (s : FetchState) : Option Bytes :=
  if msgId = 0 ∨ hasMessage = false then none
  else
    match kzStorageTryGetOutgoing msgId s.store with
    | some ⟨msgType, .getReplay mapname, _⟩ => if msgType = msgGetReplay then some mapname else none
    | _ => none

/-- The part of `kz_ws_ack_error` that concerns fetches. -/
def kzWsAckError (hasMessage : Bool) (msgId : ℕ) (s : FetchState) : FetchState :=
  match errorMap hasMessage msgId s with
  | none => s
  | some mapname =>
    let failed := mapname ≠ [] ∧ env.mapHasProWr ∧ ¬ env.localHasPro mapname
    kzWsClearReplayFetchPending mapname
      { s with
        proUpgradeFailed :=
          if failed then insert mapname s.proUpgradeFailed else s.proUpgradeFailed }

/-- An ERROR is handled; its message is deleted afterwards. -/
def onErrorMsg (hasMessage : Bool) (msgId : ℕ) (s : FetchState) : FetchState :=
  if s.deleting = none then (kzWsAckError env hasMessage msgId s).answered msgId else s

/-- The message that was answered is deleted, after the handler. -/
def deleteMsg (s : FetchState) : FetchState :=
  match s.deleting with
  | some msgId => { s with store := kzStorageDelete msgId .outgoingQueue s.store, deleting := none }
  | none => s

/-! ### Downloads -/

/-- The end of the thread of a download: the callback is pushed, or where the queue is full a retry
is scheduled. -/
def downloadEnd (i : ℕ) (ok pushed : Bool) (s : FetchState) : FetchState :=
  match s.downloads[i]? with
  | none => s
  | some d =>
    let s := { s with downloads := s.downloads.eraseIdx i }
    if pushed then { s with incoming := s.incoming ++ [⟨d, ok⟩] }
    else kzWsScheduleReplayDownloadRetry env d.mapname s

/-- The callback of a download. The replay is written where nothing fails. -/
def kzWsDownloadReplay (d : Finished) (written : Bool) (s : FetchState) : FetchState :=
  if ¬ d.ok then kzWsScheduleReplayDownloadRetry env d.mapname s
  else if d.mapname ≠ s.mapname then kzWsClearReplayFetchPending d.mapname s
  else if ¬ written then kzWsScheduleReplayDownloadRetry env d.mapname s
  else
    eraseRetries d.mapname (kzWsClearReplayProUpgradeFailed d.mapname
      (kzWsClearReplayFetchPending d.mapname s))

/-- `kz_ws_run_tasks` runs the callback of the first download. -/
def runCallback (written : Bool) (s : FetchState) : FetchState :=
  match s.incoming with
  | [] => s
  | d :: rest => kzWsDownloadReplay env d written { s with incoming := rest }

end Functions

/-! ### The machine -/

/-- One step of a thread. The other messages are those that are saved besides. -/
inductive Event
  | changeMap (mapname : Bytes)
  | mapLoaded (env : Env) (force : Bool)
  | tryFetch (env : Env) (mapname : Bytes)
  | saveOther (env : Env) (msgType : ℕ) (table : StorageTable)
  | getReplayAck (env : Env) (url localUid mapName : Field) (msgId : ℕ)
  | errorMsg (env : Env) (hasMessage : Bool) (msgId : ℕ)
  | deleteMsg
  | downloadEnd (env : Env) (i : ℕ) (ok pushed : Bool)
  | runCallback (env : Env) (written : Bool)
  | downloadRetries (env : Env)
  | retryPass (delay maxRetries ts : ℤ)
  | storageClear
  | storageLoad
  | requeueAllPending
  | storageRequeue (msgId : Option ℕ)
  | storageDelete (table : StorageTable) (msgId : ℕ)
  | storageDeleteAll (table : StorageTable)

/-- What an event makes of the maps that are asked for. -/
def next (s : FetchState) : Event → FetchState
  | .changeMap mapname => { s with mapname := mapname }
  | .mapLoaded env force => kzWsOnMapLoaded env force s
  | .tryFetch env mapname => kzWsTryFetchReplay env mapname s
  | .saveOther env msgType table => s.save env .other msgType table
  | .getReplayAck env url localUid mapName msgId => onGetReplayAck env url localUid mapName msgId s
  | .errorMsg env hasMessage msgId => onErrorMsg env hasMessage msgId s
  | .deleteMsg => deleteMsg s
  | .downloadEnd env i ok pushed => downloadEnd env i ok pushed s
  | .runCallback env written => runCallback env written s
  | .downloadRetries env => kzWsProcessReplayDownloadRetries env s
  | .retryPass delay maxRetries ts =>
    { s with store := { s.store with
      retryQueue := (retryPass (fun _ => false) delay maxRetries ts s.store.retryQueue).1 } }
  | .storageClear => { s with store := kzStorageClear s.store }
  | .storageLoad => { s with store := kzStorageLoad s.store }
  | .requeueAllPending => { s with store := kzStorageRequeueAllPending s.store }
  | .storageRequeue msgId => { s with store := requeue msgId s.store }
  | .storageDelete table msgId => { s with store := kzStorageDelete msgId table s.store }
  | .storageDeleteAll table => { s with store := kzStorageDeleteAll table s.store }

/-! ### What the functions do -/

/-- What a reply leaves: its handler runs where no other message is left to be deleted. -/
theorem handled_iff {P : FetchState → Prop} {s s' : FetchState} {C : Prop} (h : P s)
    (hreply : s.deleting = none → (P s' ↔ C)) :
    P (if s.deleting = none then s' else s) ↔ (s.deleting = none → C) := by
  by_cases hdel : s.deleting = none
  · rw [if_pos hdel, hreply hdel]
    exact ⟨fun hc _ => hc, fun hc => hc hdel⟩
  · rw [if_neg hdel]
    exact iff_of_true h fun hdel' => absurd hdel' hdel

section Specs
variable (env : Env)

theorem fetches_iff {mapname : Bytes} {s : FetchState} : fetches env mapname s = true ↔
    env.replaysDownload = true ∧ kzWsValidReplaySegment mapname = true ∧ env.connected = true ∧
      mapname ∉ s.fetchPending ∧ mapname ∉ s.proUpgradeFailed ∧
      env.localSufficient mapname = false := by
  simp [fetches, and_assoc]

theorem fetches_eq (dataDir : Bytes) (handlers : Submit.Confined.Env) (entries : Bytes → List Bytes)
    (disk : Lib.Stdio.Disk Bytes UInt8) {mapname : Bytes} {s : FetchState}
    (hdown : handlers.replaysDownload = env.replaysDownload)
    (hconn : handlers.connected = env.connected)
    (hblock : handlers.fetchBlocked = decide (mapname ∈ s.fetchPending ∨
      mapname ∈ s.proUpgradeFailed))
    (hlocal : env.localSufficient mapname =
      ((Submit.Confined.kzWsLocalReplayIsSufficient dataDir handlers mapname).run entries disk).2) :
    fetches env mapname s =
    ((Submit.Confined.kzWsTryFetchReplay dataDir handlers mapname).run entries disk).2 := by
  unfold Submit.Confined.kzWsTryFetchReplay
  by_cases hno : ¬ handlers.replaysDownload = true ∨ ¬ kzWsValidReplaySegment mapname = true ∨
      ¬ handlers.connected = true ∨ handlers.fetchBlocked = true
  · rw [if_pos hno, Lib.FileProgram.run_pure, Bool.eq_false_iff, Ne, fetches_iff]
    rintro ⟨h1, h2, h3, h4, h5, -⟩
    rw [hdown, hconn, hblock, decide_eq_true_iff] at hno
    rcases hno with h | h | h | h | h
    · exact h h1
    · exact h h2
    · exact h h3
    · exact h4 h
    · exact h5 h
  · rw [if_neg hno, Lib.FileProgram.Prog.run_bind, ← hlocal]
    change _ = !env.localSufficient mapname
    rw [not_or, not_or, not_or, not_not, not_not, not_not, hdown, hconn, hblock, decide_eq_true_iff,
      not_or] at hno
    obtain ⟨h1, h2, h3, h4, h5⟩ := hno
    simp [fetches, h1, h2, h3, h4, h5]

theorem tryFetch_retries (mapname : Bytes) (s : FetchState) (q : List DownloadRetry) :
    kzWsTryFetchReplay env mapname { s with downloadRetries := q } =
      { kzWsTryFetchReplay env mapname s with downloadRetries := q } := by
  unfold kzWsTryFetchReplay
  have heq : fetches env mapname { s with downloadRetries := q } = fetches env mapname s := rfl
  rw [heq]
  by_cases hf : fetches env mapname s = true
  · rw [if_pos hf, if_pos hf]
    rfl
  · rw [if_neg hf, if_neg hf]

theorem mapname_tryFetch (mapname : Bytes) (s : FetchState) :
    (kzWsTryFetchReplay env mapname s).mapname = s.mapname := by
  unfold kzWsTryFetchReplay
  split_ifs
  · rfl
  · rfl

theorem fetches_tryFetch (mapname : Bytes) (s : FetchState) :
    fetches env mapname (kzWsTryFetchReplay env mapname s) = false := by
  unfold kzWsTryFetchReplay
  split_ifs with hf
  · rw [Bool.eq_false_iff, Ne, fetches_iff]
    rintro ⟨-, -, -, h, -⟩
    exact h (Finset.mem_insert_self ..)
  · simpa using hf

theorem tryFetch_tryFetch (mapname : Bytes) (s : FetchState) :
    kzWsTryFetchReplay env mapname (kzWsTryFetchReplay env mapname s) =
    kzWsTryFetchReplay env mapname s := by
  rw [kzWsTryFetchReplay, fetches_tryFetch]
  exact if_neg Bool.false_ne_true

/-- One map that is due, but for the retries: only the map of the server is fetched. -/
theorem processDue_eq (s : FetchState) (m : Bytes) : ∃ q, processDue env s m =
    { (if m = s.mapname then kzWsTryFetchReplay env m s else s) with downloadRetries := q } := by
  unfold processDue
  by_cases hm : m = s.mapname
  · rw [if_pos hm]
    by_cases hlocal : env.localSufficient m = true
    · have hf : ¬ fetches env m s = true := by
        rw [fetches_iff, hlocal]
        rintro ⟨-, -, -, -, -, h⟩
        cases h
      rw [if_pos (Or.inr hlocal), kzWsTryFetchReplay, if_neg hf]
      exact ⟨_, rfl⟩
    · rw [if_neg (not_or.mpr ⟨not_not.mpr hm, hlocal⟩)]
      exact ⟨_, rfl⟩
  · rw [if_neg hm, if_pos (Or.inl hm)]
    exact ⟨_, rfl⟩

/-- **A pass over the retries** fetches the map of the server at most, where it is due. -/
theorem foldl_processDue (ms : List Bytes) (s : FetchState) :
    ∃ q, ms.foldl (processDue env) s =
      { (if s.mapname ∈ ms then kzWsTryFetchReplay env s.mapname s else s) with
        downloadRetries := q } := by
  induction ms generalizing s with
  | nil =>
    refine ⟨s.downloadRetries, ?_⟩
    rw [if_neg List.not_mem_nil]
    rfl
  | cons m ms ih =>
    obtain ⟨q₁, h₁⟩ := processDue_eq env s m
    obtain ⟨q, hq⟩ := ih (processDue env s m)
    refine ⟨q, ?_⟩
    rw [List.foldl_cons, hq]
    by_cases hm : m = s.mapname
    · -- what is fetched now is not fetched again
      rw [if_pos hm] at h₁
      have hmap : (processDue env s m).mapname = s.mapname := by
        rw [h₁]
        exact mapname_tryFetch ..
      rw [hmap, h₁, hm, tryFetch_retries, tryFetch_tryFetch, if_pos List.mem_cons_self]
      split_ifs <;> rfl
    · rw [if_neg hm] at h₁
      have hmem : s.mapname ∈ m :: ms ↔ s.mapname ∈ ms := by
        rw [List.mem_cons, or_iff_right (Ne.symm hm)]
      rw [h₁, tryFetch_retries]
      by_cases hms : s.mapname ∈ ms
      · rw [if_pos hms, if_pos (hmem.mpr hms)]
      · rw [if_neg hms, if_neg (mt hmem.mp hms)]

/-! ### States alike

Retries, failed upgrades and the announced map are apart from what the fetches hold. -/

/-- Two states with the same storage, fetches, downloads and callbacks. -/
structure Alike (s s' : FetchState) : Prop where
  store : s'.store = s.store
  fetchPending : s'.fetchPending = s.fetchPending
  downloads : s'.downloads = s.downloads
  incoming : s'.incoming = s.incoming
  deleting : s'.deleting = s.deleting

variable {s s' s'' : FetchState} {m mapname : Bytes}

theorem Alike.refl (s : FetchState) : Alike s s := ⟨rfl, rfl, rfl, rfl, rfl⟩

theorem Alike.trans (h : Alike s s') (h' : Alike s' s'') : Alike s s'' where
  store := h'.store.trans h.store
  fetchPending := h'.fetchPending.trans h.fetchPending
  downloads := h'.downloads.trans h.downloads
  incoming := h'.incoming.trans h.incoming
  deleting := h'.deleting.trans h.deleting

theorem Alike.clear (h : Alike s s') (mapname : Bytes) :
    Alike (kzWsClearReplayFetchPending mapname s) (kzWsClearReplayFetchPending mapname s') := by
  unfold kzWsClearReplayFetchPending
  split_ifs
  · exact h
  · exact ⟨h.store, congrArg (·.erase mapname) h.fetchPending, h.downloads, h.incoming, h.deleting⟩

theorem Alike.answered (h : Alike s s') (msgId : ℕ) :
    Alike (s.answered msgId) (s'.answered msgId) :=
  ⟨h.store, h.fetchPending, h.downloads, h.incoming, rfl⟩

theorem alike_failed (s : FetchState) (failed : Finset Bytes) :
    Alike s { s with proUpgradeFailed := failed } :=
  ⟨rfl, rfl, rfl, rfl, rfl⟩

theorem clear_eq (hs : [] ∉ s.fetchPending) (mapname : Bytes) :
    kzWsClearReplayFetchPending mapname s =
    { s with fetchPending := s.fetchPending.erase mapname } := by
  unfold kzWsClearReplayFetchPending
  split_ifs with h
  · rw [h, Finset.erase_eq_of_notMem hs]
  · rfl

theorem alike_schedule (mapname : Bytes) (s : FetchState) :
    Alike (kzWsClearReplayFetchPending mapname s)
    (kzWsScheduleReplayDownloadRetry env mapname s) := by
  unfold kzWsScheduleReplayDownloadRetry
  refine Alike.clear ?_ mapname
  split
  · split_ifs
    · exact ⟨rfl, rfl, rfl, rfl, rfl⟩
    · exact ⟨rfl, rfl, rfl, rfl, rfl⟩
  · exact ⟨rfl, rfl, rfl, rfl, rfl⟩

/-- **A callback** takes the map out of the pending fetches, whatever happens. -/
theorem alike_downloadReplay (d : Finished) (written : Bool) (s : FetchState) :
    Alike (kzWsClearReplayFetchPending d.mapname s) (kzWsDownloadReplay env d written s) := by
  unfold kzWsDownloadReplay
  by_cases hok : ¬ d.ok = true
  · rw [if_pos hok]
    exact alike_schedule env d.mapname s
  rw [if_neg hok]
  by_cases hmap : d.mapname ≠ s.mapname
  · rw [if_pos hmap]
    exact Alike.refl _
  rw [if_neg hmap]
  by_cases hwritten : ¬ written = true
  · rw [if_pos hwritten]
    exact alike_schedule env d.mapname s
  · rw [if_neg hwritten]
    exact ⟨rfl, rfl, rfl, rfl, rfl⟩

theorem downloadEnd_pushed {i : ℕ} {d : Download} (ok : Bool) (h : s.downloads[i]? = some d) :
    downloadEnd env i ok true s =
      { s with downloads := s.downloads.eraseIdx i, incoming := s.incoming ++ [⟨d, ok⟩] } := by
  unfold downloadEnd
  rw [h]
  rfl

theorem alike_downloadEnd {i : ℕ} {d : Download} (ok : Bool) (h : s.downloads[i]? = some d) :
    Alike (kzWsClearReplayFetchPending d.mapname { s with downloads := s.downloads.eraseIdx i })
      (downloadEnd env i ok false s) := by
  unfold downloadEnd
  rw [h]
  exact alike_schedule env d.mapname _

theorem alike_runCallback {d : Finished} {rest : List Finished} (written : Bool)
    (h : s.incoming = d :: rest) :
    Alike (kzWsClearReplayFetchPending d.mapname { s with incoming := rest })
    (runCallback env written s) := by
  unfold runCallback
  rw [h]
  exact alike_downloadReplay env d written _

theorem alike_processRetries (s : FetchState) :
    Alike (if env.connected = true ∧
      s.mapname ∈ dueMaps env s then kzWsTryFetchReplay env s.mapname s else s)
      (kzWsProcessReplayDownloadRetries env s) := by
  unfold kzWsProcessReplayDownloadRetries
  by_cases hconn : env.connected = true
  · rw [if_pos hconn]
    obtain ⟨q, hq⟩ := foldl_processDue env (dueMaps env s) s
    rw [hq]
    by_cases hdue : s.mapname ∈ dueMaps env s
    · rw [if_pos hdue, if_pos ⟨hconn, hdue⟩]
      exact ⟨rfl, rfl, rfl, rfl, rfl⟩
    · rw [if_neg hdue, if_neg fun h => hdue h.2]
      exact ⟨rfl, rfl, rfl, rfl, rfl⟩
  · rw [if_neg hconn, if_neg fun h => hconn h.1]
    exact Alike.refl s

/-- Whether a map is loaded that was not announced yet. -/
def Announces (force : Bool) (s : FetchState) : Prop :=
  kzWsValidReplaySegment s.mapname = true ∧ ¬ (force = false ∧ s.mapname = s.lastMapLoaded)

theorem onMapLoaded_of_not {force : Bool} (h : ¬ Announces force s) :
    kzWsOnMapLoaded env force s = s := by
  refine if_pos ?_
  rw [Announces, not_and_or, not_not] at h
  exact h

theorem alike_onMapLoaded {force : Bool} (h : Announces force s) :
    Alike (if env.connected then
        { s with fetchPending := s.fetchPending.filter (· = s.mapname) }.save env .other
          msgMapChange .outgoingQueue
      else { s with fetchPending := s.fetchPending.filter (· = s.mapname) })
      (kzWsOnMapLoaded env force s) := by
  have hne : s.mapname ≠ [] := by
    intro he
    have hvalid := h.1
    rw [he] at hvalid
    cases hvalid
  have hkeep :
      kzWsClearReplayFetchPendingExcept s.mapname { s with lastMapLoaded := s.mapname.take 63 } =
      { s with
        lastMapLoaded := s.mapname.take 63
        fetchPending := s.fetchPending.filter (· = s.mapname) } := by
    rw [kzWsClearReplayFetchPendingExcept, if_neg hne]
  unfold kzWsOnMapLoaded
  rw [if_neg (not_or.mpr ⟨not_not.mpr h.1, h.2⟩)]
  change Alike _ (if env.connected then FetchState.save env .other msgMapChange .outgoingQueue
    (kzWsClearReplayProUpgradeFailed s.mapname (kzWsClearReplayFetchPendingExcept s.mapname
      { s with lastMapLoaded := s.mapname.take 63 })) else
    (kzWsClearReplayProUpgradeFailed s.mapname (kzWsClearReplayFetchPendingExcept s.mapname
      { s with lastMapLoaded := s.mapname.take 63 })))
  rw [hkeep]
  split_ifs
  · exact ⟨rfl, rfl, rfl, rfl, rfl⟩
  · exact ⟨rfl, rfl, rfl, rfl, rfl⟩

/-! ### The replies -/

/-- The storage has a GET_REPLAY for the map under the id. -/
def Asked (s : Store Request) (mapname : Bytes) (id : ℕ) : Prop :=
  ∃ r ∈ (s.tables .outgoingQueue).rows, r.1 = id ∧ r.2.msgType = msgGetReplay ∧
    r.2.text = .getReplay mapname

theorem tryGetOutgoing_iff {s : Store Request} {msgId : ℕ} {row : Stored Request} :
    kzStorageTryGetOutgoing msgId s = some row ↔ (msgId, row) ∈ (s.tables .outgoingQueue).rows := by
  unfold kzStorageTryGetOutgoing
  constructor
  · intro h
    obtain ⟨r, hr, rfl⟩ := Option.map_eq_some_iff.mp h
    have hid : r.1 = msgId := by simpa using List.find?_some hr
    rw [← hid]
    exact List.mem_of_find?_eq_some hr
  · intro h
    cases hfind : (s.tables .outgoingQueue).rows.find? fun r => r.1 = msgId with
    | none =>
      have hno := List.find?_eq_none.mp hfind _ h
      simp at hno
    | some r =>
      have hid : r.1 = msgId := by simpa using List.find?_some hfind
      have heq : r = (msgId, row) := List.inj_on_of_nodup_map (s.tables .outgoingQueue).nodup
        (List.mem_of_find?_eq_some hfind) h hid
      rw [heq]
      rfl

/-- **The map of an ERROR_MSG** is that of the GET_REPLAY it answers. -/
theorem errorMap_iff {hasMessage : Bool} {msgId : ℕ} : errorMap hasMessage msgId s = some mapname ↔
    hasMessage = true ∧ 0 < msgId ∧ Asked s.store mapname msgId := by
  unfold errorMap
  by_cases hno : msgId = 0 ∨ hasMessage = false
  · rw [if_pos hno]
    refine iff_of_false (Option.some_ne_none _).symm ?_
    rintro ⟨hmsg, hid, -⟩
    rcases hno with h | h
    · exact hid.ne' h
    · rw [hmsg] at h
      cases h
  · rw [if_neg hno]
    rw [not_or, Bool.not_eq_false] at hno
    have hasked : Asked s.store mapname msgId ↔ ∃ row : Stored Request,
        kzStorageTryGetOutgoing msgId s.store = some row ∧ row.msgType = msgGetReplay ∧
          row.text = .getReplay mapname := by
      constructor
      · rintro ⟨⟨_, row⟩, hr, rfl, h⟩
        exact ⟨row, tryGetOutgoing_iff.mpr hr, h⟩
      · rintro ⟨row, hrow, h⟩
        exact ⟨(msgId, row), tryGetOutgoing_iff.mp hrow, rfl, h⟩
    rw [hasked, and_iff_right hno.2, and_iff_right (Nat.pos_of_ne_zero hno.1)]
    split
    · next msgType m _ hrow =>
      rw [hrow]
      simp [eq_comm]
    · next hother =>
      refine iff_of_false (Option.some_ne_none _).symm ?_
      rintro ⟨⟨msgType, text, createdAt⟩, hrow, -, htext⟩
      obtain rfl : text = .getReplay mapname := htext
      exact hother msgType mapname createdAt hrow

theorem ackError_none {hasMessage : Bool} {msgId : ℕ} (h : errorMap hasMessage msgId s = none) :
    kzWsAckError env hasMessage msgId s = s := by
  unfold kzWsAckError
  rw [h]

theorem alike_ackError {hasMessage : Bool} {msgId : ℕ}
    (h : errorMap hasMessage msgId s = some mapname) :
    Alike (kzWsClearReplayFetchPending mapname s) (kzWsAckError env hasMessage msgId s) := by
  unfold kzWsAckError
  rw [h]
  exact (alike_failed s _).clear mapname

theorem applyOutcome_no_map {url localUid mapName : Field} (h : ∀ m, mapName ≠ .text m) :
    applyOutcome (kzWsAckGetReplay env.mapHasProWr url localUid mapName) s = s := by
  rcases outcome_no_map env.mapHasProWr url localUid h with ho | ho
  · rw [ho]
    rfl
  · rw [ho]
    change kzWsClearReplayFetchPending [] s = s
    exact if_pos rfl

theorem alike_applyOutcome {url localUid : Field}
    (h : ¬ Starts env.mapHasProWr url localUid mapname) :
    Alike (kzWsClearReplayFetchPending mapname s)
      (applyOutcome (kzWsAckGetReplay env.mapHasProWr url localUid (.text mapname)) s) := by
  rcases outcome_of_not_starts h with ho | ho
  · rw [ho]
    exact Alike.refl _
  · rw [ho]
    exact (alike_failed s _).clear mapname

/-! ### What holds anyway -/

/-- No fetch is of the empty map. -/
def Named (s : FetchState) : Prop := [] ∉ s.fetchPending

theorem Named.clear (h : Named s) (mapname : Bytes) :
    Named (kzWsClearReplayFetchPending mapname s) := by
  rw [clear_eq h]
  exact fun hmem => h (Finset.mem_of_mem_erase hmem)

theorem Named.alike (h : Named s) (hs : Alike s s') : Named s' := by
  rw [Named, hs.fetchPending]
  exact h

theorem Named.tryFetch (h : Named s) (mapname : Bytes) :
    Named (kzWsTryFetchReplay env mapname s) := by
  unfold kzWsTryFetchReplay
  split_ifs with hf
  · intro hmem
    rcases Finset.mem_insert.mp hmem with he | hmem
    · have hvalid := ((fetches_iff env).mp hf).2.1
      rw [← he] at hvalid
      cases hvalid
    · exact h hmem
  · exact h

theorem Named.mapLoaded (h : Named s) (force : Bool) : Named (kzWsOnMapLoaded env force s) := by
  by_cases ha : Announces force s
  · refine Named.alike ?_ (alike_onMapLoaded env ha)
    have hfilter : [] ∉ s.fetchPending.filter (· = s.mapname) :=
      fun hmem => h (Finset.mem_of_mem_filter _ hmem)
    split_ifs
    · exact hfilter
    · exact hfilter
  · rwa [onMapLoaded_of_not env ha]

theorem Named.applyOutcome (h : Named s) (o : Outcome) : Named (applyOutcome o s) := by
  cases o with
  | nothing => exact h
  | clear mapname => exact h.clear mapname
  | ignoreNub mapname =>
    exact Named.clear
      (s := { s with proUpgradeFailed := insert mapname s.proUpgradeFailed }) h mapname
  | download mapname uid => exact h

theorem Named.ackError (h : Named s) (hasMessage : Bool) (msgId : ℕ) :
    Named (kzWsAckError env hasMessage msgId s) := by
  cases hmap : errorMap hasMessage msgId s with
  | none => rwa [ackError_none env hmap]
  | some mapname => exact (h.clear mapname).alike (alike_ackError env hmap)

theorem Named.downloadEnd (h : Named s) (i : ℕ) (ok pushed : Bool) :
    Named (downloadEnd env i ok pushed s) := by
  cases hd : s.downloads[i]? with
  | none =>
    unfold Downloads.downloadEnd
    rwa [hd]
  | some d =>
    cases pushed with
    | true =>
      rw [downloadEnd_pushed env ok hd]
      exact h
    | false =>
      have hdrop : Named { s with downloads := s.downloads.eraseIdx i } := h
      exact (hdrop.clear d.mapname).alike (alike_downloadEnd env ok hd)

theorem Named.runCallback (h : Named s) (written : Bool) : Named (runCallback env written s) := by
  cases hin : s.incoming with
  | nil =>
    unfold Downloads.runCallback
    rwa [hin]
  | cons d rest =>
    have hpop : Named { s with incoming := rest } := h
    exact (hpop.clear d.mapname).alike (alike_runCallback env written hin)

theorem Named.next (h : Named s) (e : Event) : Named (next s e) := by
  cases e with
  | mapLoaded env force => exact h.mapLoaded env force
  | tryFetch env mapname => exact h.tryFetch env mapname
  | getReplayAck env url localUid mapName msgId =>
    unfold Downloads.next onGetReplayAck
    dsimp only
    split_ifs
    · exact h.applyOutcome _
    · exact h
  | errorMsg env hasMessage msgId =>
    unfold Downloads.next onErrorMsg
    dsimp only
    split_ifs
    · exact h.ackError env hasMessage msgId
    · exact h
  | deleteMsg =>
    unfold Downloads.next deleteMsg
    dsimp only
    split
    · exact h
    · exact h
  | downloadEnd env i ok pushed => exact h.downloadEnd env i ok pushed
  | runCallback env written => exact h.runCallback env written
  | downloadRetries env =>
    refine Named.alike ?_ (alike_processRetries env s)
    split_ifs
    · exact h.tryFetch env s.mapname
    · exact h
  | _ => exact h

theorem store_clear (mapname : Bytes) (s : FetchState) :
    (kzWsClearReplayFetchPending mapname s).store = s.store := by
  unfold kzWsClearReplayFetchPending
  split_ifs
  · rfl
  · rfl

theorem store_applyOutcome (o : Outcome) (s : FetchState) : (applyOutcome o s).store = s.store := by
  cases o with
  | nothing => rfl
  | clear mapname => exact store_clear mapname s
  | ignoreNub mapname => exact store_clear mapname _
  | download mapname uid => rfl

theorem store_ackError (hasMessage : Bool) (msgId : ℕ) (s : FetchState) :
    (kzWsAckError env hasMessage msgId s).store = s.store := by
  cases hmap : errorMap hasMessage msgId s with
  | none => rw [ackError_none env hmap]
  | some mapname => rw [(alike_ackError env hmap).store, store_clear]

theorem store_downloadEnd (i : ℕ) (ok pushed : Bool) (s : FetchState) :
    (downloadEnd env i ok pushed s).store = s.store := by
  cases hd : s.downloads[i]? with
  | none =>
    unfold downloadEnd
    rw [hd]
  | some d =>
    cases pushed with
    | true => rw [downloadEnd_pushed env ok hd]
    | false => rw [(alike_downloadEnd env ok hd).store, store_clear]

theorem store_runCallback (written : Bool) (s : FetchState) :
    (runCallback env written s).store = s.store := by
  cases hin : s.incoming with
  | nil =>
    unfold runCallback
    rw [hin]
  | cons d rest => rw [(alike_runCallback env written hin).store, store_clear]

/-- The storage has a ledger. -/
def HasLedger (s : FetchState) : Prop := ∃ log, Fits log s.store

theorem HasLedger.of_store (h : HasLedger s) (hs : s'.store = s.store) : HasLedger s' := by
  rw [HasLedger, hs]
  exact h

theorem HasLedger.save (h : HasLedger s) (text : Request) (msgType : ℕ) (table : StorageTable) :
    HasLedger (s.save env text msgType table) := by
  obtain ⟨log, hlog⟩ := h
  exact ⟨_, hlog.save env.now text msgType table⟩

theorem HasLedger.tryFetch (h : HasLedger s) (mapname : Bytes) :
    HasLedger (kzWsTryFetchReplay env mapname s) := by
  unfold kzWsTryFetchReplay
  split_ifs
  · exact HasLedger.save env (s := { s with fetchPending := insert mapname s.fetchPending }) h ..
  · exact h

theorem HasLedger.mapLoaded (h : HasLedger s) (force : Bool) :
    HasLedger (kzWsOnMapLoaded env force s) := by
  by_cases ha : Announces force s
  · refine HasLedger.of_store ?_ (alike_onMapLoaded env ha).store
    have hfilter : HasLedger { s with fetchPending := s.fetchPending.filter (· = s.mapname) } := h
    split_ifs
    · exact hfilter.save env ..
    · exact hfilter
  · rwa [onMapLoaded_of_not env ha]

theorem HasLedger.next (h : HasLedger s) (e : Event) : HasLedger (next s e) := by
  cases e with
  | changeMap mapname => exact h
  | mapLoaded env force => exact h.mapLoaded env force
  | tryFetch env mapname => exact h.tryFetch env mapname
  | saveOther env msgType table => exact h.save env ..
  | getReplayAck env url localUid mapName msgId =>
    unfold Downloads.next onGetReplayAck
    dsimp only
    split_ifs
    · exact h.of_store (store_applyOutcome ..)
    · exact h
  | errorMsg env hasMessage msgId =>
    unfold Downloads.next onErrorMsg
    dsimp only
    split_ifs
    · exact h.of_store (store_ackError ..)
    · exact h
  | deleteMsg =>
    unfold Downloads.next deleteMsg
    dsimp only
    split
    · exact h.imp fun _ hlog => hlog.delete _ _
    · exact h
  | downloadEnd env i ok pushed => exact h.of_store (store_downloadEnd env ..)
  | runCallback env written => exact h.of_store (store_runCallback env ..)
  | downloadRetries env =>
    refine HasLedger.of_store ?_ (alike_processRetries env s).store
    split_ifs
    · exact h.tryFetch env s.mapname
    · exact h
  | retryPass delay maxRetries ts =>
    exact h.imp fun _ hlog => hlog.retry (retryPass_entries _ delay maxRetries ts _)
  | storageClear => exact h.imp fun _ hlog => hlog.clear
  | storageLoad => exact h.imp fun _ hlog => hlog.load
  | requeueAllPending => exact h.imp fun _ hlog => hlog.requeueAllPending
  | storageRequeue msgId => exact h.imp fun _ hlog => hlog.requeue msgId
  | storageDelete table msgId => exact h.imp fun _ hlog => hlog.delete msgId table
  | storageDeleteAll table => exact h.imp fun _ hlog => hlog.deleteAll table

/-- **What every reachable state has.** -/
structure Reached (s : FetchState) : Prop where
  named : Named s
  ledger : HasLedger s

theorem Reached.init (tables : StorageTable → Table (Stored Request)) : Reached (.init tables) where
  named := Finset.notMem_empty _
  ledger := exists_fits tables 0

theorem Reached.next (h : Reached s) (e : Event) : Reached (next s e) :=
  ⟨h.named.next e, h.ledger.next e⟩

end Specs

/-- A server that is connected, with no replay of any map. -/
def sampleEnv : Env := ⟨true, true, 4, 5, 0, false, fun _ => false, fun _ => false⟩

end KzGlobal.Fetch.Downloads
