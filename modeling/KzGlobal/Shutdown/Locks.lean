import KzGlobal.Lib.Locks

/-! # The mutexes of the threads

The main thread, the WebSocket thread, the writer, the uploads, the compression, the parser and any
number of downloads share seven mutexes, and all but the main thread log to queues of 64 entries
that only `kz_log_flush` takes from. Of each function this is what it locks and logs and for which
thread it waits, as a language whose words are its paths. Mutexes are locked in one order, and the
log queues rank below the mutex of `kz_log_flush`, so no order of the sections blocks for good while
the main thread is between two calls or there is room in the log queues. But `kz_pb_parser_thread`
logs with `g_pb_data_mtx` locked, a download with `g_replay_download_retry_mtx`, and `kz_ws_stop`
and the shutdown wait for threads that log: where the queue is full, the main thread never goes on
(`sections_end`). -/

namespace KzGlobal.Shutdown.Locks

open KzGlobal.Lib.Runs KzGlobal.Lib.Locks

/-! ### The threads -/

/-- The threads, with `n` of those that `kz_ws_download_replay_async` detaches. -/
inductive Thread (n : ℕ)
  | main
  | socket
  | writer
  | upload
  | compress
  | parser
  | download (i : Fin n)
  deriving DecidableEq, Fintype

/-- The mutexes of the module. -/
inductive Mutex
  | logQueues
  | pbData
  | retry
  | activeUploads
  | replayDownloadRetry
  | replayFetch
  | header
  deriving DecidableEq

instance : Fintype Mutex where
  elems := {.logQueues, .pbData, .retry, .activeUploads, .replayDownloadRetry, .replayFetch,
    .header}
  complete m := by cases m <;> decide

/-- The log queues. Each thread that uses the storage has one of its own. -/
inductive LogQueue (n : ℕ)
  | wsLog
  | writerLog
  | uploadLog
  | compressLog
  | parseLog
  | storageLog (t : Thread n)
  deriving DecidableEq

/-- All log queues have the same capacity. -/
def logCapacity {n : ℕ} : LogQueue n → ℕ := fun _ => 64

/-- The order in which the mutexes are locked. -/
def rank : Mutex → ℕ
  | .pbData => 0
  | .retry => 1
  | .activeUploads => 2
  | .replayDownloadRetry => 3
  | .replayFetch => 4
  | .header => 5
  | .logQueues => 7

/-- A line is logged with no mutex locked but these of ranks below 6. -/
def logRank {n : ℕ} : LogQueue n → ℕ := fun _ => 6

/-- The paths of a function: what it does with mutexes, log queues and threads. -/
abbrev Paths (n : ℕ) := Code (Thread n) Mutex (LogQueue n)

section Functions
variable {n : ℕ}

/-! ### Logs and storage -/

/-- `kz_log` emits at once what the main thread logs. -/
def kzLog (t : Thread n) (q : LogQueue n) : Paths n := if t = .main then 1 else .put q

/-- A path may log a line. -/
def mayLog (t : Thread n) (q : LogQueue n) : Paths n := 1 + kzLog t q

/-- `kz_log_addq` changes the list under its mutex. -/
def kzLogAddq : Paths n := .guard .logQueues 1

/-- `kz_log_removeq` changes the list under its mutex. -/
def kzLogRemoveq : Paths n := .guard .logQueues 1

/-- `kz_log_flush` takes entries from the log queues, in the order of their times. -/
def kzLogFlush : Paths n := .guard .logQueues (.star .take)

/-- The first call of a thread registers its log queue, and the end of the thread removes it. -/
def kzStorageInit (t : Thread n) : Paths n := (1 + kzLogAddq) * mayLog t (.storageLog t)

/-- `kz_storage_load` fills the retry queue; it logs while it holds the mutex. -/
def kzStorageLoad (t : Thread n) : Paths n := .guard .retry (mayLog t (.storageLog t))

/-- `kz_storage_batch_delete` logs a failure. -/
def kzStorageBatchDelete (t : Thread n) : Paths n := mayLog t (.storageLog t)

/-- `kz_storage_clear` deletes while it holds the mutex. -/
def kzStorageClear (t : Thread n) : Paths n := .guard .retry (1 + kzStorageBatchDelete t)

/-- `kz_storage_requeue_all_pending` goes over the retry queue. -/
def kzStorageRequeueAllPending : Paths n := .guard .retry 1

/-- `kz_storage_get_next_id` logs a failure. -/
def kzStorageGetNextId (t : Thread n) : Paths n := mayLog t (.storageLog t)

/-- `kz_storage_save`: the retry queue, and then the row. -/
def kzStorageSave (t : Thread n) : Paths n := .guard .retry 1 * mayLog t (.storageLog t)

/-- `kz_storage_delete`: the retry queue, and then the row. -/
def kzStorageDelete (t : Thread n) : Paths n := .guard .retry 1 * mayLog t (.storageLog t)

/-- `kz_storage_try_get_outgoing` logs a failure. -/
def kzStorageTryGetOutgoing (t : Thread n) : Paths n := mayLog t (.storageLog t)

/-- `kz_storage_delete_by_value` logs a failure. -/
def kzStorageDeleteByValue (t : Thread n) : Paths n := mayLog t (.storageLog t)

/-- `kz_storage_count` logs a failure. -/
def kzStorageCount (t : Thread n) : Paths n := mayLog t (.storageLog t)

/-- `kz_storage_delete_all`: the retry queue, and then the rows. -/
def kzStorageDeleteAll (t : Thread n) : Paths n := .guard .retry 1 * mayLog t (.storageLog t)

/-- `kz_storage_checkpoint` logs a failure. -/
def kzStorageCheckpoint (t : Thread n) : Paths n := mayLog t (.storageLog t)

/-! ### Messages -/

/-- `kz_rp_get_header` copies the header. -/
def kzRpGetHeader : Paths n := .guard .header 1

/-- `kz_ws_build_msg` logs a failure, to the queue it is given. -/
def kzWsBuildMsg (t : Thread n) (q : LogQueue n) : Paths n := mayLog t q

/-- `kz_ws_queue_msg` logs an empty message or a full queue. -/
def kzWsQueueMsg (t : Thread n) : Paths n := mayLog t .wsLog

/-- `kz_ws_send_msg` logs what it does. -/
def kzWsSendMsg (t : Thread n) : Paths n := mayLog t .wsLog

/-- `kz_ws_build_hello` reads the map's name from the header. -/
def kzWsBuildHello (t : Thread n) : Paths n := kzRpGetHeader * kzWsBuildMsg t .wsLog

/-- `g_websocket.stop()` joins the WebSocket thread. -/
def kzWsStop : Paths n := .join .socket

/-- A message that is stored and queued, as all events and natives do it. -/
def storeAndQueue (t : Thread n) : Paths n :=
  kzStorageGetNextId t * kzWsBuildMsg t .wsLog * kzStorageSave t * kzWsQueueMsg t

/-- `kz_ws_event_client_connect`. -/
def kzWsEventClientConnect (t : Thread n) : Paths n := storeAndQueue t

/-- `kz_ws_event_client_disconnect` does nothing for a slot without a player. -/
def kzWsEventClientDisconnect (t : Thread n) : Paths n := 1 + storeAndQueue t

/-- `kz_ws_event_map_change` builds its message between taking an id and saving. -/
def kzWsEventMapChange (t : Thread n) : Paths n :=
  kzStorageGetNextId t * kzRpGetHeader * kzWsBuildMsg t .wsLog * kzStorageSave t * kzWsQueueMsg t

/-- `kz_ws_release_active_upload`. -/
def kzWsReleaseActiveUpload : Paths n := 1 + .guard .activeUploads 1

/-- `kz_ws_clear_replay_fetch_pending`. -/
def kzWsClearReplayFetchPending : Paths n := 1 + .guard .replayFetch 1

/-- `kz_ws_clear_replay_fetch_pending_except`. -/
def kzWsClearReplayFetchPendingExcept : Paths n := .guard .replayFetch 1

/-- `kz_ws_schedule_replay_download_retry` logs and clears the map under its mutex. -/
def kzWsScheduleReplayDownloadRetry (t : Thread n) : Paths n :=
  .guard .replayDownloadRetry (mayLog t .wsLog * kzWsClearReplayFetchPending)

/-- `kz_ws_try_fetch_replay` saves the question once the mutex is free again. -/
def kzWsTryFetchReplay (t : Thread n) : Paths n :=
  1 + .guard .replayFetch 1 * (1 + storeAndQueue t)

/-- Each map that is due is dropped, or fetched and put off. -/
def kzWsProcessReplayDownloadRetries (t : Thread n) : Paths n :=
  1 + .guard .replayDownloadRetry 1 *
    .star (.guard .replayDownloadRetry 1 +
      kzWsTryFetchReplay t * .guard .replayDownloadRetry 1)

/-- `kz_rp_prune_replays` logs each file, to the queue it is given. -/
def kzRpPruneReplays (t : Thread n) (q : LogQueue n) : Paths n := .star (kzLog t q)

/-- `kz_rp_update_header` prunes once the header is written. -/
def kzRpUpdateHeader (t : Thread n) : Paths n := .guard .header 1 * kzRpPruneReplays t .wsLog

/-- `kz_ws_on_map_loaded`. -/
def kzWsOnMapLoaded (t : Thread n) : Paths n :=
  1 + kzWsClearReplayFetchPendingExcept * kzRpUpdateHeader t * (1 + kzWsEventMapChange t)

/-! ### Playback -/

/-- `kz_pb_drop_parsed_replay`. -/
def kzPbDropParsedReplay : Paths n := 1 + .guard .pbData 1

/-- `kz_pb_reload_sr_bot` may ask for a replay. -/
def kzPbReloadSrBot (t : Thread n) : Paths n := 1 + kzWsTryFetchReplay t

/-- `kz_pb_frame` looks at what is parsed. -/
def kzPbFrame : Paths n := 1 + .guard .pbData 1

/-- `kz_pb_server_deactivate_post` drops what is parsed. -/
def kzPbServerDeactivatePost : Paths n := .guard .pbData 1

/-- `kz_ws_delete_record_replay`. -/
def kzWsDeleteRecordReplay (t : Thread n) : Paths n :=
  1 + kzPbDropParsedReplay * kzPbReloadSrBot t

/-- What the parser thread does with a file: it logs what it reads, and one line more with
`g_pb_data_mtx` locked. -/
def kzPbParserThread (t : Thread n) : Paths n :=
  .star (kzLog t .parseLog) * (1 + .guard .pbData (kzLog t .parseLog))

/-! ### The WebSocket thread and its handlers -/

/-- `kz_ws_ack_invalid` logs the type. -/
def kzWsAckInvalid (t : Thread n) : Paths n := kzLog t .wsLog

/-- `kz_ws_ack_error` logs, and looks at the message that failed. -/
def kzWsAckError (t : Thread n) : Paths n :=
  kzLog t .wsLog * (1 + kzStorageTryGetOutgoing t *
    (1 + kzLog t .wsLog + kzWsClearReplayFetchPending))

/-- `kz_ws_ack_map_info`. -/
def kzWsAckMapInfo (t : Thread n) : Paths n := mayLog t .wsLog

/-- `kz_ws_ack_hello` carries the answer for a map. -/
def kzWsAckHello (t : Thread n) : Paths n := kzLog t .wsLog * kzWsAckMapInfo t

/-- `kz_ws_ack_player_join`. -/
def kzWsAckPlayerJoin (t : Thread n) : Paths n := mayLog t .wsLog

/-- `kz_ws_ack_record_ack`: the mutex is free again where it logs and saves. -/
def kzWsAckRecordAck (t : Thread n) : Paths n :=
  mayLog t .wsLog + .guard .activeUploads 1 * mayLog t .wsLog * kzStorageGetNextId t *
    kzStorageSave t

/-- The lambda `cleanup` of `kz_ws_ack_file_ack`. -/
def cleanup (t : Thread n) : Paths n :=
  .guard .retry 1 * .guard .activeUploads 1 * kzStorageDeleteByValue t

/-- `kz_ws_ack_file_ack` logs and may clean up, or prunes and cleans up. -/
def kzWsAckFileAck (t : Thread n) : Paths n :=
  kzLog t .wsLog * (1 + cleanup t) + kzRpPruneReplays t .wsLog * cleanup t

/-- `kz_ws_ack_get_replay`. -/
def kzWsAckGetReplay (t : Thread n) : Paths n :=
  mayLog t .wsLog * kzWsClearReplayFetchPending

/-- `kz_ws_ack_del_record_notify`. -/
def kzWsAckDelRecordNotify (t : Thread n) : Paths n := mayLog t .wsLog

/-- The handlers that `FN_AMXX_ATTACH` registers. -/
def handlers (t : Thread n) : Paths n :=
  kzWsAckInvalid t + kzWsAckHello t + kzWsAckMapInfo t + kzWsAckPlayerJoin t + kzWsAckRecordAck t +
    kzWsAckFileAck t + kzWsAckGetReplay t + kzWsAckDelRecordNotify t + kzWsAckError t

/-- `kz_ws_onmessage`: a connection opens, a message comes, and the connection ends. -/
def kzWsOnmessage (t : Thread n) : Paths n :=
  kzStorageInit t * kzStorageRequeueAllPending * kzLog t .wsLog * kzWsBuildHello t * kzWsSendMsg t +
    mayLog t .wsLog * (kzLog t .wsLog + handlers t * mayLog t .wsLog * (1 + kzStorageDelete t)) +
    kzLog t .wsLog

/-! ### The threads of the replays -/

/-- What the writer does with a signal. -/
def kzRpWriterThread (t : Thread n) : Paths n :=
  mayLog t .writerLog * (1 + kzRpGetHeader) * .star (kzLog t .writerLog) *
    (1 + kzStorageGetNextId t * kzWsBuildMsg t .writerLog * kzStorageSave t * kzWsSendMsg t)

/-- `kz_rp_compress_file` logs a failure. -/
def kzRpCompressFile (t : Thread n) : Paths n := mayLog t .uploadLog

/-- What the upload thread does with a replay. -/
def kzRpUploadThread (t : Thread n) : Paths n :=
  kzRpCompressFile t * .star (kzLog t .uploadLog) * kzWsReleaseActiveUpload

/-- What the compression does with a file. -/
def kzRpCompressThread (t : Thread n) : Paths n := kzRpCompressFile t * mayLog t .compressLog

/-! ### The main thread -/

/-- `kz_api_get_map_details`. -/
def kzApiGetMapDetails (t : Thread n) : Paths n := 1 + storeAndQueue t

/-- `kz_api_del_record`. -/
def kzApiDelRecord (t : Thread n) : Paths n := 1 + kzWsDeleteRecordReplay t

/-- `kz_api_get_replay`. -/
def kzApiGetReplay (t : Thread n) : Paths n := 1 + kzWsTryFetchReplay t

/-- The natives that lock something. -/
def natives (t : Thread n) : Paths n :=
  kzApiGetMapDetails t + kzApiDelRecord t + kzApiGetReplay t

/-- `kz_ws_requeue_replay_upload` saves, and may release, once the mutex is free again. -/
def kzWsRequeueReplayUpload (t : Thread n) : Paths n :=
  1 + .guard .activeUploads 1 *
    (1 + kzStorageGetNextId t * kzStorageSave t * kzWsReleaseActiveUpload)

/-- The callback of a finished download. -/
def downloaded (t : Thread n) : Paths n :=
  mayLog t .wsLog * kzWsScheduleReplayDownloadRetry t + kzWsClearReplayFetchPending +
    kzLog t .wsLog * kzWsClearReplayFetchPending * .guard .replayDownloadRetry 1

/-- The callbacks that the handlers and the downloads queue. A plugin's handler of map info may call
natives. -/
def callbacks (t : Thread n) : Paths n :=
  kzStorageDeleteByValue t * .guard .activeUploads 1 + .star (natives t) +
    kzWsTryFetchReplay t + mayLog t .wsLog + kzWsReleaseActiveUpload + kzWsRequeueReplayUpload t +
    kzLog t .wsLog * kzWsDeleteRecordReplay t + downloaded t

/-- A pass over the retry queue sends one message, or starts one upload unless it is active. -/
def retryPass (t : Thread n) : Paths n :=
  .guard .retry (1 + kzWsSendMsg t + .guard .activeUploads 1)

/-- `kz_ws_run_tasks`: callbacks, downloads, messages and the retry queue. -/
def kzWsRunTasks (t : Thread n) : Paths n :=
  .star (callbacks t) * kzWsProcessReplayDownloadRetries t *
    (1 + .star (kzWsSendMsg t) * (1 + retryPass t))

/-- `FN_StartFrame`. -/
def fnStartFrame (t : Thread n) : Paths n := kzLogFlush * kzWsRunTasks t * kzPbFrame

/-- `KZ_Cvar_DirectSet` may stop the socket. -/
def kzCvarDirectSet : Paths n := 1 + kzWsStop

/-- `kz_api`: the status, a reconnect, the compression of a file and what changes the storage. -/
def kzApiCmd (t : Thread n) : Paths n :=
  1 + .guard .retry 1 * .guard .activeUploads 1 * kzStorageCount t * kzStorageCount t +
    kzWsStop + kzRpCompressFile t + .guard .retry 1 + kzStorageDelete t + kzStorageDeleteAll t +
    kzStorageCheckpoint t

/-- The start of the module registers the log queues, and `kz_global.cfg` is executed. -/
def fnAmxxPluginsloaded (t : Thread n) : Paths n :=
  (1 + kzStorageInit t * .star kzLogAddq) * .star (kzCvarDirectSet + kzApiCmd t) *
    kzWsOnMapLoaded t * kzStorageLoad t

/-- `FN_ServerActivate_Post`. -/
def fnServerActivatePost (t : Thread n) : Paths n := kzWsOnMapLoaded t

/-- `FN_ChangeLevel`, and `FN_MessageBegin` at an intermission. -/
def fnChangeLevel (t : Thread n) : Paths n := kzRpPruneReplays t .wsLog * kzStorageClear t

/-- `FN_ClientPutInServer_Post` tells the API of a player. -/
def fnClientPutInServerPost (t : Thread n) : Paths n := 1 + kzWsEventClientConnect t

/-- `KZ_SV_DropClient` tells the API of a player. -/
def kzSvDropClient (t : Thread n) : Paths n := 1 + kzWsEventClientDisconnect t

/-- `kz_rp_uninit` joins three threads. -/
def kzRpUninit : Paths n := .join .writer * .join .upload * .join .compress

/-- `kz_pb_uninit` joins the parser. -/
def kzPbUninit : Paths n := .join .parser

/-- `kz_ws_uninit` stops the socket. -/
def kzWsUninit : Paths n := kzWsStop

/-- The end of the game. The downloads are detached, so nobody waits for them. -/
def fnGameShutdown : Paths n := kzLogFlush * (1 + kzRpUninit * kzPbUninit * kzWsUninit)

/-! ### The code of the threads -/

/-- **The sections of a thread**: what it does in a call, with a message, with an item of its queue,
or after a download. -/
def code : Thread n → Paths n
  | .main => fnStartFrame .main + fnAmxxPluginsloaded .main + fnServerActivatePost .main +
      kzPbServerDeactivatePost + fnChangeLevel .main + fnClientPutInServerPost .main +
      kzSvDropClient .main + kzCvarDirectSet + kzApiCmd .main + natives .main + fnGameShutdown +
      kzLogFlush
  | .socket => kzWsOnmessage .socket + kzLogRemoveq
  | .writer => kzStorageInit .writer + kzRpWriterThread .writer + kzLogRemoveq
  | .upload => kzRpUploadThread .upload
  | .compress => kzRpCompressThread .compress
  | .parser => kzPbParserThread .parser
  | .download i => 1 + kzWsScheduleReplayDownloadRetry (.download i)

end Functions

/-! ### The order of the mutexes -/

section Runs
variable {n : ℕ}

/-- The sections that a thread enters. -/
def sections (t : Thread n) : Language (Op (Thread n) Mutex (LogQueue n)) := (code t).sections

theorem disciplined : Disciplined rank logRank .main (sections (n := n)) := by
  intro t
  apply Code.nestedIn_sections
  cases t with
  | main => rfl
  | socket => rfl
  | writer => rfl
  | upload => rfl
  | compress => rfl
  | parser => rfl
  | download i => rfl

theorem taking_mem_sections (q : LogQueue n) :
    taking .logQueues q ∈ sections (.main : Thread n) := by
  have htake : [.take q] ∈ (Code.star .take : Paths n).sections :=
    Language.mem_kstar.mpr ⟨[[.take q]], rfl, fun w hw => ⟨q, List.mem_singleton.mp hw⟩⟩
  exact Or.inr (mem_guarded.mpr ⟨_, htake, rfl⟩)

/-- **Sections end, unless the main thread waits for a full log queue.** In every reachable state in
which the main thread is between two calls, or the log queues have room for the lines of the
sections that go on, all threads can end their sections. But where the main thread waits for a
mutex of a thread that logs to a full queue, or for the end of such a thread, it never goes on. -/
theorem sections_end {as : List (Action (Thread n) Mutex (LogQueue n))}
    (has : ∀ a ∈ as, Allowed sections a) :
    let s := run (next logCapacity) (.init (Thread n) Mutex (LogQueue n)) as
    (s.prog .main = [] ∨ Roomy logCapacity s →
      ∃ as', (∀ a ∈ as', Allowed sections a) ∧ Idle (run (next logCapacity) s as')) ∧
    ∀ t q, Blocked .main logCapacity t q s → ∀ as', (∀ a ∈ as', Allowed sections a) →
      Blocked .main logCapacity t q (run (next logCapacity) s as') := by
  intro s
  have h : Ordered rank logRank .main logCapacity s := Ordered.run disciplined has ordered_init
  refine ⟨?_, fun t q hblocked as' has' => stays_blocked disciplined h hblocked has'⟩
  rintro (hidle | hroom)
  · exact finishes_of_idle disciplined taking_mem_sections (fun _ => (by decide : 6 < 7))
      (fun _ => (by decide : 0 < 64)) h hidle
  · obtain ⟨ts, hts⟩ := finishes_of_room h hroom
    refine ⟨ts.map .go, fun a ha => ?_, hts⟩
    obtain ⟨t, -, rfl⟩ := List.mem_map.mp ha
    trivial

end Runs

/-- The lines of a replay, the last with `g_pb_data_mtx` locked. -/
def sampleReplay : List (Op (Thread 0) Mutex (LogQueue 0)) :=
  List.replicate 22 (.put .parseLog) ++ [.lock .pbData, .put .parseLog, .unlock .pbData]

theorem sampleReplay_mem : sampleReplay ∈ sections (.parser : Thread 0) :=
  ⟨_, Language.mem_kstar.mpr ⟨List.replicate 22 [.put .parseLog], rfl,
    fun _ hw => List.eq_of_mem_replicate hw⟩, _,
    Or.inr (mem_guarded.mpr ⟨[.put .parseLog], rfl, rfl⟩), rfl⟩

/-- A flush that takes four lines. -/
def sampleFlush : List (Op (Thread 0) Mutex (LogQueue 0)) :=
  .lock .logQueues :: (List.replicate 4 (.take .parseLog) ++ [.unlock .logQueues])

theorem sampleFlush_mem : sampleFlush ∈ sections (.main : Thread 0) :=
  Or.inr (mem_guarded.mpr ⟨_, Language.mem_kstar.mpr ⟨List.replicate 4 [.take .parseLog], rfl,
    fun _ hw => ⟨.parseLog, List.eq_of_mem_replicate hw⟩⟩, rfl⟩)

/-- What `kz_pb_server_deactivate_post` does. -/
def sampleDeactivate : List (Op (Thread 0) Mutex (LogQueue 0)) := [.lock .pbData, .unlock .pbData]

theorem sampleDeactivate_mem : sampleDeactivate ∈ sections (.main : Thread 0) := by
  have hmem : sampleDeactivate ∈ (kzPbServerDeactivatePost : Paths 0).sections :=
    mem_guarded.mpr ⟨[], rfl, rfl⟩
  exact Or.inl (Or.inl (Or.inl (Or.inl (Or.inl (Or.inl (Or.inl (Or.inl (Or.inr hmem))))))))

/-- A thread begins with a section and goes on in it. -/
def sampleSteps (t : Thread 0) (w : List (Op (Thread 0) Mutex (LogQueue 0))) (n : ℕ) :
    List (Action (Thread 0) Mutex (LogQueue 0)) :=
  .enter t w :: List.replicate n (.go t)

theorem sampleSteps_allowed {t : Thread 0} {w : List (Op (Thread 0) Mutex (LogQueue 0))}
    (hw : w ∈ sections t) (n : ℕ) : ∀ a ∈ sampleSteps t w n, Allowed sections a := by
  refine List.forall_mem_cons.mpr ⟨hw, fun a ha => ?_⟩
  rw [List.eq_of_mem_replicate ha]
  trivial

/-- The parser reads three replays, and a frame flushes a little after the second. The last line of
the third replay finds the queue full. -/
def sampleActions : List (Action (Thread 0) Mutex (LogQueue 0)) :=
  sampleSteps .parser sampleReplay 25 ++ (sampleSteps .parser sampleReplay 25 ++
    (sampleSteps .main sampleFlush 6 ++ sampleSteps .parser sampleReplay 23))

theorem sampleActions_allowed : ∀ a ∈ sampleActions, Allowed sections a :=
  List.forall_mem_append.mpr ⟨sampleSteps_allowed sampleReplay_mem 25,
    List.forall_mem_append.mpr ⟨sampleSteps_allowed sampleReplay_mem 25,
      List.forall_mem_append.mpr ⟨sampleSteps_allowed sampleFlush_mem 6,
        sampleSteps_allowed sampleReplay_mem 23⟩⟩⟩

/-- While the main thread is idle, all threads can end their sections. Once the map changes, it
waits for the parser for good. -/
theorem sections_end_sample :
    (∃ as, (∀ a ∈ as, Allowed sections a) ∧ Idle (run (next logCapacity)
      (run (next logCapacity) (.init (Thread 0) Mutex (LogQueue 0)) sampleActions) as)) ∧
    Blocked .main logCapacity .parser .parseLog
      (run (next logCapacity) (run (next logCapacity) (.init (Thread 0) Mutex (LogQueue 0))
        (sampleActions ++ sampleSteps .main sampleDeactivate 1)) [.go .parser, .go .main]) := by
  have hallowed : ∀ a ∈ sampleActions ++ sampleSteps .main sampleDeactivate 1,
      Allowed sections a :=
    List.forall_mem_append.mpr
      ⟨sampleActions_allowed, sampleSteps_allowed sampleDeactivate_mem 1⟩
  have hblocked : Blocked .main logCapacity .parser .parseLog
      (run (next logCapacity) (.init (Thread 0) Mutex (LogQueue 0))
        (sampleActions ++ sampleSteps .main sampleDeactivate 1)) :=
    ⟨⟨⟨[.unlock .pbData], by decide +kernel⟩, by decide +kernel⟩, .lock .pbData,
      [.unlock .pbData], by decide +kernel, Or.inr ⟨.pbData, rfl, by decide +kernel⟩⟩
  exact ⟨(sections_end sampleActions_allowed).1 (Or.inl (by decide +kernel)),
    (sections_end hallowed).2 .parser .parseLog hblocked _ (by simp [Allowed])⟩

end KzGlobal.Shutdown.Locks
