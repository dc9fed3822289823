import KzGlobal.Fetch.Downloads

/-! # Map loads and their announcements

A map load runs `FN_AMXX_PLUGINSLOADED` and `FN_ServerActivate_Post`, which both call
`kz_ws_on_map_loaded`. The second call is told from the first by the name that was recorded last,
and so is the next load: a load of the same map is not announced, and one whose name was cut when it
was recorded is announced twice (`announced_iff`). What other threads do in between changes neither
name (`maps_next`). A message is saved by an INSERT that succeeds, and `g_outgoing_queue` takes it
or is full. -/

namespace KzGlobal.Fetch.MapLoads

open KzGlobal.Lib.Runs KzGlobal.Lib.Autoincrement KzGlobal.Krp.Format KzGlobal.Replay.Text
  KzGlobal.Storage.Queue KzGlobal.Fetch.Downloads

/-! ### The machine -/

/-- An event that is no part of a map load. -/
def keepsMap : Event → Bool
  | .changeMap _ => false
  | .mapLoaded _ _ => false
  | _ => true

/-- An event that does not change the map. -/
abbrev Other := { e : Event // keepsMap e = true }

/-- A map load, with what the two hooks find, whether `g_outgoing_queue` has room for what they
push, and what other threads do in between. -/
structure MapLoad where
  mapname : Bytes
  loaded : Env
  loadedPushed : Bool
  between : List Other
  activated : Env
  activatedPushed : Bool
  valid : kzWsValidReplaySegment mapname = true
  loaded_connected : loaded.connected = true
  activated_connected : activated.connected = true

/-- The fetches, `g_current_map_info.updated`, and the ids of the MAP_CHANGE messages that were
saved and of those that were queued. -/
structure Loads where
  fetch : FetchState
  updated : Bool
  saved : List ℕ
  queued : List ℕ

/-- No map is loaded yet. -/
def Loads.init (tables : StorageTable → Table (Stored Request)) : Loads :=
  ⟨.init tables, false, [], []⟩

/-- `kz_ws_on_map_loaded`, with the messages of `kz_ws_event_map_change`. -/
def Loads.kzWsOnMapLoaded (env : Env) (force pushed : Bool) (s : Loads) : Loads :=
  if ¬ kzWsValidReplaySegment s.fetch.mapname ∨
      (force = false ∧ s.fetch.mapname = s.fetch.lastMapLoaded) then s
  else
    let msgId := kzStorageGetNextId .outgoingQueue s.fetch.store
    { fetch := Downloads.kzWsOnMapLoaded env force s.fetch
      updated := false
      saved := if env.connected then s.saved ++ [msgId] else s.saved
      queued := if env.connected ∧ pushed then s.queued ++ [msgId] else s.queued }

/-- `FN_AMXX_PLUGINSLOADED`, which loads the storage after the call. -/
def fnAmxxPluginsloaded (env : Env) (pushed : Bool) (s : Loads) : Loads :=
  let s := s.kzWsOnMapLoaded env false pushed
  { s with fetch := { s.fetch with store := kzStorageLoad s.fetch.store } }

/-- `FN_ServerActivate_Post`. -/
def fnServerActivatePost (env : Env) (pushed : Bool) (s : Loads) : Loads :=
  s.kzWsOnMapLoaded env false pushed

/-- A map load: the engine has another map, and runs both hooks. -/
def Loads.load (l : MapLoad) (s : Loads) : Loads :=
  let s := { s with fetch := { s.fetch with mapname := l.mapname } }
  let s := fnAmxxPluginsloaded l.loaded l.loadedPushed s
  let s := { s with fetch := l.between.foldl (fun f e => Downloads.next f e.1) s.fetch }
  fnServerActivatePost l.activated l.activatedPushed s

/-- The callback of a MAP_INFO that no plugin asked for. -/
def Loads.mapInfo (env : Env) (szMap : Bytes) (s : Loads) : Loads :=
  if szMap = s.fetch.mapname then
    { s with updated := true, fetch := kzWsTryFetchReplay env szMap s.fetch }
  else s

/-- A map load, the callback of a MAP_INFO, or what other threads do. -/
inductive Step
  | load (l : MapLoad)
  | mapInfo (env : Env) (szMap : Bytes)
  | other (e : Other)

/-- One step. -/
def next (s : Loads) : Step → Loads
  | .load l => s.load l
  | .mapInfo env szMap => s.mapInfo env szMap
  | .other e => { s with fetch := Downloads.next s.fetch e.1 }

/-! ### What keeps the names -/

/-- The map of the engine and the name that was recorded last. -/
def maps (f : FetchState) : Bytes × Bytes := (f.mapname, f.lastMapLoaded)

section Maps
variable (env : Env) (f : FetchState)

theorem maps_clear (mapname : Bytes) : maps (kzWsClearReplayFetchPending mapname f) = maps f := by
  unfold kzWsClearReplayFetchPending
  split_ifs <;> rfl

theorem maps_tryFetch (mapname : Bytes) : maps (kzWsTryFetchReplay env mapname f) = maps f := by
  unfold kzWsTryFetchReplay
  split_ifs <;> rfl

theorem maps_schedule (mapname : Bytes) :
    maps (kzWsScheduleReplayDownloadRetry env mapname f) = maps f := by
  unfold kzWsScheduleReplayDownloadRetry
  refine (maps_clear _ mapname).trans ?_
  split
  · split_ifs <;> rfl
  · rfl

theorem maps_processRetries : maps (kzWsProcessReplayDownloadRetries env f) = maps f := by
  unfold kzWsProcessReplayDownloadRetries
  split_ifs
  · obtain ⟨q, hq⟩ := foldl_processDue env (dueMaps env f) f
    rw [hq]
    change maps (if f.mapname ∈ dueMaps env f then kzWsTryFetchReplay env f.mapname f else f) = _
    split_ifs
    · exact maps_tryFetch ..
    · rfl
  · rfl

theorem maps_applyOutcome (o : Reply.Outcome) : maps (applyOutcome o f) = maps f := by
  cases o with
  | nothing => rfl
  | clear mapname => exact maps_clear ..
  | ignoreNub mapname => exact maps_clear ..
  | download mapname uid => rfl

theorem maps_ackError (hasMessage : Bool) (msgId : ℕ) :
    maps (kzWsAckError env hasMessage msgId f) = maps f := by
  unfold kzWsAckError
  split
  · rfl
  · exact maps_clear ..

theorem maps_downloadReplay (d : Finished) (written : Bool) :
    maps (kzWsDownloadReplay env d written f) = maps f := by
  unfold kzWsDownloadReplay
  by_cases hok : ¬ d.ok = true
  · rw [if_pos hok]
    exact maps_schedule ..
  rw [if_neg hok]
  by_cases hmap : d.mapname ≠ f.mapname
  · rw [if_pos hmap]
    exact maps_clear ..
  rw [if_neg hmap]
  by_cases hwritten : ¬ written = true
  · rw [if_pos hwritten]
    exact maps_schedule ..
  · rw [if_neg hwritten]
    exact maps_clear ..

theorem maps_runCallback (written : Bool) : maps (runCallback env written f) = maps f := by
  unfold runCallback
  split
  · rfl
  · exact maps_downloadReplay ..

theorem maps_downloadEnd (i : ℕ) (ok pushed : Bool) :
    maps (downloadEnd env i ok pushed f) = maps f := by
  unfold downloadEnd
  split
  · rfl
  · cases pushed with
    | true => rfl
    | false => exact maps_schedule ..

/-- **What is no part of a map load changes neither name.** -/
theorem maps_next {e : Event} (he : keepsMap e = true) : maps (Downloads.next f e) = maps f := by
  cases e with
  | changeMap mapname => cases he
  | mapLoaded env force => cases he
  | tryFetch env mapname => exact maps_tryFetch ..
  | getReplayAck env url localUid mapName msgId =>
    change maps (onGetReplayAck env url localUid mapName msgId f) = _
    unfold onGetReplayAck
    split_ifs
    · exact maps_applyOutcome ..
    · rfl
  | errorMsg env hasMessage msgId =>
    change maps (onErrorMsg env hasMessage msgId f) = _
    unfold onErrorMsg
    split_ifs
    · exact maps_ackError ..
    · rfl
  | deleteMsg =>
    change maps (deleteMsg f) = _
    unfold deleteMsg
    split <;> rfl
  | downloadEnd env i ok pushed => exact maps_downloadEnd ..
  | runCallback env written => exact maps_runCallback ..
  | downloadRetries env => exact maps_processRetries ..
  | _ => rfl

theorem maps_foldl (es : List Other) :
    maps (es.foldl (fun f e => Downloads.next f e.1) f) = maps f := by
  induction es generalizing f with
  | nil => rfl
  | cons e es ih => rw [List.foldl_cons, ih, maps_next f e.2]

end Maps

/-! ### A call and a load -/

section Load
variable {env : Env} {pushed : Bool} {s : Loads}

theorem not_suppressed {mapname last : Bytes} (hvalid : kzWsValidReplaySegment mapname = true)
    (h : mapname ≠ last) :
    ¬ (¬ kzWsValidReplaySegment mapname = true ∨ (false = false ∧ mapname = last)) :=
  not_or.mpr ⟨not_not.mpr hvalid, fun he => h he.2⟩

theorem onMapLoaded_same (h : s.fetch.mapname = s.fetch.lastMapLoaded) :
    s.kzWsOnMapLoaded env false pushed = s :=
  if_pos (Or.inr ⟨rfl, h⟩)

theorem onMapLoaded_of_ne (pushed : Bool)
    (hvalid : kzWsValidReplaySegment s.fetch.mapname = true)
    (h : s.fetch.mapname ≠ s.fetch.lastMapLoaded) (hconn : env.connected = true) :
    s.kzWsOnMapLoaded env false pushed =
      ⟨Downloads.kzWsOnMapLoaded env false s.fetch, false,
        s.saved ++ [kzStorageGetNextId .outgoingQueue s.fetch.store],
        if pushed then s.queued ++ [kzStorageGetNextId .outgoingQueue s.fetch.store]
        else s.queued⟩ := by
  rw [Loads.kzWsOnMapLoaded, if_neg (not_suppressed hvalid h), hconn]
  simp only [if_true, true_and]

/-- **What an announcement leaves**: the name is recorded, as far as it fits, and the message is in
the storage. -/
theorem fetch_onMapLoaded {f : FetchState} (hvalid : kzWsValidReplaySegment f.mapname = true)
    (h : f.mapname ≠ f.lastMapLoaded) (hconn : env.connected = true) :
    maps (Downloads.kzWsOnMapLoaded env false f) = (f.mapname, f.mapname.take 63) ∧
      (kzStorageGetNextId .outgoingQueue f.store, ⟨msgMapChange, .other, env.now⟩) ∈
        ((Downloads.kzWsOnMapLoaded env false f).store.tables .outgoingQueue).rows := by
  rw [Downloads.kzWsOnMapLoaded, if_neg (not_suppressed hvalid h)]
  dsimp only
  rw [if_pos hconn]
  refine ⟨rfl, ?_⟩
  rw [FetchState.save, kzStorageSave, tables_mapTable_self]
  change _ ∈ ((f.store.tables .outgoingQueue).insert (f.store.tables .outgoingQueue).nextId _).rows
  rw [(Table.insert_nextId _ _).1]
  exact List.mem_append_right _ List.mem_cons_self

/-- **A load of the map that was recorded last** announces nothing. -/
theorem load_same (l : MapLoad) (h : l.mapname = s.fetch.lastMapLoaded) :
    (s.load l).saved = s.saved := by
  unfold Loads.load fnAmxxPluginsloaded fnServerActivatePost
  dsimp only
  rw [onMapLoaded_same (s := { s with fetch := { s.fetch with mapname := l.mapname } }) h,
    onMapLoaded_same]
  have hmaps := maps_foldl { s.fetch with
    mapname := l.mapname, store := kzStorageLoad s.fetch.store } l.between
  exact (congrArg Prod.fst hmaps).trans (h.trans (congrArg Prod.snd hmaps).symm)

/-- **A load of another map** announces it, and announces it again where the recorded name is
cut. -/
theorem load_of_ne (l : MapLoad) (h : l.mapname ≠ s.fetch.lastMapLoaded) :
    (s.load l).updated = false ∧
      (s.load l).saved.length = s.saved.length + (if l.mapname.length ≤ 63 then 1 else 2) ∧
      (l.mapname.length ≤ 63 →
        (s.load l).queued.length = s.queued.length + l.loadedPushed.toNat) := by
  have hfirst := onMapLoaded_of_ne l.loadedPushed
    (s := { s with fetch := { s.fetch with mapname := l.mapname } }) l.valid h l.loaded_connected
  obtain ⟨hmaps, -⟩ := fetch_onMapLoaded (f := { s.fetch with mapname := l.mapname }) l.valid h
    l.loaded_connected
  unfold Loads.load fnAmxxPluginsloaded fnServerActivatePost
  dsimp only
  rw [hfirst]
  dsimp only
  -- the state that the second call finds
  generalize hf : l.between.foldl (fun f e => Downloads.next f e.1) _ = f
  have hf' : maps f = (l.mapname, l.mapname.take 63) := by
    rw [← hf, maps_foldl]
    exact hmaps
  have hname : f.mapname = l.mapname := congrArg Prod.fst hf'
  have hlast : f.lastMapLoaded = l.mapname.take 63 := congrArg Prod.snd hf'
  by_cases hlen : l.mapname.length ≤ 63
  · have hsame : f.mapname = f.lastMapLoaded := by
      rw [hname, hlast, List.take_of_length_le hlen]
    rw [onMapLoaded_same hsame, if_pos hlen, List.length_append, List.length_singleton]
    refine ⟨rfl, rfl, fun _ => ?_⟩
    cases l.loadedPushed
    · rfl
    · exact List.length_append
  · have hne : f.mapname ≠ f.lastMapLoaded := by
      rw [hname, hlast]
      intro he
      have hcut := congrArg List.length he
      rw [List.length_take] at hcut
      omega
    rw [onMapLoaded_of_ne _ (hname.symm ▸ l.valid) hne l.activated_connected, if_neg hlen,
      List.length_append, List.length_append, List.length_singleton, List.length_singleton]
    exact ⟨rfl, rfl, fun h => absurd h hlen⟩

end Load

/-! ### Runs -/

/-- **A load is announced**: one MAP_CHANGE was saved and queued, and the map's records are unknown
until the answer. -/
structure AnnouncedOnce (s : Loads) (l : MapLoad) : Prop where
  saved : (s.load l).saved.length = s.saved.length + 1
  queued : (s.load l).queued.length = s.queued.length + 1
  updated : (s.load l).updated = false

/-- A map that is not the one recorded last, with a name that is recorded whole, at a time when the
queue has room. -/
def IsNew (s : Loads) (l : MapLoad) : Prop :=
  l.mapname ≠ s.fetch.lastMapLoaded ∧ l.mapname.length ≤ 63 ∧ l.loadedPushed = true

theorem announcedOnce_iff {s : Loads} {l : MapLoad} : AnnouncedOnce s l ↔ IsNew s l := by
  by_cases h : l.mapname = s.fetch.lastMapLoaded
  · refine iff_of_false (fun ha => ?_) fun hn => hn.1 h
    have hone := ha.saved
    rw [load_same l h] at hone
    omega
  · obtain ⟨hupdated, hsaved, hqueued⟩ := load_of_ne l h
    constructor
    · intro ha
      have hlen : l.mapname.length ≤ 63 := by
        by_contra hlen
        rw [if_neg hlen] at hsaved
        have hone := ha.saved
        omega
      refine ⟨h, hlen, Bool.toNat_eq_one.mp ?_⟩
      have hone := ha.queued
      have hqueued := hqueued hlen
      omega
    · rintro ⟨-, hlen, hpushed⟩
      rw [if_pos hlen] at hsaved
      have hqueued := hqueued hlen
      rw [hpushed] at hqueued
      exact ⟨hsaved, hqueued, hupdated⟩

/-- A property of the loads among the steps. -/
def AtLoads (P : Loads → MapLoad → Prop) (s : Loads) : Step → Prop
  | .load l => P s l
  | _ => True

/-- **Every map load is announced once**, in every run, exactly as far as every load is of another
map than the one recorded last, with a name of 63 characters at most, and finds room in
`g_outgoing_queue`. -/
theorem announced_iff (s : Loads) (steps : List Step) :
    Along next (AtLoads AnnouncedOnce) s steps ↔ Along next (AtLoads IsNew) s steps := by
  refine along_congr fun s step => ?_
  cases step with
  | load l => exact announcedOnce_iff
  | mapInfo env szMap => exact Iff.rfl
  | other e => exact Iff.rfl

/-- A server that is connected and downloads nothing. -/
def sampleEnv : Env where
  replaysDownload := false
  connected := true
  retriesMax := 5
  retriesDelay := 30
  now := 0
  mapHasProWr := false
  localSufficient _ := false
  localHasPro _ := false

/-- A load of one map, with nothing in between. -/
def sampleLoad : MapLoad where
  mapname := str "kz_a"
  loaded := sampleEnv
  loadedPushed := true
  between := []
  activated := sampleEnv
  activatedPushed := true
  valid := by decide +kernel
  loaded_connected := rfl
  activated_connected := rfl

/-- **A map that is loaded again is not announced.** -/
theorem reload_not_announced : ¬ Along next (AtLoads AnnouncedOnce) (.init fun _ => .empty)
    [.load sampleLoad, .load sampleLoad] := by
  rintro ⟨-, hagain, -⟩
  have hne := (announcedOnce_iff.mp hagain).1
  exact absurd (by decide +kernel) hne

end KzGlobal.Fetch.MapLoads
