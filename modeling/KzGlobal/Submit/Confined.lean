import KzGlobal.Replay.Prune
import KzGlobal.Replay.AdminPath
import KzGlobal.Fetch.Reply
import KzGlobal.Submit.Upload
import KzGlobal.Submit.Safekeeping

/-! # The files of the server's messages

The handlers of RECORD_ACK, FILE_ACK, GET_REPLAY_ACK and DEL_RECORD_NOTIFY as programs over files,
each with the callback it leaves to the main thread and what this hands to the upload and the parser
thread. Their strings come from the server and from the headers of replays; whatever they are, the
files that are touched lie among the replays (`handlers_inside`). -/

namespace KzGlobal.Submit.Confined

open KzGlobal.Lib.Stdio KzGlobal.Lib.FileProgram KzGlobal.Lib.PosixPath KzGlobal.Krp.Format
open KzGlobal.Replay.Text KzGlobal.Replay.Writer KzGlobal.Replay.Paths KzGlobal.Replay.Selection
open KzGlobal.Replay.Prune KzGlobal.Replay.AdminPath KzGlobal.Fetch.Reply
open KzGlobal.Submit.System (Upload)
open KzGlobal.Submit.Safekeeping (kzRpCompressFile)

/-- What the programs read besides the message and the files: the compression and the parser, the
map of the server, what is played, active uploads, room in the queues and settings. -/
structure Env where
  zstd : Bytes → Option Bytes
  parses : Bytes → Bool
  mapname : Bytes
  mapHasProWr : Bool
  playing : Option Bytes
  active : Bytes → Bool
  uploadRoom : Bool
  parseRoom : Bool
  connected : Bool
  replaysDownload : Bool
  fetchBlocked : Bool
  maxReplays : ℤ
  pruneTrigger : ℤ
  gEarlyMapchange : Bool

section Programs
variable (dataDir : Bytes) (env : Env)

/-! ### The threads -/

/-- The upload thread on one upload. It reads the file that is open then. -/
def kzRpUploadThread (item : Upload) : Files Unit :=
  if extension item.filepath = str ".krpz" then do
    let _ ← readFile item.filepath
  else do
    let _ ← kzRpCompressFile env.zstd item.filepath

/-- The parser thread on one file. -/
def kzPbParserThread (file : Bytes) : Files Unit := do
  match ← readFile file with
  | none => pure ()
  | some b =>
    if extension file = str ".krpz" ∧ env.parses b then
      let _ ← fileExists file
    else pure ()

/-- `kz_rp_compress_and_upload_async` drops the upload where the queue is full. -/
def kzRpCompressAndUploadAsync (metadata : Upload) : Files Unit :=
  if env.uploadRoom then kzRpUploadThread env metadata else pure ()

/-- `kz_pb_parse_file_async` drops the file where the queue is full. -/
def kzPbParseFileAsync (file : Bytes) : Files Unit :=
  if env.parseRoom then kzPbParserThread env file else pure ()

/-! ### Playback -/

/-- `kz_pb_find_fastest`. -/
def kzPbFindFastest (mapname : Bytes) : Files (Option Bytes) :=
  if mapname = [] then pure none
  else kzReplayFindBestInDir (joinPath (replaysDir dataDir) mapname)

/-- The class of a file, read from its name. -/
def fileClass (file : Bytes) : Option ℕ := (kzReplayParseUid (filename file)).map Prod.fst

/-- `kz_pb_find_sr_replay`: where the map has a pro record, a replay with teleports is none. -/
def kzPbFindSrReplay (mapname : Bytes) : Files (Option Bytes) := do
  match ← kzPbFindFastest dataDir mapname with
  | none => pure none
  | some file => if env.mapHasProWr ∧ fileClass file = some 1 then pure none else pure (some file)

/-- The second search is that of `kz_ws_local_has_pro_replay`. -/
def kzWsLocalReplayIsSufficient (mapname : Bytes) : Files Bool := do
  match ← kzPbFindFastest dataDir mapname with
  | none => pure false
  | some _ =>
    if env.mapHasProWr then
      let file ← kzPbFindFastest dataDir mapname
      pure (file.bind fileClass = some 0)
    else pure true

/-- Whether a GET_REPLAY is sent. -/
def kzWsTryFetchReplay (mapname : Bytes) : Files Bool :=
  if ¬ env.replaysDownload ∨ ¬ kzWsValidReplaySegment mapname ∨ ¬ env.connected ∨
    env.fetchBlocked then
    pure false
  else do
    let sufficient ← kzWsLocalReplayIsSufficient dataDir env mapname
    pure !sufficient

/-- `kz_pb_reload_sr_bot`: the map must be the one that is played. -/
def kzPbReloadSrBot (mapname : Bytes) : Files Unit :=
  if ¬ kzWsValidReplaySegment mapname ∨ mapname ≠ env.mapname then pure ()
  else do
    match ← kzPbFindSrReplay dataDir env mapname with
    | some file => if env.playing = some file then pure () else kzPbParseFileAsync env file
    | none =>
      if env.connected then
        let _ ← kzWsTryFetchReplay dataDir env mapname
      else pure ()

/-! ### RECORD_ACK -/

/-- The upload that the callback of a RECORD_ACK pushes. -/
def kzWsAckRecordAck (localUid : Option Bytes) : Files (Option Upload) :=
  match localUid with
  | none => pure none
  | some uid =>
    if ¬ kzWsValidReplaySegment uid then pure none
    else do
      let replay := replayPath dataDir uid (str ".krpr")
      if ← fileExists replay then pure (some ⟨replay.take 254, uid.take 63⟩)
      else pure none

/-- A RECORD_ACK with its callback. -/
def onRecordAck (localUid : Option Bytes) : Files Unit := do
  match ← kzWsAckRecordAck dataDir localUid with
  | none => pure ()
  | some metadata => kzRpCompressAndUploadAsync env metadata

/-! ### FILE_ACK -/

/-- What a FILE_ACK leaves to the main thread. -/
inductive FileAckCallback
  | findReplay (mapname : Bytes)
  | requeue (uid : Bytes)

/-- `kz_ws_ack_file_ack`; the callback is for the main thread. -/
def kzWsAckFileAck (localUid : Option Bytes) (status : Bool) : Files (Option FileAckCallback) :=
  match localUid with
  | none => pure none
  | some uid =>
    if ¬ kzWsValidReplaySegment uid then pure none
    else
      let uid := uid.take 63
      if ¬ status then pure (some (.requeue uid))
      else do
        let filepath := replayPath dataDir uid (str ".krpr")
        match ← readFile filepath with
        | none => pure none
        | some b =>
          let mapname := (kzRpMapnameFromHeader ⟨b, 0⟩).1
          if mapname = [] ∨ ¬ kzWsValidReplaySegment mapname then pure none
          else do
            let filepath := replaceExtension filepath (str ".krpz")
            let nFilepath := mapReplayPath dataDir mapname uid (str ".krpz")
            if ← fileExists filepath then
              if ← createDirectories (parentPath nFilepath) then
                if ← renameFile filepath nFilepath then do
                  let _ ← removeFile (replayPath dataDir uid (str ".krpr"))
                  kzRpPruneReplays dataDir mapname env.maxReplays env.pruneTrigger
                    env.gEarlyMapchange
                  pure (some (.findReplay mapname))
                else pure none
              else pure none
            else pure none

/-- `kz_ws_requeue_replay_upload` looks for the compressed replay first. -/
def kzWsRequeueReplayUpload (uid : Bytes) : Files Unit :=
  if uid = [] then pure ()
  else do
    let replay := replayPath dataDir uid (str ".krpz")
    let compressed ← fileExists replay
    let replay := if compressed then replay else replaceExtension replay (str ".krpr")
    if ← fileExists replay then
      if env.active uid then pure ()
      else kzRpCompressAndUploadAsync env ⟨replay.take 254, uid.take 63⟩
    else pure ()

/-- A FILE_ACK with its callback. -/
def onFileAck (localUid : Option Bytes) (status : Bool) : Files Unit := do
  match ← kzWsAckFileAck dataDir env localUid status with
  | none => pure ()
  | some (.requeue uid) => kzWsRequeueReplayUpload dataDir env uid
  | some (.findReplay mapname) =>
    if mapname ≠ env.mapname then pure ()
    else
      match ← kzPbFindSrReplay dataDir env mapname with
      | none => pure ()
      | some file =>
        if env.playing.map filename = some (filename file) then pure ()
          else kzPbParseFileAsync env file

/-! ### GET_REPLAY_ACK -/

/-- The callback of a download: `ok` where a body came. -/
def kzWsDownloadReplay (mapname uid : Bytes) (ok : Bool) (body : Bytes) : Files Unit :=
  if ¬ ok ∨ mapname ≠ env.mapname then pure ()
  else do
    let outPath := mapReplayPath dataDir mapname uid (str ".krpz")
    if ← createDirectories (parentPath outPath) then
      match ← writeFile outPath body with
      | none => pure ()
      | some written =>
        if written ≠ body.length then
          let _ ← removeFile outPath
        else kzPbParseFileAsync env outPath
    else pure ()

/-- A GET_REPLAY_ACK with the callback of its download. -/
def onGetReplayAck (url localUid mapName : Field) (ok : Bool) (body : Bytes) : Files Unit :=
  match kzWsAckGetReplay env.mapHasProWr url localUid mapName with
  | .download mapname uid => kzWsDownloadReplay dataDir env mapname uid ok body
  | _ => pure ()

/-! ### DEL_RECORD_NOTIFY -/

/-- `kz_ws_delete_replay_files`, in the folder of the map or in the one above. -/
def kzWsDeleteReplayFiles (uid : Bytes) (mapname : Option Bytes) : Files Unit :=
  if uid = [] then pure ()
  else
    let path (ext : Bytes) :=
      match mapname with
      | some mapname => mapReplayPath dataDir mapname uid ext
      | none => replayPath dataDir uid ext
    removeEach [path (str ".krpr"), path (str ".krpz")]

/-- `kz_ws_delete_record_replay`; both texts must be segments. -/
def kzWsDeleteRecordReplay (mapname uid : Bytes) : Files Unit :=
  if ¬ kzWsValidReplaySegment mapname ∨ ¬ kzWsValidReplaySegment uid then pure ()
  else do
    kzWsDeleteReplayFiles dataDir uid (some mapname)
    kzPbReloadSrBot dataDir env mapname

/-- A DEL_RECORD_NOTIFY with its callback. -/
def onDelRecordNotify (mapname localUid : Option Bytes) : Files Unit :=
  match System.kzWsAckDelRecordNotify mapname localUid with
  | some (.deleteRecord mapname uid) => kzWsDeleteRecordReplay dataDir env mapname uid
  | _ => pure ()

end Programs

/-! ### Where nothing fails -/

theorem run_removeEach_eq (entries : Bytes → List Bytes) :
    ∀ (ps : List Bytes) (d : Disk Bytes UInt8),
    ((removeEach ps).run entries d).1 = ps.foldl Disk.unlink d
  | [], _ => rfl
  | p :: ps, d => by
    rw [removeEach, Prog.run_bind, List.foldl_cons, ← run_removeEach_eq entries ps]
    rfl

theorem run_kzWsDeleteReplayFiles (entries : Bytes → List Bytes) (dataDir uid : Bytes)
    (mapname : Option Bytes) (d : Disk Bytes UInt8) :
    ((kzWsDeleteReplayFiles dataDir uid mapname).run entries d).1 =
      System.kzWsDeleteReplayFiles dataDir uid mapname d := by
  unfold kzWsDeleteReplayFiles System.kzWsDeleteReplayFiles
  by_cases h0 : uid = []
  · rw [if_pos h0, if_pos h0]
    rfl
  · rw [if_neg h0, if_neg h0, run_removeEach_eq]
    rcases mapname with _ | mapname <;> rfl

theorem run_kzWsAckRecordAck (entries : Bytes → List Bytes) (dataDir : Bytes) (now : ℤ)
    (localUid : Option Bytes) (s : System.Sys) :
    ((kzWsAckRecordAck dataDir localUid).run entries s.disk).2.map System.Callback.upload =
      (System.kzWsAckRecordAck dataDir now localUid s).2 := by
  unfold kzWsAckRecordAck System.kzWsAckRecordAck
  rcases localUid with _ | uid
  · rfl
  · by_cases hv : kzWsValidReplaySegment uid = true
    · by_cases hd : (s.disk (replayPath dataDir uid (str ".krpr"))).isSome = true
      · simp [hv, hd]
      · simp [hv, hd]
    · simp [hv]

/-! ### Places among the replays -/

/-- A single component that is no dot. -/
def Component (c : Bytes) : Prop := c ≠ [] ∧ (47 : UInt8) ∉ c ∧ c ≠ str "." ∧ c ≠ str ".."

/-- `replays/<file>` or `replays/<map>/<file>`. -/
def AmongReplays (dataDir p : Bytes) : Prop :=
  (∃ file, Component file ∧ p = replaysDir dataDir ++ 47 :: file) ∨
  ∃ mapname file, Component mapname ∧ Component file ∧
    p = replaysDir dataDir ++ 47 :: mapname ++ 47 :: file

/-- An entry of a directory. -/
def EntryOf (dir entry : Bytes) : Prop := ∃ name, Component name ∧ entry = joinPath dir name

theorem component_of_length {c : Bytes} (h : (47 : UInt8) ∉ c) (hl : 2 < c.length) :
    Component c := by
  refine ⟨?_, h, ?_, ?_⟩
  all_goals
    rintro rfl
    exact absurd hl (by decide)

theorem component_of_segment {c : Bytes} (h : kzWsValidReplaySegment c = true) : Component c := by
  refine ⟨segment_ne_nil h, no_slash_of_segment h, ?_, ?_⟩
  all_goals
    rintro rfl
    exact absurd h (by decide)

/-- The extensions of the module: no separator, and longer than two dots. -/
def Ext (ext : Bytes) : Prop := (47 : UInt8) ∉ ext ∧ 2 < ext.length

instance (ext : Bytes) : Decidable (Ext ext) := by unfold Ext; infer_instance

theorem component_append {stem ext : Bytes} (hs : (47 : UInt8) ∉ stem) (he : Ext ext) :
    Component (stem ++ ext) := by
  refine component_of_length ?_ ?_
  · rw [List.mem_append, not_or]
    exact ⟨hs, he.1⟩
  · have := he.2
    rw [List.length_append]
    omega

section Places
variable {dataDir : Bytes}

/-- **Replacing the extension stays at the place.** -/
theorem AmongReplays.replaceExtension {p ext : Bytes} (h : AmongReplays dataDir p) (he : Ext ext) :
    AmongReplays dataDir (replaceExtension p ext) := by
  rcases h with ⟨file, hf, rfl⟩ | ⟨mapname, file, hm, hf, rfl⟩
  · obtain ⟨stem, -, hs, hr⟩ := replaceExtension_append hf.2.1 hf.1 (replaysDir dataDir)
    exact Or.inl ⟨stem ++ ext, component_append hs he, hr ext⟩
  · obtain ⟨stem, -, hs, hr⟩ :=
      replaceExtension_append hf.2.1 hf.1 (replaysDir dataDir ++ 47 :: mapname)
    exact Or.inr ⟨mapname, stem ++ ext, hm, component_append hs he, hr ext⟩

theorem among_join {uid : Bytes} (hu : kzWsValidReplaySegment uid = true) :
    AmongReplays dataDir (joinPath (replaysDir dataDir) uid) :=
  Or.inl ⟨uid, component_of_segment hu, joinPath_replaysDir _ (no_slash_of_segment hu)⟩

theorem among_replayPath {uid ext : Bytes} (hu : kzWsValidReplaySegment uid = true) (he : Ext ext) :
    AmongReplays dataDir (replayPath dataDir uid ext) := (among_join hu).replaceExtension he

theorem among_entry {mapname e : Bytes} (hm : kzWsValidReplaySegment mapname = true)
    (he : EntryOf (joinPath (replaysDir dataDir) mapname) e) : AmongReplays dataDir e := by
  obtain ⟨name, hn, rfl⟩ := he
  exact Or.inr ⟨mapname, name, component_of_segment hm, hn, mapDir_eq dataDir hm hn.2.1⟩

theorem among_mapReplayPath {mapname uid ext : Bytes} (hm : kzWsValidReplaySegment mapname = true)
    (hu : kzWsValidReplaySegment uid = true) (he : Ext ext) :
    AmongReplays dataDir (mapReplayPath dataDir mapname uid ext) :=
  (among_entry hm ⟨uid, component_of_segment hu, rfl⟩).replaceExtension he

theorem among_parentPath {mapname uid ext : Bytes} (hm : kzWsValidReplaySegment mapname = true)
    (hu : kzWsValidReplaySegment uid = true) (he : Ext ext) :
    AmongReplays dataDir (parentPath (mapReplayPath dataDir mapname uid ext)) := by
  have hm47 := no_slash_of_segment hm
  obtain ⟨stem, -, hs, hr⟩ := replaceExtension_append (no_slash_of_segment hu) (segment_ne_nil hu)
    (replaysDir dataDir ++ 47 :: mapname)
  have hlast : (replaysDir dataDir ++ 47 :: mapname).getLast? ≠ some 47 := by
    rw [List.getLast?_append_of_ne_nil _ (List.cons_ne_nil _ _),
      List.getLast?_cons_of_ne_nil (segment_ne_nil hm)]
    exact fun hl => hm47 (List.mem_of_getLast? hl)
  rw [mapReplayPath, mapDir_eq dataDir hm (no_slash_of_segment hu), hr,
    parentPath_append (by simp) hlast (component_append hs he).2.1]
  exact Or.inl ⟨mapname, component_of_segment hm, rfl⟩

/-- **A path that is cut to its buffer** is cut inside the name of the file. -/
theorem among_take {uid ext : Bytes} (hd : ShortDir dataDir)
    (hu : kzWsValidReplaySegment uid = true)
    (he : Ext ext) : AmongReplays dataDir ((replayPath dataDir uid ext).take 254) := by
  obtain ⟨stem, -, hs, hr⟩ := replaceExtension_append (no_slash_of_segment hu) (segment_ne_nil hu)
    (replaysDir dataDir)
  have hc := component_append hs he
  have hlen : 2 < (stem ++ ext).length := by
    have := he.2
    rw [List.length_append]
    omega
  unfold ShortDir at hd
  obtain ⟨k, hk, hk2⟩ : ∃ k, 254 = (replaysDir dataDir).length + (k + 1) ∧ 2 < k :=
    ⟨253 - (replaysDir dataDir).length, by omega, by omega⟩
  rw [replayPath, joinPath_replaysDir _ (no_slash_of_segment hu), hr, hk,
    List.take_length_add_append, List.take_succ_cons]
  refine Or.inl ⟨_, component_of_length (fun h => hc.2.1 (List.mem_of_mem_take h)) ?_, rfl⟩
  rw [List.length_take]
  omega

end Places

/-! ### The programs stay among the replays -/

theorem mem_of_foldl_pickBest : ∀ {entries : List Bytes} {best : Option (Bytes × ℕ × ℕ)}
    {file : Bytes} {run : ℕ × ℕ}, entries.foldl pickBest best = some (file, run) →
      file ∈ entries ∨ best = some (file, run)
  | [], _, _, _, h => Or.inr h
  | e :: entries, best, file, run, h => by
    rw [List.foldl_cons] at h
    rcases mem_of_foldl_pickBest h with hm | hb
    · exact Or.inl (List.mem_cons_of_mem _ hm)
    · unfold pickBest at hb
      split_ifs at hb
      · exact Or.inr hb
      · split at hb
        · exact Or.inr hb
        · split at hb
          · rw [Option.some.injEq, Prod.mk.injEq] at hb
            exact Or.inl (hb.1 ▸ List.mem_cons_self)
          · split_ifs at hb
            · rw [Option.some.injEq, Prod.mk.injEq] at hb
              exact Or.inl (hb.1 ▸ List.mem_cons_self)
            · exact Or.inr hb

section Inside
variable {dataDir : Bytes}

/-- What stays among the replays, where the entries of a directory are its own. -/
abbrev Stays {β : Type} (dataDir : Bytes) (Q : β → Prop) (x : Files β) : Prop :=
  x.Inside (AmongReplays dataDir) EntryOf Q

theorem stays_findBest {mapname : Bytes} (hm : kzWsValidReplaySegment mapname = true) :
    Stays dataDir (fun file => ∀ p, file = some p → AmongReplays dataDir p)
      (kzReplayFindBestInDir (joinPath (replaysDir dataDir) mapname)) := by
  refine (inside_listDirectory (among_join hm)).bind fun entries he => ?_
  intro p hp
  obtain ⟨⟨file, run⟩, hfold, rfl⟩ := Option.map_eq_some_iff.mp hp
  exact among_entry hm (he _ ((mem_of_foldl_pickBest hfold).resolve_right (by simp)))

theorem stays_removeEach : ∀ {ps : List Bytes}, (∀ p ∈ ps, AmongReplays dataDir p) →
    Stays dataDir (fun _ => True) (removeEach ps)
  | [], _ => trivial
  | p :: ps, h => by
    rw [List.forall_mem_cons] at h
    exact (inside_removeFile h.1).bind fun _ _ => stays_removeEach h.2

theorem stays_prune {mapname : Bytes} (hm : kzWsValidReplaySegment mapname = true)
    (maxReplays pruneTrigger : ℤ) (gEarlyMapchange : Bool) : Stays dataDir (fun _ => True)
      (kzRpPruneReplays dataDir mapname maxReplays pruneTrigger gEarlyMapchange) := by
  refine inside_ite (fun _ => trivial) fun _ => ?_
  refine (inside_listDirectory (among_join hm)).bind fun entries he => ?_
  refine inside_ite (fun _ => trivial) fun _ => inside_ite (fun _ => ?_) fun _ => trivial
  refine stays_removeEach fun p hp => among_entry hm (he p ?_)
  have hmem := (List.mem_insertionSort _).mp (List.mem_of_mem_drop hp)
  exact (List.mem_filter.mp hmem).1

variable (env : Env)

theorem stays_kzPbParseFileAsync {file : Bytes} (h : AmongReplays dataDir file) :
    Stays dataDir (fun _ => True) (kzPbParseFileAsync env file) := by
  refine inside_ite (fun _ => ?_) fun _ => trivial
  refine (inside_readFile h).bind fun b _ => ?_
  split
  · trivial
  · exact inside_ite (fun _ => (inside_fileExists h).bind fun _ _ => trivial) fun _ => trivial

theorem stays_kzRpCompressFile {file : Bytes} (h : AmongReplays dataDir file) :
    Stays dataDir (fun _ => True) (kzRpCompressFile env.zstd file) := by
  refine Prog.Inside.bind (Q := fun _ => True) ((inside_readFile h).bind fun _ _ => trivial)
    fun src _ => ?_
  split
  · trivial
  · split
    · trivial
    · exact (inside_writeFile (h.replaceExtension (by decide)) _).bind fun _ _ => trivial

theorem stays_kzRpCompressAndUploadAsync {item : Upload} (h : AmongReplays dataDir item.filepath) :
    Stays dataDir (fun _ => True) (kzRpCompressAndUploadAsync env item) := by
  refine inside_ite (fun _ => inside_ite (fun _ => ?_) fun _ => ?_) fun _ => trivial
  · exact (inside_readFile h).bind fun _ _ => trivial
  · exact (stays_kzRpCompressFile env h).bind fun _ _ => trivial

section Map
variable {mapname : Bytes} (hm : kzWsValidReplaySegment mapname = true)
include hm

theorem stays_kzPbFindFastest :
    Stays dataDir (fun file => ∀ p, file = some p → AmongReplays dataDir p)
    (kzPbFindFastest dataDir mapname) := by
  rw [kzPbFindFastest, if_neg (segment_ne_nil hm)]
  exact stays_findBest hm

theorem stays_kzPbFindSrReplay :
    Stays dataDir (fun file => ∀ p, file = some p → AmongReplays dataDir p)
    (kzPbFindSrReplay dataDir env mapname) := by
  have hnone : ∀ p, (none : Option Bytes) = some p → AmongReplays dataDir p :=
    fun p hp => by cases hp
  refine (stays_kzPbFindFastest hm).bind fun file hf => ?_
  split
  · exact hnone
  · exact inside_ite (fun _ => hnone) fun _ => hf

theorem stays_kzWsTryFetchReplay :
    Stays dataDir (fun _ => True) (kzWsTryFetchReplay dataDir env mapname) := by
  refine inside_ite (fun _ => trivial) fun _ => ?_
  refine Prog.Inside.bind (Q := fun _ => True) ?_ fun _ _ => trivial
  refine (stays_kzPbFindFastest hm).bind fun file _ => ?_
  split
  · trivial
  · exact inside_ite (fun _ => (stays_kzPbFindFastest hm).bind fun _ _ => trivial) fun _ => trivial

theorem stays_kzPbReloadSrBot :
    Stays dataDir (fun _ => True) (kzPbReloadSrBot dataDir env mapname) := by
  refine inside_ite (fun _ => trivial) fun _ => ?_
  refine (stays_kzPbFindSrReplay env hm).bind fun file hf => ?_
  split
  · exact inside_ite (fun _ => trivial) fun _ => stays_kzPbParseFileAsync env (hf _ rfl)
  · exact inside_ite (fun _ => (stays_kzWsTryFetchReplay env hm).bind fun _ _ => trivial)
      fun _ => trivial

end Map

/-! ### The handlers -/

theorem stays_onRecordAck (hd : ShortDir dataDir) (localUid : Option Bytes) :
    Stays dataDir (fun _ => True) (onRecordAck dataDir env localUid) := by
  have hnone : ∀ m, (none : Option Upload) = some m → AmongReplays dataDir m.filepath :=
    fun m hm => by cases hm
  refine Prog.Inside.bind (Q := fun item => ∀ m : Upload, item = some m →
    AmongReplays dataDir m.filepath)
    ?_ fun item hi => ?_
  · unfold kzWsAckRecordAck
    split
    · exact hnone
    · refine inside_ite (fun _ => hnone) fun hu => ?_
      rw [not_not] at hu
      refine (inside_fileExists (among_replayPath hu (by decide))).bind fun ok _ => ?_
      refine inside_ite (fun _ => ?_) fun _ => hnone
      rintro m ⟨⟩
      exact among_take hd hu (by decide)
  · split
    · trivial
    · exact stays_kzRpCompressAndUploadAsync env (hi _ rfl)

/-- What a FILE_ACK leaves to the main thread: a valid map, or a valid uid. -/
def ValidCallback : Option FileAckCallback → Prop
  | none => True
  | some (.findReplay mapname) => kzWsValidReplaySegment mapname = true
  | some (.requeue uid) => kzWsValidReplaySegment uid = true

theorem stays_kzWsAckFileAck (localUid : Option Bytes) (status : Bool) :
    Stays dataDir ValidCallback (kzWsAckFileAck dataDir env localUid status) := by
  unfold kzWsAckFileAck
  split
  · trivial
  · rename_i uid
    refine inside_ite (fun _ => trivial) fun hv => ?_
    rw [not_not] at hv
    have hu := (Upload.fitsUid_take hv).1
    refine inside_ite (fun _ => hu) fun _ => ?_
    refine (inside_readFile (among_replayPath hu (by decide))).bind fun b _ => ?_
    split
    · trivial
    · refine inside_ite (fun _ => trivial) fun hm => ?_
      rw [not_or, not_not] at hm
      have hkrpz : AmongReplays dataDir
          (replaceExtension (replayPath dataDir (uid.take 63) (str ".krpr")) (str ".krpz")) :=
        (among_replayPath hu (by decide)).replaceExtension (by decide)
      refine (inside_fileExists hkrpz).bind fun there _ => inside_ite (fun _ => ?_) fun _ => trivial
      refine (inside_createDirectories (among_parentPath hm.2 hu (by decide))).bind fun made _ =>
        inside_ite (fun _ => ?_) fun _ => trivial
      refine (inside_renameFile hkrpz (among_mapReplayPath hm.2 hu (by decide))).bind fun moved _ =>
        inside_ite (fun _ => ?_) fun _ => trivial
      refine (inside_removeFile (among_replayPath hu (by decide))).bind fun _ _ => ?_
      exact (stays_prune hm.2 _ _ _).bind fun _ _ => hm.2

theorem stays_kzWsRequeueReplayUpload (hd : ShortDir dataDir) {uid : Bytes}
    (hu : kzWsValidReplaySegment uid = true) :
    Stays dataDir (fun _ => True) (kzWsRequeueReplayUpload dataDir env uid) := by
  refine inside_ite (fun _ => trivial) fun _ => ?_
  refine (inside_fileExists (among_replayPath hu (by decide))).bind fun compressed _ => ?_
  have hpath : AmongReplays dataDir (if compressed then replayPath dataDir uid (str ".krpz")
        else replaceExtension (replayPath dataDir uid (str ".krpz")) (str ".krpr")) ∧
      AmongReplays dataDir ((if compressed then replayPath dataDir uid (str ".krpz")
        else replaceExtension (replayPath dataDir uid (str ".krpz")) (str ".krpr")).take 254) := by
    rw [replaceExtension_krpz _ hu]
    split_ifs
    · exact ⟨among_replayPath hu (by decide), among_take hd hu (by decide)⟩
    · exact ⟨among_replayPath hu (by decide), among_take hd hu (by decide)⟩
  refine (inside_fileExists hpath.1).bind fun there _ => inside_ite (fun _ => ?_) fun _ => trivial
  exact inside_ite (fun _ => trivial) fun _ => stays_kzRpCompressAndUploadAsync env hpath.2

theorem stays_onFileAck (hd : ShortDir dataDir) (localUid : Option Bytes) (status : Bool) :
    Stays dataDir (fun _ => True) (onFileAck dataDir env localUid status) := by
  refine (stays_kzWsAckFileAck env localUid status).bind fun callback hc => ?_
  split
  · trivial
  · exact stays_kzWsRequeueReplayUpload env hd hc
  · refine inside_ite (fun _ => trivial) fun _ => (stays_kzPbFindSrReplay env hc).bind
      fun file hf => ?_
    split
    · trivial
    · exact inside_ite (fun _ => trivial) fun _ => stays_kzPbParseFileAsync env (hf _ rfl)

theorem stays_onGetReplayAck (url localUid mapName : Field) (ok : Bool) (body : Bytes) :
    Stays dataDir (fun _ => True) (onGetReplayAck dataDir env url localUid mapName ok body) := by
  unfold onGetReplayAck
  split
  · rename_i mapname uid hdown
    obtain ⟨hm, hu⟩ := valid_of_download hdown
    have hpath : AmongReplays dataDir (mapReplayPath dataDir mapname uid (str ".krpz")) :=
      among_mapReplayPath hm hu (by decide)
    refine inside_ite (fun _ => trivial) fun _ => ?_
    refine (inside_createDirectories (among_parentPath hm hu (by decide))).bind fun made _ =>
      inside_ite (fun _ => ?_) fun _ => trivial
    refine (inside_writeFile hpath body).bind fun written _ => ?_
    split
    · trivial
    · exact inside_ite (fun _ => (inside_removeFile hpath).bind fun _ _ => trivial)
        fun _ => stays_kzPbParseFileAsync env hpath
  · trivial

theorem stays_onDelRecordNotify (mapname localUid : Option Bytes) :
    Stays dataDir (fun _ => True) (onDelRecordNotify dataDir env mapname localUid) := by
  unfold onDelRecordNotify
  split
  · refine inside_ite (fun _ => trivial) fun hv => ?_
    rw [not_or, not_not, not_not] at hv
    refine Prog.Inside.bind (Q := fun _ => True) ?_ fun _ _ => stays_kzPbReloadSrBot env hv.1
    refine inside_ite (fun _ => trivial) fun _ => stays_removeEach ?_
    simp only [List.forall_mem_cons, List.not_mem_nil, false_imp_iff, implies_true, and_true]
    exact ⟨among_mapReplayPath hv.1 hv.2 (by decide), among_mapReplayPath hv.1 hv.2 (by decide)⟩
  · trivial

end Inside

/-- Every execution touches files among the replays only, where the listing of a directory gives its
own entries. -/
def TouchesReplays (dataDir : Bytes) (x : Files Unit) : Prop :=
  ∀ d tr d', Exec d x tr d' () → (∀ p es, .list p es ∈ tr → ∀ e ∈ es, EntryOf p e) →
    ∀ o ∈ tr, ∀ p ∈ o.paths, AmongReplays dataDir p

theorem touches_of_stays {dataDir : Bytes} {x : Files Unit} (h : Stays dataDir (fun _ => True) x) :
    TouchesReplays dataDir x := fun _ _ _ he hl => (he.inside h hl).1

/-- **Every file operation stays inside the replays**: those on the paths that the administrator
names and those of the server's messages. -/
theorem files_stay_inside (amxxDatadir : CString 127)
    (hd : .dotDot ∉ (parse (gDataDir amxxDatadir)).names) :
    (∀ relative, kzWsValidReplaysRelativePath relative = true →
      ∃ outFile comps, kzAdminResolveReplayPath (gDataDir amxxDatadir) relative = some outFile ∧
        comps ≠ [] ∧ (∀ c ∈ comps, kzWsValidReplaySegment c = true) ∧
        (parse outFile).lexicallyNormal.elements =
          (parse (replaysDir (gDataDir amxxDatadir))).lexicallyNormal.elements ++ comps) ∧
    ∀ env,
      (∀ localUid, TouchesReplays (gDataDir amxxDatadir)
        (onRecordAck (gDataDir amxxDatadir) env localUid)) ∧
      (∀ localUid status, TouchesReplays (gDataDir amxxDatadir)
        (onFileAck (gDataDir amxxDatadir) env localUid status)) ∧
      (∀ url localUid mapName ok body, TouchesReplays (gDataDir amxxDatadir)
        (onGetReplayAck (gDataDir amxxDatadir) env url localUid mapName ok body)) ∧
      ∀ mapname localUid, TouchesReplays (gDataDir amxxDatadir)
        (onDelRecordNotify (gDataDir amxxDatadir) env mapname localUid) := by
  have hshort := shortDir_gDataDir amxxDatadir
  refine ⟨fun relative h => resolve_inside hd h,
    fun env => ⟨fun localUid => ?_, fun localUid status => ?_,
    fun url localUid mapName ok body => ?_, fun mapname localUid => ?_⟩⟩
  · exact touches_of_stays (stays_onRecordAck env hshort localUid)
  · exact touches_of_stays (stays_onFileAck env hshort localUid status)
  · exact touches_of_stays (stays_onGetReplayAck env url localUid mapName ok body)
  · exact touches_of_stays (stays_onDelRecordNotify env mapname localUid)

/-- A path into the directory of a map resolves, in the directory that AMX Mod X takes by
default. -/
theorem files_stay_inside_sample : ∃ outFile comps,
    kzAdminResolveReplayPath (gDataDir Kept.sampleDatadir) (str "a/0_00012345_0123_10.krpz") =
    some outFile ∧
      comps ≠ [] ∧ (∀ c ∈ comps, kzWsValidReplaySegment c = true) ∧
      (parse outFile).lexicallyNormal.elements =
        (parse (replaysDir (gDataDir Kept.sampleDatadir))).lexicallyNormal.elements ++ comps :=
  (files_stay_inside Kept.sampleDatadir (by decide +kernel)).1 (str "a/0_00012345_0123_10.krpz")
    (by decide +kernel)

end KzGlobal.Submit.Confined
