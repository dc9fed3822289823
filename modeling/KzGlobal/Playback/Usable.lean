import KzGlobal.Replay.Best
import KzGlobal.Submit.Confined

/-! # Replays that are played and replays that are asked for

`kz_pb_find_sr_replay` chooses what the bot plays, and `kz_ws_local_replay_is_sufficient` whether a
replay is asked of the server. Both look at the best file of the map, and where the map has a pro
record, at its class: the one rejects class 1, the other wants class 0. The names of runs have no
other class, but the parser takes one up to 9, as a run with a prefix may get it. So the two agree
but where the map has a pro record and every replay of it has a class above 1
(`sameNotion_iff`). -/

namespace KzGlobal.Playback.Usable

open KzGlobal.Lib.Stdio KzGlobal.Lib.FileProgram KzGlobal.Krp.Format
open KzGlobal.Replay.Text KzGlobal.Replay.Paths KzGlobal.Replay.Selection KzGlobal.Replay.Best
  KzGlobal.Submit.Confined

/-- What the two functions read of `g_current_map_info`. -/
structure MapInfo where
  updated : Bool
  szWRPro : Bytes

/-- `kz_ws_map_has_pro_wr`: the map's information has come, and it names a pro record. -/
def kzWsMapHasProWr (info : MapInfo) : Bool := info.updated && info.szWRPro ≠ []

section Folder
variable (dataDir : Bytes) (env : Env) (info : MapInfo) (mapname : Bytes) (folder : List DirEntry)
  (disk : Disk Bytes UInt8)

/-- `kz_pb_find_sr_replay` on a folder. -/
def played : Option Bytes :=
  ((kzPbFindSrReplay dataDir { env with mapHasProWr := kzWsMapHasProWr info } mapname).run
    (fun _ => visible folder) disk).2

/-- `kz_ws_local_replay_is_sufficient` on a folder. -/
def sufficient : Bool :=
  ((kzWsLocalReplayIsSufficient dataDir { env with mapHasProWr := kzWsMapHasProWr info }
    mapname).run (fun _ => visible folder) disk).2

/-- **One notion of a usable replay**: a replay suffices where one is played. -/
def SameNotion : Prop :=
  sufficient dataDir env info mapname folder disk = true ↔
    played dataDir env info mapname folder disk ≠ none

/-- There are replays among the files, and all of them have a class above 1. -/
def NoKnownClass : Prop :=
  (∃ p ∈ visible folder, runOf p ≠ none) ∧
    ∀ p ∈ visible folder, ∀ run, runOf p = some run → 1 < run.1

/-! ### The two functions -/

/-- The best file of the folder. -/
def fastest : Option Bytes := if mapname = [] then none else findBestInDir folder

theorem run_kzPbFindFastest : (kzPbFindFastest dataDir mapname).run (fun _ => visible folder) disk =
    (disk, fastest mapname folder) := by
  unfold kzPbFindFastest fastest
  split_ifs
  · rfl
  · rw [findBestInDir_eq]
    simp [kzReplayFindBestInDir]

theorem played_eq : played dataDir env info mapname folder disk =
    (fastest mapname folder).filter fun file =>
      ¬ (kzWsMapHasProWr info = true ∧ fileClass file = some 1) := by
  unfold played kzPbFindSrReplay
  rw [Prog.run_bind, run_kzPbFindFastest]
  cases fastest mapname folder with
  | none => rfl
  | some file =>
    rw [Option.filter_some]
    by_cases h : kzWsMapHasProWr info = true ∧ fileClass file = some 1
    · simp [h]
    · simp only [h, if_false]
      rfl

theorem sufficient_eq : sufficient dataDir env info mapname folder disk =
    (fastest mapname folder).any fun file =>
      !kzWsMapHasProWr info || fileClass file = some 0 := by
  unfold sufficient kzWsLocalReplayIsSufficient
  rw [Prog.run_bind, run_kzPbFindFastest]
  cases hfile : fastest mapname folder with
  | none => rfl
  | some file =>
    cases hpro : kzWsMapHasProWr info with
    | false => simp
    | true => simp [run_kzPbFindFastest, hfile]

/-! ### Where they agree -/

theorem fileClass_of_runOf {p : Bytes} {run : ℕ × ℕ} (h : runOf p = some run) :
    fileClass p = some run.1 := by
  unfold runOf at h
  split_ifs at h
  rw [fileClass, h, Option.map_some]

variable {folder} in
theorem noKnownClass_iff {p : Bytes} (h : findBestInDir folder = some p) :
    ∃ run, runOf p = some run ∧ (NoKnownClass folder ↔ 1 < run.1) := by
  obtain ⟨run, hp, hrun, hleast⟩ := findBestInDir_eq_some h
  refine ⟨run, hrun, fun hknown => hknown.2 p hp run hrun, fun hlt => ⟨⟨p, hp, ?_⟩, ?_⟩⟩
  · rw [hrun]
    exact Option.some_ne_none run
  · intro q hq run' hrun'
    have hworse := hleast q hq run' hrun'
    rw [not_isBetter_iff] at hworse
    omega

/-- **The two functions agree** exactly where the map has no pro record, there is no replay or one
of them has class 0 or 1. -/
theorem sameNotion_iff : SameNotion dataDir env info mapname folder disk ↔
    ¬ (mapname ≠ [] ∧ kzWsMapHasProWr info = true ∧ NoKnownClass folder) := by
  rw [SameNotion, sufficient_eq, played_eq, fastest]
  by_cases hm : mapname = []
  · simp [hm]
  rw [if_neg hm]
  cases hfind : findBestInDir folder with
  | none =>
    have hnone := findBestInDir_eq_none.mp hfind
    have hunknown : ¬ NoKnownClass folder := by
      rintro ⟨⟨p, hp, hrun⟩, -⟩
      exact hrun (hnone p hp)
    simp [hunknown]
  | some file =>
    obtain ⟨run, hrun, hclass⟩ := noKnownClass_iff hfind
    rw [Option.filter_some, Option.any_some, fileClass_of_runOf hrun, hclass]
    cases kzWsMapHasProWr info with
    | false => simp
    | true =>
      have hplayed : (run.1 = 0 ↔ ¬ run.1 = 1) ↔ ¬ 1 < run.1 := by omega
      simpa [hm] using hplayed

end Folder

/-- A run that was saved with the prefix `2`. -/
def sampleReplay : Bytes :=
  joinPath (joinPath (replaysDir (str "d")) (str "a"))
    (uidStr 0 12345 (str "012345") 36 false 50 ++ str ".krpz")

/-- It is the only replay of the map. -/
def sampleFolder : List DirEntry := [⟨sampleReplay, some true⟩]

/-- A map with a record without teleports. -/
def sampleInfo : MapInfo := ⟨true, str "STEAM_0:1:2345 (00:12.34)"⟩

/-- A server that plays nothing, on a map with a pro record. -/
def sampleEnv : Env where
  zstd _ := none
  parses _ := true
  mapname := str "a"
  mapHasProWr := true
  playing := none
  active _ := false
  uploadRoom := true
  parseRoom := true
  connected := true
  replaysDownload := true
  fetchBlocked := false
  maxReplays := 5
  pruneTrigger := 10
  gEarlyMapchange := false

/-- The replay is played, and another one is asked for. -/
theorem sameNotion_fails : ¬ ∀ (dataDir : Bytes) (env : Env) (info : MapInfo) (mapname : Bytes)
    (folder : List DirEntry) (disk : Disk Bytes UInt8),
    SameNotion dataDir env info mapname folder disk := by
  intro h
  have hsame := h (str "d") sampleEnv sampleInfo (str "a") sampleFolder fun _ => none
  have hplayed : played (str "d") sampleEnv sampleInfo (str "a") sampleFolder (fun _ => none) =
      some sampleReplay := by decide +kernel
  have hsufficient : sufficient (str "d") sampleEnv sampleInfo (str "a") sampleFolder
      (fun _ => none) = false := by decide +kernel
  rw [SameNotion, hplayed, hsufficient] at hsame
  exact absurd (hsame.mpr (Option.some_ne_none _)) (by decide)

end KzGlobal.Playback.Usable
