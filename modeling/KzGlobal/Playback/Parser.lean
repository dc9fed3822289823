import KzGlobal.Playback.MsTotal

/-! # What the parser thread opens and closes

A pass of the parser thread opens the file at the front of the queue, parses it, pushes what it
found and pops the queue. It has exits for every way in which this can fail, and each pops the
queue; but the two behind a name that holds no time do not close the file. A pass is balanced where
it does not leave through them, and each that does leaves one file open
(`parser_balances_iff`, `kzPbParserThread_eq`). -/

namespace KzGlobal.Playback.Parser

open KzGlobal.Lib.PosixPath KzGlobal.Krp.Format KzGlobal.Replay.Text KzGlobal.Playback.Threads
  KzGlobal.Playback.MsTotal

/-! ### One pass -/

/-- An open file: its size, and the bytes that `fread` returns for it. -/
structure OpenedFile where
  size : ℕ
  read : Bytes
  deriving DecidableEq

/-- A path of the queue, with what the system does with it: the file that `fopen` opens, if it does,
and whether `exists` finds it after the parse. -/
structure Job where
  path : Path
  fopen : Option OpenedFile
  present : Bool
  deriving DecidableEq

/-- What a pass does with the file, the parsed replays and the queue. -/
inductive Act
  | fopen
  | fclose
  | push (pb : KrpPlayback)
  | pop

/-- One pass of `kz_pb_parser_thread`, over the front of the queue. The lines that it logs are left
out. -/
def kzPbParserPass (unzstd : Bytes → Option Bytes) (job : Job) : List Act :=
  match job.fopen with
  | none => [.pop]
  | some fp =>
    if fp.size = 0 then [.fopen, .fclose, .pop]
    else if fp.read.length ≠ fp.size then [.fopen, .fclose, .pop]
    else if extension job.path.filename ≠ str ".krpz" then [.fopen, .fclose, .pop]
    else
      let (header, frames) := parsePlayback unzstd fp.read
      -- these two exits leave the file open
      if job.path.filename.length < 10 then [.fopen, .pop]
      else
        match stoul ((job.path.filename.drop 2).take 8) with
        | none => [.fopen, .pop]
        | some ms =>
          if frames.length ≤ 1 then [.fopen, .fclose, .pop]
          else if ¬ job.present then [.fopen, .fclose, .pop]
          else
            [.fopen, .fclose,
              .push { filepath := job.path, header := header, frames := frames, timeMs := ms },
              .pop]

/-- The files that a pass opens or closes, the pops, and the replays that it pushes. -/
def Act.opens : Act → ℕ
  | .fopen => 1
  | _ => 0

/-- The handles an act closes. -/
def Act.closes : Act → ℕ
  | .fclose => 1
  | _ => 0

/-- The entries an act takes off the queue. -/
def Act.pops : Act → ℕ
  | .pop => 1
  | _ => 0

/-- The replay an act hands over. -/
def Act.pushed : Act → Option KrpPlayback
  | .push pb => some pb
  | _ => none

/-- **A balanced pass**: it pops its entry once, closes what it opened, and pushes at most one
replay, of two frames or more. -/
structure Balanced (acts : List Act) : Prop where
  pops : (acts.map Act.pops).sum = 1
  closes : (acts.map Act.closes).sum = (acts.map Act.opens).sum
  pushes : (acts.filterMap Act.pushed).length ≤ 1
  frames : ∀ pb ∈ acts.filterMap Act.pushed, 2 ≤ pb.frames.length

/-- **The pass leaks**: the file is read whole, has the extension of the replays, and its name holds
no time. -/
def Leaks (job : Job) : Prop :=
  ∃ fp ∈ job.fopen, fp.size ≠ 0 ∧ fp.read.length = fp.size ∧
    extension job.path.filename = str ".krpz" ∧ msTotal job.path.filename = none

instance (job : Job) : Decidable (Leaks job) := by unfold Leaks; infer_instance

/-- What a pass that does not leak does. -/
inductive Releases : List Act → Prop
  | absent : Releases [.pop]
  | closed : Releases [.fopen, .fclose, .pop]
  | pushed (pb : KrpPlayback) (h : 2 ≤ pb.frames.length) :
    Releases [.fopen, .fclose, .push pb, .pop]

/-- **The exits of a pass.** -/
theorem kzPbParserPass_cases (unzstd : Bytes → Option Bytes) (job : Job) :
    ¬ Leaks job ∧ Releases (kzPbParserPass unzstd job) ∨
      Leaks job ∧ kzPbParserPass unzstd job = [.fopen, .pop] := by
  unfold kzPbParserPass
  cases hfopen : job.fopen with
  | none =>
    left
    refine ⟨?_, .absent⟩
    rintro ⟨fp, hfp, -⟩
    rw [hfopen] at hfp
    exact nomatch hfp
  | some fp =>
    have hleaks : Leaks job ↔ fp.size ≠ 0 ∧ fp.read.length = fp.size ∧
        extension job.path.filename = str ".krpz" ∧ msTotal job.path.filename = none := by
      unfold Leaks
      rw [hfopen]
      simp
    dsimp only
    rw [hleaks]
    by_cases hsize : fp.size = 0
    · rw [if_pos hsize]
      exact Or.inl ⟨fun h => h.1 hsize, .closed⟩
    rw [if_neg hsize]
    by_cases hread : fp.read.length = fp.size
    swap
    · rw [if_pos hread]
      exact Or.inl ⟨fun h => hread h.2.1, .closed⟩
    rw [if_neg (not_not_intro hread)]
    by_cases hext : extension job.path.filename = str ".krpz"
    swap
    · rw [if_pos hext]
      exact Or.inl ⟨fun h => hext h.2.2.1, .closed⟩
    rw [if_neg (not_not_intro hext)]
    unfold msTotal
    by_cases hshort : job.path.filename.length < 10
    · rw [if_pos hshort, if_pos hshort]
      exact Or.inr ⟨⟨hsize, hread, hext, rfl⟩, rfl⟩
    rw [if_neg hshort, if_neg hshort]
    cases htime : stoul ((job.path.filename.drop 2).take 8) with
    | none => exact Or.inr ⟨⟨hsize, hread, hext, rfl⟩, rfl⟩
    | some ms =>
      left
      refine ⟨fun h => (nomatch h.2.2.2), ?_⟩
      dsimp only
      split_ifs with hframes hpresent
      · exact .closed
      · exact .pushed _ (by dsimp only; omega)
      · exact .closed

/-- **A pass is balanced** exactly where it does not leak. -/
theorem balanced_iff (unzstd : Bytes → Option Bytes) (job : Job) :
    Balanced (kzPbParserPass unzstd job) ↔ ¬ Leaks job := by
  rcases kzPbParserPass_cases unzstd job with ⟨hno, hreleases⟩ | ⟨hleaks, hpass⟩
  · refine iff_of_true ?_ hno
    generalize kzPbParserPass unzstd job = acts at hreleases ⊢
    cases hreleases with
    | absent => exact ⟨rfl, rfl, Nat.zero_le _, nofun⟩
    | closed => exact ⟨rfl, rfl, Nat.zero_le _, nofun⟩
    | pushed pb h =>
      refine ⟨rfl, rfl, le_rfl, fun pb' hpb' => ?_⟩
      obtain rfl : pb' = pb := List.mem_singleton.mp hpb'
      exact h
  · refine iff_of_false (fun hbalanced => ?_) (not_not_intro hleaks)
    have hcloses := hbalanced.closes
    rw [hpass] at hcloses
    exact absurd hcloses (by decide)

/-- **What a pass pushes** is what the thread makes of the file, where that is still there. -/
theorem mem_pushed_iff (unzstd : Bytes → Option Bytes) {job : Job}
    (h0 : (0 : UInt8) ∉ job.path.filename) (pb : KrpPlayback) :
    pb ∈ (kzPbParserPass unzstd job).filterMap Act.pushed ↔ ∃ fp ∈ job.fopen,
      fp.read.length = fp.size ∧ parseFile unzstd job.path fp.read = some pb ∧
        job.present = true := by
  have hnone {acts : List Act} (h : acts.filterMap Act.pushed = []) {P : Prop} (hP : ¬ P) :
      pb ∈ acts.filterMap Act.pushed ↔ P := by
    rw [h]
    exact iff_of_false List.not_mem_nil hP
  unfold kzPbParserPass
  cases hfopen : job.fopen with
  | none => exact hnone rfl (by simp)
  | some fp =>
    simp only [Option.mem_some_iff, exists_eq_left']
    rw [parseFile_eq unzstd fp.read h0]
    by_cases hsize : fp.size = 0
    · rw [if_pos hsize]
      refine hnone rfl fun h => ?_
      have hnil : fp.read = [] := List.length_eq_zero_iff.mp (h.1.trans hsize)
      rw [if_pos (Or.inl hnil)] at h
      exact nomatch h.2.1
    rw [if_neg hsize]
    by_cases hread : fp.read.length = fp.size
    swap
    · rw [if_pos hread]
      exact hnone rfl fun h => hread h.1
    rw [if_neg (not_not_intro hread)]
    by_cases hext : extension job.path.filename = str ".krpz"
    swap
    · rw [if_pos hext, if_pos (Or.inr hext)]
      exact hnone rfl fun h => nomatch h.2.1
    have hne : fp.read ≠ [] := fun hnil => hsize (by rw [← hread, hnil, List.length_nil])
    rw [if_neg (not_not_intro hext), if_neg (not_or.mpr ⟨hne, not_not_intro hext⟩)]
    unfold msTotal
    by_cases hshort : job.path.filename.length < 10
    · rw [if_pos hshort, if_pos hshort]
      exact hnone rfl fun h => nomatch h.2.1
    rw [if_neg hshort, if_neg hshort]
    cases htime : stoul ((job.path.filename.drop 2).take 8) with
    | none => exact hnone rfl fun h => nomatch h.2.1
    | some ms =>
      rw [Option.bind_some]
      dsimp only
      by_cases hframes : (parsePlayback unzstd fp.read).2.length ≤ 1
      · have hfew : ¬ 1 < (parsePlayback unzstd fp.read).2.length := by omega
        rw [if_pos hframes, if_neg hfew]
        exact hnone rfl fun h => nomatch h.2.1
      have htwo : 1 < (parsePlayback unzstd fp.read).2.length := by omega
      rw [if_neg hframes, if_pos htwo]
      by_cases hpresent : job.present = true
      · rw [if_neg (not_not_intro hpresent)]
        have hpush (pb' : KrpPlayback) :
            [Act.fopen, .fclose, .push pb', .pop].filterMap Act.pushed = [pb'] := rfl
        rw [hpush, List.mem_singleton, Option.some.injEq]
        exact ⟨fun h => ⟨hread, h.symm, hpresent⟩, fun h => h.2.1.symm⟩
      · rw [if_pos hpresent]
        exact hnone rfl fun h => hpresent h.2.2

/-! ### The thread -/

/-- The queue of the thread, the files it has open, and what it parsed. -/
structure ParserState where
  gPbParseQueue : List Job
  openFiles : ℕ
  gPbData : List KrpPlayback

/-- What an act of the parser does. -/
def perform (s : ParserState) : Act → ParserState
  | .fopen => { s with openFiles := s.openFiles + 1 }
  | .fclose => { s with openFiles := s.openFiles - 1 }
  | .push pb => { s with gPbData := s.gPbData ++ [pb] }
  | .pop => { s with gPbParseQueue := s.gPbParseQueue.tail }

/-- The inner loop of the thread: its passes until the queue is empty, `fuel` of them at most, and
the state after them. -/
def kzPbParserThread (unzstd : Bytes → Option Bytes) :
    ℕ → ParserState → List (List Act) × ParserState
  | 0, s => ([], s)
  | fuel + 1, s =>
    match s.gPbParseQueue with
    | [] => ([], s)
    | job :: _ =>
      let acts := kzPbParserPass unzstd job
      let r := kzPbParserThread unzstd fuel (acts.foldl perform s)
      (acts :: r.1, r.2)

theorem foldl_perform (unzstd : Bytes → Option Bytes) (job : Job) (jobs : List Job) (n : ℕ)
    (data : List KrpPlayback) :
    (kzPbParserPass unzstd job).foldl perform ⟨job :: jobs, n, data⟩ =
      ⟨jobs, n + if Leaks job then 1 else 0,
        data ++ (kzPbParserPass unzstd job).filterMap Act.pushed⟩ := by
  rcases kzPbParserPass_cases unzstd job with ⟨hno, hreleases⟩ | ⟨hleaks, hpass⟩
  · rw [if_neg hno]
    generalize kzPbParserPass unzstd job = acts at hreleases ⊢
    cases hreleases with
    | absent => simp [perform, Act.pushed]
    | closed => simp [perform, Act.pushed]
    | pushed pb h =>
      simp only [List.foldl_cons, List.foldl_nil, perform, List.tail_cons]
      rfl
  · rw [if_pos hleaks, hpass]
    simp [perform, Act.pushed]

/-- **The thread goes through its queue**, one pass for each path, and is left with a file for every
pass that leaks. -/
theorem kzPbParserThread_eq (unzstd : Bytes → Option Bytes) (k : ℕ) : ∀ (jobs : List Job) (n : ℕ)
    (data : List KrpPlayback), kzPbParserThread unzstd (jobs.length + k) ⟨jobs, n, data⟩ =
      (jobs.map (kzPbParserPass unzstd), ⟨[], n + jobs.countP fun job => Leaks job,
        data ++ jobs.flatMap fun job => (kzPbParserPass unzstd job).filterMap Act.pushed⟩)
  | [], n, data => by
    cases k with
    | zero => simp [kzPbParserThread]
    | succ k => simp [kzPbParserThread]
  | job :: jobs, n, data => by
    have hfuel : (job :: jobs).length + k = jobs.length + k + 1 := by
      rw [List.length_cons]
      omega
    rw [hfuel, kzPbParserThread]
    dsimp only
    rw [foldl_perform, kzPbParserThread_eq unzstd k jobs, List.map_cons, List.countP_cons,
      List.flatMap_cons, List.append_assoc]
    simp only [decide_eq_true_eq]
    congr 2
    omega

/-- **The parser thread balances its resources** exactly where no pass of it leaks. -/
theorem parser_balances_iff (unzstd : Bytes → Option Bytes) (jobs : List Job) (k n : ℕ)
    (data : List KrpPlayback) :
    (∀ acts ∈ (kzPbParserThread unzstd (jobs.length + k) ⟨jobs, n, data⟩).1, Balanced acts) ↔
      ∀ job ∈ jobs, ¬ Leaks job := by
  rw [kzPbParserThread_eq]
  simp only [List.forall_mem_map, balanced_iff]

/-- A file of one byte. -/
def sampleJob : Job := ⟨parse (str "d/kz_global/replays/a/b.krpz"), some ⟨1, [0]⟩, true⟩

/-- The file stays open. -/
theorem parser_leaks : ¬ ∀ (unzstd : Bytes → Option Bytes) (jobs : List Job),
    ∀ acts ∈ (kzPbParserThread unzstd jobs.length ⟨jobs, 0, []⟩).1, Balanced acts := by
  intro h
  have hleaks : Leaks sampleJob := by decide +kernel
  have hcases := kzPbParserPass_cases (fun _ => none) sampleJob
  have hpass := (hcases.resolve_left fun h => h.1 hleaks).2
  have hbalanced := h (fun _ => none) [sampleJob] (kzPbParserPass (fun _ => none) sampleJob)
    (by simp [kzPbParserThread])
  rw [hpass] at hbalanced
  exact absurd hbalanced.closes (by decide)

end KzGlobal.Playback.Parser
