import KzGlobal.Lib.FileProgram
import KzGlobal.Krp.Roundtrip
import KzGlobal.Submit.Kept

/-! # The raw replay and its compressed copy

`kz_rp_compress_thread` over files whose operations fail: it compresses a raw replay beside itself,
moves the compressed file into the directory of its map and removes the raw one. The number of bytes
that `fwrite` wrote is dropped, so a raw replay is removed after a short write too. What was written
is all that is left of it (`removed_safe_iff`). -/

namespace KzGlobal.Submit.Safekeeping

open KzGlobal.Lib.Stdio KzGlobal.Lib.FileProgram KzGlobal.Krp.Format KzGlobal.Krp.Codec
open KzGlobal.Krp.Records KzGlobal.Krp.Sections KzGlobal.Krp.Roundtrip
open KzGlobal.Replay.Text KzGlobal.Replay.Writer KzGlobal.Replay.Headers KzGlobal.Replay.Paths
open KzGlobal.Replay.Frames KzGlobal.Replay.Capture
open KzGlobal.Submit.System (compress)
open KzGlobal.Submit.Kept (sampleDatadir sampleUid storedFrame)

/-- A file that is empty counts as one that cannot be read. -/
def kzRpReadFile (file : Bytes) : Files (Option Bytes) := do
  let out ← readFile file
  pure (out.filter (· ≠ []))

/-- Whether the compressed file is open in the end. -/
def kzRpCompressFile (zstd : Bytes → Option Bytes) (file : Bytes) : Files Bool := do
  match ← kzRpReadFile file with
  | none => pure false
  | some src =>
    match compress zstd src with
    | none => pure false
    | some dst => do
      -- What `fwrite` returns is not looked at.
      let out ← writeFile (replaceExtension file (str ".krpz")) dst
      pure out.isSome

/-- `kz_rp_compress_thread`, for one path. -/
def kzRpCompressThread (dataDir : Bytes) (zstd : Bytes → Option Bytes) (src : Bytes) :
    Files Unit := do
  if ← kzRpCompressFile zstd src then
    match ← readFile src with
    | none => pure ()
    | some b =>
      let mapname := (kzRpMapnameFromHeader ⟨b, 0⟩).1
      if mapname = [] then pure ()
      else do
        let compressed := replaceExtension src (str ".krpz")
        let dst := joinPath (joinPath (replaysDir dataDir) mapname) (filename compressed)
        if ← createDirectories (parentPath dst) then
          if ← renameFile compressed dst then
            let _ ← removeFile src

/-! ### Executions of the compression -/

section Execution
variable {zstd : Bytes → Option Bytes} {d d' : Disk Bytes UInt8} {tr : List (Done Bytes UInt8)}

theorem exec_kzRpReadFile {file : Bytes} {out : Option Bytes}
    (h : Exec d (kzRpReadFile file) tr d' out) :
    ∃ a, tr = [.read file a] ∧ d' = d ∧ (out = none ∨ out = d file) := by
  obtain ⟨tr₁, tr₂, d₁, a, h₁, h₂, rfl⟩ := exec_bind h
  obtain ⟨rfl, rfl, ha⟩ := exec_readFile h₁
  obtain ⟨rfl, rfl, rfl⟩ := exec_pure h₂
  refine ⟨a, rfl, rfl, ?_⟩
  rcases ha with rfl | rfl
  · exact Or.inl rfl
  · rcases hd : d' file with _ | b
    · exact Or.inl rfl
    · by_cases hb : b = []
      · left
        simp [hb]
      · right
        simp [hb]

/-- **What the compression leaves** where it succeeds: a prefix of the output, as long as `fwrite`
says. -/
theorem exec_kzRpCompressFile {file b z : Bytes} (hb : d file = some b)
    (hz : compress zstd b = some z) {ok : Bool} (h : Exec d (kzRpCompressFile zstd file) tr d' ok) :
    (∀ p, .remove p true ∉ tr) ∧ (ok = true → ∃ a n, n ≤ z.length ∧
      d' = d.store (replaceExtension file (str ".krpz")) (z.take n) ∧
      tr = [.read file a, .write (replaceExtension file (str ".krpz")) z (some n)]) := by
  obtain ⟨tr₁, tr₂, d₁, out, h₁, h₂, rfl⟩ := exec_bind h
  obtain ⟨a, rfl, rfl, ho⟩ := exec_kzRpReadFile h₁
  rcases out with _ | src
  · obtain ⟨rfl, rfl, rfl⟩ := exec_pure h₂
    exact ⟨by simp, by simp⟩
  · have hs : src = b := by
      rcases ho with ho | ho
      · cases ho
      · exact Option.some.inj (ho.trans hb)
    subst hs
    dsimp only at h₂
    rw [hz] at h₂
    obtain ⟨tr₃, tr₄, d₂, k, h₃, h₄, rfl⟩ := exec_bind h₂
    obtain ⟨rfl, hw⟩ := exec_writeFile h₃
    obtain ⟨rfl, rfl, rfl⟩ := exec_pure h₄
    refine ⟨by simp, fun hk => ?_⟩
    rcases hw with ⟨rfl, -⟩ | ⟨n, rfl, hn, hd⟩
    · cases hk
    · exact ⟨a, n, hn, hd, rfl⟩

/-- **What an iteration did that removes the raw replay**: it moved what it had written to the
directory of the map. -/
theorem exec_of_removed {dataDir src b z : Bytes} (hb : d src = some b)
    (hz : compress zstd b = some z) (hne : src ≠ replaceExtension src (str ".krpz"))
    (h : Exec d (kzRpCompressThread dataDir zstd src) tr d' ()) (hr : .remove src true ∈ tr) :
    let compressed := replaceExtension src (str ".krpz")
    ∃ a n d₁ rest, n ≤ z.length ∧ (d.store compressed (z.take n)).rename compressed
        (joinPath (joinPath (replaysDir dataDir) (kzRpMapnameFromHeader ⟨b, 0⟩).1)
          (filename compressed)) = some d₁ ∧
      d' = d₁.unlink src ∧ tr = .read src a :: .write compressed z (some n) :: rest ∧
      ∀ p v k, .write p v k ∉ rest := by
  intro compressed
  obtain ⟨tr₁, tr₂, d₁, ok, h₁, h₂, rfl⟩ := exec_bind h
  obtain ⟨hno, hyes⟩ := exec_kzRpCompressFile hb hz h₁
  replace hr := (List.mem_append.mp hr).resolve_left (hno src)
  rcases ok with _ | _
  · obtain ⟨rfl, -, -⟩ := exec_pure h₂
    cases hr
  obtain ⟨a, n, hn, rfl, rfl⟩ := hyes rfl
  obtain ⟨tr₃, tr₄, d₂, again, h₃, h₄, rfl⟩ := exec_bind h₂
  obtain ⟨rfl, rfl, ha⟩ := exec_readFile h₃
  rw [Disk.store_of_ne _ hne, hb] at ha
  rcases again with _ | b'
  · obtain ⟨rfl, -, -⟩ := exec_pure h₄
    simp at hr
  obtain rfl : b' = b := by simpa using ha
  dsimp only at h₄
  split_ifs at h₄ with hm
  · obtain ⟨rfl, -, -⟩ := exec_pure h₄
    simp at hr
  obtain ⟨tr₅, tr₆, d₃, made, h₅, h₆, rfl⟩ := exec_bind h₄
  obtain ⟨rfl, rfl⟩ := exec_createDirectories h₅
  rcases made with _ | _
  · obtain ⟨rfl, -, -⟩ := exec_pure h₆
    simp at hr
  obtain ⟨tr₇, tr₈, d₄, moved, h₇, h₈, rfl⟩ := exec_bind h₆
  obtain ⟨rfl, hmoved⟩ := exec_renameFile h₇
  rcases hmoved with ⟨rfl, rfl⟩ | ⟨rfl, hd₄⟩
  · obtain ⟨rfl, -, -⟩ := exec_pure h₈
    simp at hr
  obtain ⟨tr₉, tr₁₀, d₅, gone, h₉, h₁₀, rfl⟩ := exec_bind h₈
  obtain ⟨rfl, hgone⟩ := exec_removeFile h₉
  obtain ⟨rfl, rfl, -⟩ := exec_pure h₁₀
  rcases hgone with ⟨rfl, -⟩ | ⟨rfl, rfl⟩
  · simp at hr
  exact ⟨a, n, d₄, _, hn, hd₄, rfl, rfl, by simp⟩

end Execution

theorem run_kzRpCompressFile (entries : Bytes → List Bytes) (zstd : Bytes → Option Bytes)
    (file : Bytes) (d : Disk Bytes UInt8) : (kzRpCompressFile zstd file).run entries d =
      match System.kzRpCompressFile zstd file d with
      | none => (d, false)
      | some d' => (d', true) := by
  unfold kzRpCompressFile kzRpReadFile System.kzRpCompressFile
  rcases hd : d file with _ | b
  · simp [hd]
  · by_cases hb : b = []
    · simp [hd, hb, Option.filter_some]
    · rcases hz : compress zstd b with _ | z
      · simp [hd, hb, hz, Option.filter_some]
      · simp [hd, hb, hz, Option.filter_some]

/-- **Where nothing fails** an iteration does what the thread does as a step of the whole module. -/
theorem run_kzRpCompressThread (entries : Bytes → List Bytes) (dataDir : Bytes)
    (zstd : Bytes → Option Bytes) (src : Bytes) (d : Disk Bytes UInt8) :
    ((kzRpCompressThread dataDir zstd src).run entries d).1 =
      System.kzRpCompressThread dataDir zstd src d := by
  unfold kzRpCompressThread System.kzRpCompressThread
  rw [Prog.run_bind, run_kzRpCompressFile]
  rcases System.kzRpCompressFile zstd src d with _ | d₁
  · rfl
  rcases hb : d₁ src with _ | b
  · simp [hb]
  by_cases hm : (kzRpMapnameFromHeader ⟨b, 0⟩).1 = []
  · simp [hb, hm]
  · simp only [hb, hm]
    rcases hr : d₁.rename (replaceExtension src (str ".krpz"))
      (joinPath (joinPath (replaysDir dataDir)
      (kzRpMapnameFromHeader ⟨b, 0⟩).1) (filename (replaceExtension src (str ".krpz")))) with _ | d₂
    · simp [hb, hm, hr]
    · simp [hb, hm, hr]

/-! ### What is left of a removed replay -/

/-- `g_data_dir / "kz_global" / "replays" / name` for the raw replay of a uid. -/
def rawReplay (dataDir uid : Bytes) : Bytes := joinPath (replaysDir dataDir) (uid ++ str ".krpr")

/-- The compressed replay of a uid in the directory of its map. -/
def mapReplay (dataDir mapname uid : Bytes) : Bytes :=
  joinPath (joinPath (replaysDir dataDir) mapname) (uid ++ str ".krpz")

section Names
variable {uid : Bytes} (h0 : uid ≠ []) (h47 : (47 : UInt8) ∉ uid) (dataDir : Bytes)
include h0 h47

theorem replaceExtension_rawReplay : replaceExtension (rawReplay dataDir uid) (str ".krpz") =
    replaysDir dataDir ++ 47 :: (uid ++ str ".krpz") := by
  have hn : (47 : UInt8) ∉ uid ++ str ".krpr" := by
    rw [List.mem_append, not_or]
    exact ⟨h47, by decide⟩
  rw [rawReplay, joinPath_replaysDir _ hn]
  exact replaceExtension_dot h0 h47 (by decide) (by decide) _ _

theorem filename_compressed :
    filename (replaceExtension (rawReplay dataDir uid) (str ".krpz")) = uid ++ str ".krpz" := by
  rw [replaceExtension_rawReplay h0 h47]
  refine filename_append ?_ _
  rw [List.mem_append, not_or]
  exact ⟨h47, by decide⟩

end Names

theorem getLast?_joinPath (dir name : Bytes) (h : name ≠ []) :
    (joinPath dir name).getLast? = name.getLast? := by
  unfold joinPath
  split_ifs
  · rfl
  · exact List.getLast?_append_of_ne_nil _ h
  · rw [List.getLast?_append_of_ne_nil _ (List.cons_ne_nil _ _), List.getLast?_cons_of_ne_nil h]

theorem getLast?_mapReplay (dataDir mapname uid : Bytes) :
    (mapReplay dataDir mapname uid).getLast? = some 122 := by
  rw [mapReplay, getLast?_joinPath _ _ (List.append_ne_nil_of_right_ne_nil _ (by decide)),
    List.getLast?_append_of_ne_nil _ (by decide)]
  rfl

theorem getLast?_rawReplay (dataDir uid : Bytes) : (rawReplay dataDir uid).getLast? = some 114 := by
  rw [rawReplay, getLast?_joinPath _ _ (List.append_ne_nil_of_right_ne_nil _ (by decide)),
    List.getLast?_append_of_ne_nil _ (by decide)]
  rfl

theorem rawReplay_ne_replaceExtension (dataDir uid p : Bytes) :
    rawReplay dataDir uid ≠ replaceExtension p (str ".krpz") := by
  intro he
  have hl := getLast?_rawReplay dataDir uid
  rw [he, getLast?_replaceExtension _ _ (by decide)] at hl
  exact absurd hl (by decide)

theorem mapReplay_ne_rawReplay (dataDir mapname uid : Bytes) :
    mapReplay dataDir mapname uid ≠ rawReplay dataDir uid := by
  intro he
  have hl := getLast?_mapReplay dataDir mapname uid
  rw [he, getLast?_rawReplay] at hl
  exact absurd hl (by decide)

section Removal
variable {dataDir uid b z : Bytes} {zstd : Bytes → Option Bytes} {d d' : Disk Bytes UInt8}
  {tr : List (Done Bytes UInt8)}

/-- **What is left of a removed replay** is what was written of its output. -/
theorem left_of_removed (h0 : uid ≠ []) (h47 : (47 : UInt8) ∉ uid)
    (hb : d (rawReplay dataDir uid) = some b) (hz : compress zstd b = some z)
    (h : Exec d (kzRpCompressThread dataDir zstd (rawReplay dataDir uid)) tr d' ())
    (hr : .remove (rawReplay dataDir uid) true ∈ tr) :
    ∃ n, n ≤ z.length ∧
      d' (mapReplay dataDir (kzRpMapnameFromHeader ⟨b, 0⟩).1 uid) = some (z.take n) ∧
      ∀ k, .write (replaceExtension (rawReplay dataDir uid) (str ".krpz")) z k ∈ tr ↔
      k = some n := by
  obtain ⟨a, n, d₁, rest, hn, hd₁, rfl, rfl, hrest⟩ :=
    exec_of_removed hb hz (rawReplay_ne_replaceExtension dataDir uid _) h hr
  rw [filename_compressed h0 h47] at hd₁
  have hdst := (Disk.rename_eq_some (Disk.store_self ..) hd₁).1
  refine ⟨n, hn, ?_, fun k => ?_⟩
  · rw [Disk.unlink_of_ne _ (mapReplay_ne_rawReplay dataDir _ uid)]
    exact hdst
  · constructor
    · intro hk
      simpa [hrest] using hk
    · rintro rfl
      simp

/-- **A removed replay is safe** in the directory of its map exactly where its output was written in
full. -/
theorem removed_safe_iff (h0 : uid ≠ []) (h47 : (47 : UInt8) ∉ uid)
    (hb : d (rawReplay dataDir uid) = some b) (hz : compress zstd b = some z)
    (h : Exec d (kzRpCompressThread dataDir zstd (rawReplay dataDir uid)) tr d' ()) :
    (.remove (rawReplay dataDir uid) true ∈ tr →
      d' (mapReplay dataDir (kzRpMapnameFromHeader ⟨b, 0⟩).1 uid) = some z) ↔
    (.remove (rawReplay dataDir uid) true ∈ tr →
      .write (replaceExtension (rawReplay dataDir uid) (str ".krpz")) z (some z.length) ∈ tr) := by
  refine forall_congr' fun hr => ?_
  obtain ⟨n, hn, hleft, hw⟩ := left_of_removed h0 h47 hb hz h hr
  rw [hleft, hw, Option.some.injEq, Option.some.injEq, List.take_eq_self_iff]
  constructor
  · intro hz
    omega
  · intro hz
    omega

/-- **A short write removes the raw replay too**: whatever prefix `fwrite` writes is moved to the
directory of the map. -/
theorem exec_short (hb : d (rawReplay dataDir uid) = some b) (h0 : b ≠ [])
    (hz : compress zstd b = some z) (hm : (kzRpMapnameFromHeader ⟨b, 0⟩).1 ≠ []) {n : ℕ}
    (hn : n ≤ z.length) : ∃ tr d',
      Exec d (kzRpCompressThread dataDir zstd (rawReplay dataDir uid)) tr d' () ∧
      .remove (rawReplay dataDir uid) true ∈ tr ∧
      .write (replaceExtension (rawReplay dataDir uid) (str ".krpz")) z (some n) ∈ tr := by
  let src := rawReplay dataDir uid
  let compressed := replaceExtension src (str ".krpz")
  let dst := joinPath (joinPath (replaysDir dataDir) (kzRpMapnameFromHeader ⟨b, 0⟩).1)
    (filename compressed)
  have hread : Exec d (kzRpReadFile src) [.read src (some b)] d (some b) := by
    refine Exec.bind (.read (Or.inr hb.symm) .ret) ?_
    rw [Option.filter_some, if_pos (by simpa using h0)]
    exact .ret
  have hcomp : Exec d (kzRpCompressFile zstd src) [.read src (some b), .write compressed z (some n)]
      (d.store compressed (z.take n)) true := by
    refine Exec.bind hread ?_
    dsimp only
    rw [hz]
    exact Exec.bind (.write hn .ret) .ret
  have hagain : (d.store compressed (z.take n)) src = some b := by
    rw [Disk.store_of_ne _ (rawReplay_ne_replaceExtension dataDir uid _), hb]
  obtain ⟨d₁, hd₁⟩ := Disk.exists_rename (Disk.store_self d compressed (z.take n)) dst
  refine ⟨[.read src (some b), .write compressed z (some n), .read src (some b),
    .createDirectories (parentPath dst) true, .rename compressed dst true, .remove src true],
    d₁.unlink src, Exec.bind hcomp (Exec.bind (.read (Or.inr hagain.symm) .ret) ?_), ?_, ?_⟩
  · dsimp only
    rw [if_neg hm]
    exact Exec.bind (.createDirectories true .ret)
      (Exec.bind (.rename hd₁ .ret) (Exec.bind (.remove .ret) .ret))
  · simp [src]
  · simp [src, compressed]

end Removal

/-- The raw replay of a run of one frame on the map `a`. -/
def sampleKrpr : Bytes :=
  krprOf (startHeader 36 samplePlayer sampleNickname sampleServer.header)
    [.frame (keyframe (sampleFrame 1))]

/-- A disk with that replay only. -/
def sampleDisk : Disk Bytes UInt8 :=
  Disk.store (fun _ => none) (rawReplay (gDataDir sampleDatadir) sampleUid) sampleKrpr

theorem compress_sample : ∃ z, compress storedFrame sampleKrpr = some z ∧ 0 < z.length := by
  have hv : validateHeader sampleKrpr = .ok () :=
    validateHeader_eq_ok.mpr ⟨_, _, rfl, startHeader_valid 36 _ _ (by decide +kernel)⟩
  have hc : compress storedFrame sampleKrpr = storedFrame (krpzOf
      (startHeader 36 samplePlayer sampleNickname sampleServer.header)
      [.frame (keyframe (sampleFrame 1))]) := by
    rw [compress, hv, sampleKrpr, buildKrpzBody_krprOf]
  exact ⟨_, hc, by simp⟩

theorem mapname_sample : (kzRpMapnameFromHeader ⟨sampleKrpr, 0⟩).1 = str "a" := by decide +kernel

/-- The disk is full: nothing of the output is written, and the raw replay is removed. -/
theorem removed_unsafe : ∃ z tr d', compress storedFrame sampleKrpr = some z ∧
    Exec sampleDisk (kzRpCompressThread (gDataDir sampleDatadir) storedFrame
      (rawReplay (gDataDir sampleDatadir) sampleUid)) tr d' () ∧
    .remove (rawReplay (gDataDir sampleDatadir) sampleUid) true ∈ tr ∧
    d' (mapReplay (gDataDir sampleDatadir)
      (kzRpMapnameFromHeader ⟨sampleKrpr, 0⟩).1 sampleUid) ≠ some z := by
  obtain ⟨z, hz, hpos⟩ := compress_sample
  have hb : sampleDisk (rawReplay (gDataDir sampleDatadir) sampleUid) = some sampleKrpr :=
    Disk.store_self ..
  obtain ⟨tr, d', h, hr, hw⟩ := exec_short hb (by decide +kernel) hz
    (by rw [mapname_sample]; decide) (Nat.zero_le z.length)
  obtain ⟨n, -, hleft, hk⟩ := left_of_removed (by decide) (by decide) hb hz h hr
  obtain rfl : 0 = n := Option.some.inj ((hk _).mp hw)
  refine ⟨z, tr, d', hz, h, hr, ?_⟩
  rw [hleft, Ne, Option.some.injEq, List.take_eq_self_iff]
  omega

theorem removed_safe_iff_sample : ∃ z tr d',
    Exec sampleDisk (kzRpCompressThread (gDataDir sampleDatadir) storedFrame
      (rawReplay (gDataDir sampleDatadir) sampleUid)) tr d' () ∧
    ((.remove (rawReplay (gDataDir sampleDatadir) sampleUid) true ∈ tr →
      d' (mapReplay (gDataDir sampleDatadir) (kzRpMapnameFromHeader ⟨sampleKrpr, 0⟩).1 sampleUid) =
        some z) ↔
    (.remove (rawReplay (gDataDir sampleDatadir) sampleUid) true ∈ tr →
      .write (replaceExtension (rawReplay (gDataDir sampleDatadir) sampleUid) (str ".krpz")) z
        (some z.length) ∈ tr)) := by
  obtain ⟨z, hz, -⟩ := compress_sample
  have hb : sampleDisk (rawReplay (gDataDir sampleDatadir) sampleUid) = some sampleKrpr :=
    Disk.store_self ..
  obtain ⟨tr, d', h, -⟩ := exec_short hb (by decide +kernel) hz (by rw [mapname_sample]; decide)
    (le_refl z.length)
  exact ⟨z, tr, d', h, removed_safe_iff (by decide) (by decide) hb hz h⟩

end KzGlobal.Submit.Safekeeping
