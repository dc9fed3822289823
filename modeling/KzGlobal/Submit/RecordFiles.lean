import KzGlobal.Submit.Confined

/-! # The files of a record

The handlers name the files of a record by its uid and replace the extension, which takes the part
of the uid from its last dot on away. So the files of two records are different exactly where the
uids differ in what is left, their stems (`different_files_iff`), and records with one stem share
all their files (`path_congr`). -/

namespace KzGlobal.Submit.RecordFiles

open KzGlobal.Lib.Stdio KzGlobal.Lib.FileProgram KzGlobal.Lib.PosixPath KzGlobal.Krp.Format
open KzGlobal.Replay.Text KzGlobal.Replay.Paths KzGlobal.Replay.Prune KzGlobal.Submit.Confined

/-- `path::stem` of a file name. -/
def stem (name : Bytes) : Bytes := name.take (name.length - (extension name).length)

/-- `.krpz` or `.krpr`. -/
def extOf (compressed : Bool) : Bytes := if compressed then str ".krpz" else str ".krpr"

theorem length_extOf (compressed : Bool) : (extOf compressed).length = 5 := by
  cases compressed <;> rfl

/-- The paths that are built from a uid, by the function that builds them: both files of a deleted
record, with or without a map; the file of a download; the two files of which one is uploaded again;
the two files of an accepted upload and the place to which it is moved. -/
inductive Built
  | deleteReplayFiles (mapname : Option Bytes) (compressed : Bool)
  | downloadReplay (mapname : Bytes)
  | requeueReplayUpload (compressed : Bool)
  | ackFileAck (compressed : Bool)
  | ackFileAckMoved (mapname : Bytes)

/-- Whether a path is that of a compressed replay. -/
def Built.compressed : Built → Bool
  | .deleteReplayFiles _ compressed => compressed
  | .downloadReplay _ => true
  | .requeueReplayUpload compressed => compressed
  | .ackFileAck compressed => compressed
  | .ackFileAckMoved _ => true

/-- The text of a path, for a uid. -/
def Built.path (dataDir uid : Bytes) : Built → Bytes
  | .deleteReplayFiles (some mapname) compressed =>
    mapReplayPath dataDir mapname uid (extOf compressed)
  | .deleteReplayFiles none compressed => replayPath dataDir uid (extOf compressed)
  | .downloadReplay mapname => mapReplayPath dataDir mapname uid (str ".krpz")
  | .requeueReplayUpload true => replayPath dataDir uid (str ".krpz")
  | .requeueReplayUpload false =>
    replaceExtension (replayPath dataDir uid (str ".krpz")) (str ".krpr")
  | .ackFileAck false => replayPath dataDir uid (str ".krpr")
  | .ackFileAck true => replaceExtension (replayPath dataDir uid (str ".krpr")) (str ".krpz")
  | .ackFileAckMoved mapname => mapReplayPath dataDir mapname uid (str ".krpz")

/-! ### Stems -/

/-- What stands in front of a file name in a path: nothing, or something that ends in a slash. -/
def Front (pre : Bytes) : Prop := pre = [] ∨ ∃ dir, pre = dir ++ [47]

theorem filename_front {pre name : Bytes} (hp : Front pre) (h : (47 : UInt8) ∉ name) :
    filename (pre ++ name) = name := by
  rcases hp with rfl | ⟨dir, rfl⟩
  · exact afterLast_of_not_mem h
  · rw [List.append_assoc]
    exact filename_append h dir

theorem exists_front (dir : Bytes) :
    ∃ pre, Front pre ∧ ∀ name, (47 : UInt8) ∉ name → joinPath dir name = pre ++ name := by
  have hhead {name : Bytes} (h : (47 : UInt8) ∉ name) : ¬ name.head? = some 47 :=
    fun hh => h (List.mem_of_head? hh)
  by_cases hd : dir = [] ∨ dir.getLast? = some 47
  · refine ⟨dir, hd.imp_right fun hl => ?_, fun name h => ?_⟩
    · exact ⟨_, (List.getLast?_eq_some_iff.mp hl).choose_spec⟩
    · rw [joinPath, if_neg (hhead h), if_pos hd]
  · refine ⟨dir ++ [47], Or.inr ⟨dir, rfl⟩, fun name h => ?_⟩
    rw [joinPath, if_neg (hhead h), if_neg hd, List.append_assoc]
    rfl

theorem length_extension_le (name : Bytes) : (extension name).length ≤ name.length := by
  unfold extension
  dsimp only
  split_ifs with hn
  · exact Nat.zero_le _
  · rw [not_or, not_le] at hn
    have hle : (filename name).length ≤ name.length := by
      rw [filename, afterLast, List.length_reverse]
      exact (List.takeWhile_prefix _).length_le.trans_eq (List.length_reverse ..)
    exact hn.2.le.trans hle

theorem replaceExtension_front {pre name : Bytes} (hp : Front pre) (h : (47 : UInt8) ∉ name)
    (ext : Bytes) : replaceExtension (pre ++ name) ext = pre ++ (stem name ++ ext) := by
  have hext : extension (pre ++ name) = extension name := by
    have hname := filename_front (Or.inl rfl : Front []) h
    exact extension_congr ((filename_front hp h).trans hname.symm)
  have hk : (pre ++ name).length - (extension name).length =
      pre.length + (name.length - (extension name).length) := by
    rw [List.length_append, Nat.add_sub_assoc (length_extension_le name)]
  rw [replaceExtension, hext, hk, List.take_length_add_append, List.append_assoc, stem]

/-- What is left of a name is a name. -/
theorem stem_name {name : Bytes} (h : (47 : UInt8) ∉ name) (h0 : name ≠ []) :
    stem name ≠ [] ∧ (47 : UInt8) ∉ stem name := by
  obtain ⟨s, hs, h47, he⟩ := replaceExtension_append h h0 []
  have hstem := (replaceExtension_front (Or.inr ⟨[], rfl⟩ : Front ([] ++ [47])) h []).symm.trans
    (he [])
  have hs' : stem name = s := by simpa using hstem
  rw [hs']
  exact ⟨hs, h47⟩

theorem stem_extOf {s : Bytes} (h0 : s ≠ []) (h47 : (47 : UInt8) ∉ s) (compressed : Bool) :
    stem (s ++ extOf compressed) = s := by
  obtain ⟨e, he, hext⟩ : ∃ e : Bytes, (e ≠ [] ∧ (47 : UInt8) ∉ e ∧ (46 : UInt8) ∉ e) ∧
      extOf compressed = 46 :: e := by
    cases compressed with
    | true => exact ⟨str "krpz", by decide, rfl⟩
    | false => exact ⟨str "krpr", by decide, rfl⟩
  have hname : (47 : UInt8) ∉ s ++ 46 :: e := by simp [h47, he.2.1]
  have hrep := replaceExtension_dot h0 h47 he.2.1 ⟨he.1, he.2.2⟩ [] []
  have hfront := replaceExtension_front (Or.inr ⟨[], rfl⟩ : Front ([] ++ [47])) hname []
  rw [hext]
  simpa using hfront.symm.trans hrep

/-! ### Paths -/

/-- **A path is built of what does not depend on the uid, the stem and the extension.** -/
theorem path_eq (dataDir : Bytes) (b : Built) : ∃ pre, Front pre ∧ ∀ uid,
    kzWsValidReplaySegment uid = true →
      b.path dataDir uid = pre ++ (stem uid ++ extOf b.compressed) := by
  obtain ⟨pre, hp, hjoin⟩ := exists_front (replaysDir dataDir)
  have hreplay (uid ext : Bytes) (h : kzWsValidReplaySegment uid = true) :
      replayPath dataDir uid ext = pre ++ (stem uid ++ ext) := by
    rw [replayPath, hjoin uid (no_slash_of_segment h),
      replaceExtension_front hp (no_slash_of_segment h)]
  -- a second replacement takes the first extension away again
  have hagain (uid : Bytes) (c c' : Bool) (h : kzWsValidReplaySegment uid = true) :
      replaceExtension (replayPath dataDir uid (extOf c)) (extOf c') =
        pre ++ (stem uid ++ extOf c') := by
    obtain ⟨h0, h47⟩ := stem_name (no_slash_of_segment h) (segment_ne_nil h)
    have hname : (47 : UInt8) ∉ stem uid ++ extOf c := by
      rw [List.mem_append, not_or]
      exact ⟨h47, by cases c <;> decide⟩
    rw [hreplay uid _ h, replaceExtension_front hp hname, stem_extOf h0 h47]
  have hmap (mapname : Bytes) : ∃ pre, Front pre ∧ ∀ uid ext, kzWsValidReplaySegment uid = true →
      mapReplayPath dataDir mapname uid ext = pre ++ (stem uid ++ ext) := by
    obtain ⟨pre, hp, hjoin⟩ := exists_front (joinPath (replaysDir dataDir) mapname)
    refine ⟨pre, hp, fun uid ext h => ?_⟩
    rw [mapReplayPath, hjoin uid (no_slash_of_segment h),
      replaceExtension_front hp (no_slash_of_segment h)]
  cases b with
  | deleteReplayFiles mapname compressed =>
    cases mapname with
    | none => exact ⟨pre, hp, fun uid h => hreplay uid _ h⟩
    | some mapname =>
      obtain ⟨pre, hp, hm⟩ := hmap mapname
      exact ⟨pre, hp, fun uid h => hm uid _ h⟩
  | downloadReplay mapname =>
    obtain ⟨pre, hp, hm⟩ := hmap mapname
    exact ⟨pre, hp, fun uid h => hm uid _ h⟩
  | requeueReplayUpload compressed =>
    cases compressed with
    | true => exact ⟨pre, hp, fun uid h => hreplay uid _ h⟩
    | false => exact ⟨pre, hp, fun uid h => hagain uid true false h⟩
  | ackFileAck compressed =>
    cases compressed with
    | true => exact ⟨pre, hp, fun uid h => hagain uid false true h⟩
    | false => exact ⟨pre, hp, fun uid h => hreplay uid _ h⟩
  | ackFileAckMoved mapname =>
    obtain ⟨pre, hp, hm⟩ := hmap mapname
    exact ⟨pre, hp, fun uid h => hm uid _ h⟩

/-- **Records with one stem share their files.** -/
theorem path_congr {dataDir uid uid' : Bytes} (h : kzWsValidReplaySegment uid = true)
    (h' : kzWsValidReplaySegment uid' = true) (hs : stem uid = stem uid') (b : Built) :
    b.path dataDir uid = b.path dataDir uid' := by
  obtain ⟨pre, -, he⟩ := path_eq dataDir b
  rw [he uid h, he uid' h', hs]

theorem filename_parse {pre name : Bytes} (hp : Front pre) (h0 : name ≠ [])
    (h : (47 : UInt8) ∉ name) : (parse (pre ++ name)).filename = name := by
  let last : Name := ⟨name, h0, h⟩
  obtain ⟨names, hnames⟩ : ∃ names, namesOf (pre ++ name) = names ++ [last] := by
    rcases hp with rfl | ⟨dir, rfl⟩
    · exact ⟨[], namesOf_name h0 h⟩
    · refine ⟨namesOf dir, ?_⟩
      rw [List.append_assoc, List.singleton_append, namesOf_append_cons, namesOf_name h0 h]
  have hlast : (pre ++ name).getLast? ≠ some 47 := by
    rw [List.getLast?_append_of_ne_nil _ h0]
    exact fun hl => h (List.mem_of_getLast? hl)
  have hslash : (parse (pre ++ name)).slash = false := decide_eq_false fun hs => hlast hs.2
  have hget : (parse (pre ++ name)).names.getLast? = some last := by
    change (namesOf (pre ++ name)).getLast? = some last
    rw [hnames, List.getLast?_concat]
  rw [Path.filename, hslash, if_neg Bool.false_ne_true, hget]
  rfl

theorem filename_path (dataDir : Bytes) {uid : Bytes} (h : kzWsValidReplaySegment uid = true)
    (b : Built) : (parse (b.path dataDir uid)).filename = stem uid ++ extOf b.compressed := by
  obtain ⟨pre, hp, he⟩ := path_eq dataDir b
  obtain ⟨h0, h47⟩ := stem_name (no_slash_of_segment h) (segment_ne_nil h)
  rw [he uid h]
  refine filename_parse hp (List.append_ne_nil_of_left_ne_nil h0 _) ?_
  rw [List.mem_append, not_or]
  exact ⟨h47, by cases b.compressed <;> decide⟩

/-- **Different records have different files** exactly where their uids have different stems,
whichever functions build the paths, as long as these have one extension. -/
theorem different_files_iff (dataDir : Bytes) {uid uid' : Bytes}
    (h : kzWsValidReplaySegment uid = true) (h' : kzWsValidReplaySegment uid' = true) :
    (∀ b b' : Built, b.compressed = b'.compressed →
      parse (b.path dataDir uid) ≠ parse (b'.path dataDir uid')) ↔ stem uid ≠ stem uid' := by
  constructor
  · intro hall hs
    exact hall (.requeueReplayUpload true) _ rfl (congrArg parse (path_congr h h' hs _))
  · intro hs b b' hext hpath
    have hname := congrArg Path.filename hpath
    rw [filename_path dataDir h, filename_path dataDir h', hext] at hname
    exact hs (List.append_cancel_right hname)

theorem different_files_sample :
    parse ((Built.ackFileAckMoved (str "kz_a")).path (str "d") (str "0_00012345_01_a")) ≠
      parse ((Built.downloadReplay (str "kz_a")).path (str "d") (str "0_00012345_01_b")) :=
  (different_files_iff (str "d") (by decide) (by decide)).mpr (by decide) _ _ rfl

/-- **Two uids with one file**: they differ behind their dot. -/
theorem shared_file : kzWsValidReplaySegment (str "0_1_a.b_c") = true ∧
    kzWsValidReplaySegment (str "0_1_a.d_e") = true ∧ str "0_1_a.b_c" ≠ str "0_1_a.d_e" ∧
    ∀ b : Built, b.path (str "d") (str "0_1_a.b_c") = b.path (str "d") (str "0_1_a.d_e") :=
  ⟨by decide, by decide, by decide, path_congr (by decide) (by decide) (by decide)⟩

/-! ### The deletion of a record -/

theorem kzWsDeleteReplayFiles_eq {dataDir uid : Bytes} (h0 : uid ≠ []) (mapname : Option Bytes) :
    kzWsDeleteReplayFiles dataDir uid mapname =
      removeEach [(Built.deleteReplayFiles mapname false).path dataDir uid,
        (Built.deleteReplayFiles mapname true).path dataDir uid] := by
  unfold kzWsDeleteReplayFiles
  rw [if_neg h0]
  rcases mapname with _ | mapname <;> rfl

theorem removeEach_keeps {p : Bytes} : ∀ {ps : List Bytes} {d d' : Disk Bytes UInt8}
    {tr : List (Done Bytes UInt8)} {r : Unit}, p ∉ ps → Exec d (removeEach ps) tr d' r → d' p = d p
  | [], _, _, _, _, _, h => by rw [(exec_pure h).2.1]
  | q :: ps, d, d', _, _, hp, h => by
    rw [List.mem_cons, not_or] at hp
    obtain ⟨_, _, d₁, _, hremove, hrest, -⟩ := exec_bind h
    rw [removeEach_keeps hp.2 hrest]
    rcases (exec_removeFile hremove).2 with ⟨-, rfl⟩ | ⟨-, rfl⟩
    · rfl
    · exact Function.update_of_ne hp.1 _ _

/-- **The deletion of a record leaves the files of a record with another stem**, whatever fails. -/
theorem delete_keeps {dataDir uid uid' : Bytes} (h : kzWsValidReplaySegment uid = true)
    (h' : kzWsValidReplaySegment uid' = true) (hs : stem uid ≠ stem uid') {mapname : Option Bytes}
    {d d' : Disk Bytes UInt8} {tr : List (Done Bytes UInt8)} {r : Unit}
    (hexec : Exec d (kzWsDeleteReplayFiles dataDir uid mapname) tr d' r) (b : Built) :
    d' (b.path dataDir uid') = d (b.path dataDir uid') := by
  have hne (compressed : Bool) :
      b.path dataDir uid' ≠ (Built.deleteReplayFiles mapname compressed).path dataDir uid := by
    intro heq
    have hname := congrArg Path.filename (congrArg parse heq)
    rw [filename_path dataDir h', filename_path dataDir h] at hname
    exact hs (List.append_inj' hname (by rw [length_extOf, length_extOf])).1.symm
  rw [kzWsDeleteReplayFiles_eq (segment_ne_nil h)] at hexec
  refine removeEach_keeps ?_ hexec
  rw [List.mem_pair, not_or]
  exact ⟨hne false, hne true⟩

end KzGlobal.Submit.RecordFiles
