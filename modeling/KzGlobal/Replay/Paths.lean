import KzGlobal.Lib.FileProgram
import KzGlobal.Replay.Headers

/-! # Where the files are

The module keeps its files under one directory: a saved run is `replays/<uid>.krpr`, and everything
else ends in another extension or lies in the directory of a map. So no write to a capture, to a
compressed replay or in a map's directory touches a saved run (`Nested.apart`, `apart_krpz`), and
runs with different uids are different files (`replayPath_inj`). -/

namespace KzGlobal.Replay.Paths

open KzGlobal.Krp.Format KzGlobal.Replay.Text KzGlobal.Replay.Writer KzGlobal.Replay.Headers

/-- A program over the files of the module. -/
abbrev Files := Lib.FileProgram.Prog Bytes UInt8

/-! ### The parts of a path -/

theorem afterLast_append {c : UInt8} {s : Bytes} (h : c ∉ s) (r : Bytes) :
    afterLast c (r ++ c :: s) = s := by
  have hr : (r ++ c :: s).reverse = s.reverse ++ c :: r.reverse := by simp
  rw [afterLast, hr, takeWhile_ne (by simpa using h), List.reverse_reverse]

theorem afterLast_of_not_mem {c : UInt8} {s : Bytes} (h : c ∉ s) : afterLast c s = s := by
  rw [afterLast, List.takeWhile_eq_self_iff.mpr fun b hb => ?_, List.reverse_reverse]
  have : b ≠ c := fun h0 => h (h0 ▸ List.mem_reverse.mp hb)
  simpa using this

theorem filename_append {name : Bytes} (h : (47 : UInt8) ∉ name) (dir : Bytes) :
    filename (dir ++ 47 :: name) = name := afterLast_append h dir

theorem filename_joinPath {name : Bytes} (h : (47 : UInt8) ∉ name) (dir : Bytes) :
    filename (joinPath dir name) = name := by
  have hh : ¬ name.head? = some 47 := fun hh => h (List.mem_of_head? hh)
  rw [joinPath, if_neg hh]
  split_ifs with hd
  · rcases hd with rfl | hd
    · exact afterLast_of_not_mem h
    · obtain ⟨r, hr⟩ := List.getLast?_eq_some_iff.mp hd
      rw [hr, List.append_assoc]
      exact filename_append h r
  · exact filename_append h dir

theorem parentPath_append {dir name : Bytes} (hd : dir ≠ []) (hl : dir.getLast? ≠ some 47)
    (h : (47 : UInt8) ∉ name) : parentPath (dir ++ 47 :: name) = dir := by
  have htake :
      (dir ++ 47 :: name).take
      ((dir ++ 47 :: name).length - (filename (dir ++ 47 :: name)).length) =
      dir ++ [47] := by
    have hk : (dir ++ 47 :: name).length - name.length = dir.length + 1 := by
      rw [List.length_append, List.length_cons]
      omega
    rw [filename_append h, hk, List.take_length_add_append]
    rfl
  obtain ⟨r, b, rfl⟩ : ∃ r b, dir = r ++ [b] := ⟨_, _, (List.dropLast_append_getLast hd).symm⟩
  have hb : b ≠ 47 := by simpa using hl
  unfold parentPath
  dsimp only
  rw [htake]
  simp [hb]

theorem extension_congr {p q : Bytes} (h : filename p = filename q) :
    extension p = extension q := by
  unfold extension
  rw [h]

theorem exists_afterLast {c : UInt8} {s : Bytes} (h : c ∈ s) :
    ∃ r, s = r ++ c :: afterLast c s := by
  obtain ⟨t, r, hs, ht⟩ := List.eq_append_cons_of_mem (List.mem_reverse.mpr h)
  have hs' : s = r.reverse ++ c :: t.reverse := by
    rw [← List.reverse_reverse s, hs]
    simp
  refine ⟨r.reverse, ?_⟩
  conv_rhs => rw [hs', afterLast_append (by simpa using ht)]
  exact hs'

theorem replaceExtension_stem {name : Bytes} (h : (47 : UInt8) ∉ name) (hn : name ≠ [])
    (dir : Bytes) : ∃ stem, stem ≠ [] ∧ (stem = name ∨ ∃ tail, name = stem ++ 46 :: tail) ∧
      ∀ ext, replaceExtension (dir ++ 47 :: name) ext = dir ++ 47 :: (stem ++ ext) := by
  by_cases hext : name = str ".." ∨ name.length ≤ (afterLast 46 name).length + 1
  · have he : extension (dir ++ 47 :: name) = [] := by
      unfold extension
      dsimp only
      rw [filename_append h, if_pos hext]
    refine ⟨name, hn, Or.inl rfl, fun ext => ?_⟩
    rw [replaceExtension, he, List.length_nil, Nat.sub_zero, List.take_length, List.append_assoc]
    rfl
  · have he : extension (dir ++ 47 :: name) = 46 :: afterLast 46 name := by
      unfold extension
      dsimp only
      rw [filename_append h, if_neg hext]
    rw [not_or, not_le] at hext
    have h46 : (46 : UInt8) ∈ name := by
      by_contra h46
      have hlt := hext.2
      rw [afterLast_of_not_mem h46] at hlt
      omega
    obtain ⟨r, hr⟩ := exists_afterLast h46
    have hlen := congrArg List.length hr
    rw [List.length_append, List.length_cons] at hlen
    have hk : (dir ++ 47 :: name).length - (46 :: afterLast 46 name).length =
        dir.length + (r.length + 1) := by
      rw [List.length_append, List.length_cons, List.length_cons, hlen]
      omega
    have htake : name.take r.length = r := by
      rw [hr, List.take_left]
    refine ⟨r, fun h0 => ?_, Or.inr ⟨_, hr⟩, fun ext => ?_⟩
    · rw [h0, List.length_nil] at hlen
      omega
    · rw [replaceExtension, he, hk, List.take_length_add_append, List.take_succ_cons, htake,
        List.append_assoc]
      rfl

/-- What comes before the last dot of a name is kept. -/
theorem stem_keeps {start rest stem : Bytes} (h46 : (46 : UInt8) ∉ start)
    (hstem : stem = start ++ rest ∨ ∃ tail, start ++ rest = stem ++ 46 :: tail) :
    ∃ kept, stem = start ++ kept := by
  rcases hstem with rfl | ⟨tail, htail⟩
  · exact ⟨rest, rfl⟩
  · rcases List.append_eq_append_iff.mp htail with ⟨kept, hkept, -⟩ | ⟨c, hc, htail⟩
    · exact ⟨kept, hkept⟩
    · rcases c with _ | ⟨b, c⟩
      · exact ⟨[], by simpa using hc.symm⟩
      · rw [List.cons_append, List.cons.injEq] at htail
        rw [hc, ← htail.1] at h46
        simp at h46

theorem replaceExtension_append {name : Bytes} (h : (47 : UInt8) ∉ name) (hn : name ≠ [])
    (dir : Bytes) : ∃ stem, stem ≠ [] ∧ (47 : UInt8) ∉ stem ∧
      ∀ ext, replaceExtension (dir ++ 47 :: name) ext = dir ++ 47 :: (stem ++ ext) := by
  obtain ⟨stem, h0, hstem, he⟩ := replaceExtension_stem h hn dir
  refine ⟨stem, h0, fun hm => h ?_, he⟩
  rcases hstem with rfl | ⟨tail, rfl⟩
  · exact hm
  · exact List.mem_append_left _ hm

theorem replaceExtension_of_no_dot {name : Bytes} (h : (47 : UInt8) ∉ name)
    (h' : (46 : UInt8) ∉ name)
    (dir ext : Bytes) : replaceExtension (dir ++ 47 :: name) ext = dir ++ 47 :: (name ++ ext) := by
  have he : extension (dir ++ 47 :: name) = [] := by
    unfold extension
    dsimp only
    rw [filename_append h, afterLast_of_not_mem h']
    exact if_pos (Or.inr (Nat.le_succ _))
  rw [replaceExtension, he, List.length_nil, Nat.sub_zero, List.take_length, List.append_assoc]
  rfl

theorem extension_dot {stem e : Bytes} (h0 : stem ≠ []) (h47 : (47 : UInt8) ∉ stem ++ e)
    (h46 : (46 : UInt8) ∉ e) (he : e ≠ []) (dir : Bytes) :
    extension (dir ++ 47 :: (stem ++ 46 :: e)) = 46 :: e := by
  have hname : (47 : UInt8) ∉ stem ++ 46 :: e := by simpa using h47
  unfold extension
  dsimp only
  rw [filename_append hname, afterLast_append h46]
  refine if_neg (not_or.mpr ⟨fun hdots => ?_, ?_⟩)
  · have hl := congrArg List.getLast? hdots
    rw [List.getLast?_append_of_ne_nil _ (List.cons_ne_nil _ _),
      List.getLast?_cons_of_ne_nil he] at hl
    exact h46 (List.mem_of_getLast? hl)
  · have := List.length_pos_iff.mpr h0
    rw [List.length_append, List.length_cons]
    omega

theorem replaceExtension_dot {stem e : Bytes} (h0 : stem ≠ []) (h47 : (47 : UInt8) ∉ stem)
    (he47 : (47 : UInt8) ∉ e) (he : e ≠ [] ∧ (46 : UInt8) ∉ e) (dir ext : Bytes) :
    replaceExtension (dir ++ 47 :: (stem ++ 46 :: e)) ext = dir ++ 47 :: (stem ++ ext) := by
  have hk : (dir ++ 47 :: (stem ++ 46 :: e)).length - (46 :: e).length =
      dir.length + (stem.length + 1) := by
    simp only [List.length_append, List.length_cons]
    omega
  rw [replaceExtension, extension_dot h0 (by simp [h47, he47]) he.2 he.1, hk,
    List.take_length_add_append, List.take_succ_cons, List.take_left, List.append_assoc]
  rfl

/-! ### Segments -/

theorem segment_ne_nil {v : Bytes} (h : kzWsValidReplaySegment v = true) : v ≠ [] := by
  rintro rfl
  cases h

theorem no_slash_of_segment {v : Bytes} (h : kzWsValidReplaySegment v = true) :
    (47 : UInt8) ∉ v := by
  intro hm
  rw [kzWsValidReplaySegment, Bool.and_eq_true] at h
  exact absurd (List.all_eq_true.mp h.2 47 hm) (by decide)

/-! ### The directory of the replays -/

theorem joinPath_append {dir name : Bytes} (hd : dir ≠ []) (hl : dir.getLast? ≠ some 47)
    (h : (47 : UInt8) ∉ name) : joinPath dir name = dir ++ 47 :: name := by
  have hh : ¬ name.head? = some 47 := fun hh => h (List.mem_of_head? hh)
  rw [joinPath, if_neg hh, if_neg (not_or.mpr ⟨hd, hl⟩)]

theorem getLast?_replaysDir (dataDir : Bytes) : (replaysDir dataDir).getLast? = some 115 := by
  have hh : ¬ (str "replays").head? = some 47 := by decide
  rw [replaysDir, joinPath, if_neg hh]
  split_ifs
  · rw [List.getLast?_append_of_ne_nil _ (by decide)]; rfl
  · rw [List.getLast?_append_of_ne_nil _ (List.cons_ne_nil _ _)]; rfl

theorem joinPath_replaysDir (dataDir : Bytes) {name : Bytes} (h : (47 : UInt8) ∉ name) :
    joinPath (replaysDir dataDir) name = replaysDir dataDir ++ 47 :: name := by
  have hl := getLast?_replaysDir dataDir
  refine joinPath_append (fun h0 => ?_) (fun h47 => ?_) h
  · rw [h0] at hl; cases hl
  · rw [hl] at h47; exact absurd h47 (by decide)

/-- `g_data_dir / "kz_global" / "replays" / local_uid` with an extension. -/
def replayPath (dataDir uid ext : Bytes) : Bytes :=
  replaceExtension (joinPath (replaysDir dataDir) uid) ext

/-- `g_data_dir / "kz_global" / "replays" / mapname / local_uid` with an extension. -/
def mapReplayPath (dataDir mapname uid ext : Bytes) : Bytes :=
  replaceExtension (joinPath (joinPath (replaysDir dataDir) mapname) uid) ext

/-- A uid of a run: a segment without a dot that fits its buffer. -/
def RunUid (uid : Bytes) : Prop :=
  kzWsValidReplaySegment uid = true ∧ (46 : UInt8) ∉ uid ∧ uid.length ≤ 63

instance (uid : Bytes) : Decidable (RunUid uid) := by unfold RunUid; infer_instance

theorem replayPath_eq (dataDir ext : Bytes) {uid : Bytes} (h : RunUid uid) :
    replayPath dataDir uid ext = replaysDir dataDir ++ 47 :: (uid ++ ext) := by
  have h47 := no_slash_of_segment h.1
  rw [replayPath, joinPath_replaysDir _ h47, replaceExtension_of_no_dot h47 h.2.1]

/-- **Different runs are different files.** -/
theorem replayPath_inj {dataDir ext uid uid' : Bytes} (h : RunUid uid) (h' : RunUid uid')
    (he : replayPath dataDir uid ext = replayPath dataDir uid' ext) : uid = uid' := by
  rw [replayPath_eq _ _ h, replayPath_eq _ _ h'] at he
  exact List.append_cancel_right (List.cons.inj (List.append_cancel_left he)).2

/-- A path in a directory under the replays. -/
def Nested (dataDir p : Bytes) : Prop := ∃ m rest, p = replaysDir dataDir ++ 47 :: (m ++ 47 :: rest)

/-- No saved run lies at a path. -/
def Apart (dataDir p : Bytes) : Prop :=
  ∀ uid, RunUid uid → p ≠ replayPath dataDir uid (str ".krpr")

/-- **What lies in the directory of a map is no saved run.** -/
theorem Nested.apart {dataDir p : Bytes} (hp : Nested dataDir p) : Apart dataDir p := by
  rintro uid h rfl
  obtain ⟨m, rest, he⟩ := hp
  rw [replayPath_eq _ _ h] at he
  have hm := (List.cons.inj (List.append_cancel_left he)).2
  have h47 : (47 : UInt8) ∈ uid ++ str ".krpr" := by rw [hm]; simp
  rcases List.mem_append.mp h47 with h47 | h47
  · exact no_slash_of_segment h.1 h47
  · exact absurd h47 (by decide)

theorem getLast?_replaceExtension (p ext : Bytes) (h : ext ≠ []) :
    (replaceExtension p ext).getLast? = ext.getLast? := List.getLast?_append_of_ne_nil _ h

theorem apart_of_getLast? {p : Bytes} (h : p.getLast? ≠ some 114) (dataDir : Bytes) :
    Apart dataDir p := by
  rintro uid - rfl
  rw [replayPath, getLast?_replaceExtension _ _ (by decide)] at h
  exact h rfl

/-- **What ends in `.krpz` is no saved run.** -/
theorem apart_krpz (dataDir p : Bytes) : Apart dataDir (replaceExtension p (str ".krpz")) :=
  apart_of_getLast? (by rw [getLast?_replaceExtension _ _ (by decide)]; decide) dataDir

theorem getLast?_of_afterLast {c b : UInt8} {s : Bytes} (h : (afterLast c s).getLast? = some b) :
    s.getLast? = some b := by
  rw [afterLast, List.getLast?_reverse, List.head?_takeWhile] at h
  rw [List.getLast?_eq_head?_reverse]
  exact (Option.filter_eq_some_iff.mp h).1

theorem apart_of_extension {p : Bytes} (h : extension p = str ".krpz") (dataDir : Bytes) :
    Apart dataDir p := by
  unfold extension at h
  dsimp only at h
  split_ifs at h
  · cases h
  · have hz : (afterLast 46 (filename p)).getLast? = some 122 := by
      rw [(List.cons.inj h).2]
      rfl
    refine apart_of_getLast? ?_ dataDir
    rw [getLast?_of_afterLast (getLast?_of_afterLast hz)]
    decide

theorem mapDir_eq (dataDir : Bytes) {mapname : Bytes} (hm : kzWsValidReplaySegment mapname = true)
    {name : Bytes} (hn : (47 : UInt8) ∉ name) :
    joinPath (joinPath (replaysDir dataDir) mapname) name =
      replaysDir dataDir ++ 47 :: mapname ++ 47 :: name := by
  have h47 := no_slash_of_segment hm
  rw [joinPath_replaysDir _ h47]
  refine joinPath_append (List.append_ne_nil_of_right_ne_nil _ (List.cons_ne_nil _ _)) ?_ hn
  rw [List.getLast?_append_of_ne_nil _ (List.cons_ne_nil _ _),
    List.getLast?_cons_of_ne_nil (segment_ne_nil hm)]
  exact fun hl => h47 (List.mem_of_getLast? hl)

theorem nested_mapReplayPath (dataDir ext : Bytes) {mapname uid : Bytes}
    (hm : kzWsValidReplaySegment mapname = true) (hu : kzWsValidReplaySegment uid = true) :
    Nested dataDir (mapReplayPath dataDir mapname uid ext) := by
  have h47 := no_slash_of_segment hu
  obtain ⟨stem, -, -, he⟩ :=
    replaceExtension_append h47 (segment_ne_nil hu) (replaysDir dataDir ++ 47 :: mapname)
  rw [mapReplayPath, mapDir_eq dataDir hm h47, he]
  exact ⟨mapname, stem ++ ext, by rw [List.append_assoc]; rfl⟩

theorem replaceExtension_krpz (dataDir : Bytes) {uid : Bytes}
    (h : kzWsValidReplaySegment uid = true) (ext : Bytes) :
    replaceExtension (replayPath dataDir uid (str ".krpz")) ext = replayPath dataDir uid ext := by
  obtain ⟨stem, h0, h47, he⟩ :=
    replaceExtension_append (no_slash_of_segment h) (segment_ne_nil h) (replaysDir dataDir)
  rw [replayPath, replayPath, joinPath_replaysDir _ (no_slash_of_segment h), he, he]
  exact replaceExtension_dot h0 h47 (by decide) (by decide) _ _

/-! ### Captures -/

/-- The directory leaves the paths of the saved runs room in their buffer of 255 bytes. -/
def ShortDir (dataDir : Bytes) : Prop := (replaysDir dataDir).length ≤ 185

theorem mapName_le (g : ServerHeader) : (mapName g.header).length ≤ 63 := by
  obtain ⟨n, rest, hn, h0, hl⟩ := GHeader.terminated g.reached
  rwa [(fileName_of_terminated hn h0 hl).2]

theorem nested_tmpPath {dataDir : Bytes} (hd : ShortDir dataDir) {mapname steamidShort : Bytes}
    (hm : kzWsValidReplaySegment mapname = true) (hl : mapname.length ≤ 63)
    (hs : kzWsValidReplaySegment steamidShort = true) :
    Nested dataDir (tmpPath dataDir mapname steamidShort) := by
  unfold ShortDir at hd
  refine ⟨mapname, (steamidShort ++ str ".tmp").take (254 - ((replaysDir dataDir).length + 1 +
    mapname.length + 1)), ?_⟩
  rw [tmpPath, mapDir_eq dataDir hm (no_slash_of_segment hs)]
  simp only [List.append_assoc, List.cons_append]
  obtain ⟨k, hk⟩ : ∃ k, 254 = (replaysDir dataDir).length + (mapname.length + k + 1 + 1) :=
    ⟨254 - ((replaysDir dataDir).length + 1 + mapname.length + 1), by omega⟩
  have hk' : 254 - ((replaysDir dataDir).length + 1 + mapname.length + 1) = k := by omega
  rw [hk', hk, List.take_length_add_append, List.take_succ_cons, Nat.add_assoc mapname.length,
    List.take_length_add_append, List.take_succ_cons]

theorem take_finishPath {dataDir uid : Bytes} (hd : ShortDir dataDir) (h : RunUid uid) :
    (finishPath dataDir uid).take 254 = replayPath dataDir uid (str ".krpr") := by
  refine List.take_of_length_le ?_
  change (replayPath dataDir uid (str ".krpr")).length ≤ 254
  have hl := h.2.2
  unfold ShortDir at hd
  have he : (str ".krpr").length = 5 := rfl
  rw [replayPath_eq _ _ h, List.length_append, List.length_cons, List.length_append, he]
  omega

/-- `g_data_dir`: under `cstrike`, the value of the local info `amxx_datadir`, which fits
`MAX_KV_LEN`. -/
def gDataDir (amxxDatadir : CString 127) : Bytes := joinPath (str "cstrike") amxxDatadir.bytes

theorem length_joinPath_le (dir name : Bytes) :
    (joinPath dir name).length ≤ dir.length + name.length + 1 := by
  unfold joinPath
  split_ifs
  · omega
  · rw [List.length_append]
    omega
  · rw [List.length_append, List.length_cons]
    omega

theorem length_replaysDir_le (amxxDatadir : CString 127) :
    (replaysDir (gDataDir amxxDatadir)).length ≤ 152 := by
  have h0 := amxxDatadir.fits
  have h1 := length_joinPath_le (str "cstrike") amxxDatadir.bytes
  have h2 := length_joinPath_le (gDataDir amxxDatadir) (str "kz_global")
  have h3 := length_joinPath_le (joinPath (gDataDir amxxDatadir) (str "kz_global")) (str "replays")
  have e1 : (str "cstrike").length = 7 := rfl
  have e2 : (str "kz_global").length = 9 := rfl
  have e3 : (str "replays").length = 7 := rfl
  unfold replaysDir
  unfold gDataDir at h2 h3 ⊢
  omega

theorem shortDir_gDataDir (amxxDatadir : CString 127) : ShortDir (gDataDir amxxDatadir) := by
  have h := length_replaysDir_le amxxDatadir
  unfold ShortDir
  omega

end KzGlobal.Replay.Paths
