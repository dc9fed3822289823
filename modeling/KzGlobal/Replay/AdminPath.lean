import KzGlobal.Lib.PosixPath
import KzGlobal.Replay.Paths

/-! # The paths of the administrator's commands

A command names a replay by a path under the replays. What `kz_ws_valid_replays_relative_path`
accepts resolves to the replays followed by its own names, all of them valid segments
(`resolve_inside`). -/

namespace KzGlobal.Replay.AdminPath

open KzGlobal.Lib.PosixPath KzGlobal.Krp.Format KzGlobal.Replay.Text KzGlobal.Replay.Paths

/-- There are no root names on a POSIX system, so a path is absolute that has a root directory. -/
def kzWsValidReplaysRelativePath (relative : Bytes) : Bool :=
  relative != [] && !(parse relative).root && (parse relative).elements.all fun part =>
    part != [] && part != str "." && part != str ".." && kzWsValidReplaySegment part

/-- The resolved file: the elements of the normalised root have to begin those of the normalised
file. -/
def kzAdminResolveReplayPath (dataDir relative : Bytes) : Option Bytes :=
  if ¬ kzWsValidReplaysRelativePath relative then none
  else
    let root := replaysDir dataDir
    let outFile := joinPath root relative
    if (parse root).lexicallyNormal.elements <+: (parse outFile).lexicallyNormal.elements then
      some outFile
    else none

/-! ### Joined paths -/

theorem root_joinPath (p : Bytes) {r : Bytes} (hr : (parse r).root = false) :
    (parse (joinPath p r)).root = (parse p).root := by
  have hh : ¬ r.head? = some 47 := by simpa [parse] using hr
  rw [joinPath, if_neg hh]
  rcases p with _ | ⟨b, p⟩
  · simpa [parse] using hr
  · split_ifs <;> rfl

theorem names_joinPath (p : Bytes) {r : Bytes} (hr : (parse r).root = false) :
    (parse (joinPath p r)).names = (parse p).names ++ (parse r).names := by
  have hh : ¬ r.head? = some 47 := by simpa [parse] using hr
  change namesOf (joinPath p r) = namesOf p ++ namesOf r
  rw [joinPath, if_neg hh]
  split_ifs with hp
  · rcases hp with rfl | hp
    · rfl
    · obtain ⟨q, rfl⟩ := List.getLast?_eq_some_iff.mp hp
      rw [List.append_assoc, List.singleton_append, namesOf_append_cons, namesOf_append_cons,
        namesOf_nil, List.append_nil]
  · exact namesOf_append_cons p r

theorem slash_joinPath (p : Bytes) {r : Bytes} (hr : (parse r).root = false)
    (hn : (parse r).names ≠ []) :
    (parse (joinPath p r)).slash = (parse r).slash := by
  have hn' : namesOf (joinPath p r) ≠ [] := by
    have := names_joinPath p hr
    change namesOf (joinPath p r) = namesOf p ++ namesOf r at this
    rw [this]
    exact List.append_ne_nil_of_right_ne_nil _ hn
  have hr0 : r ≠ [] := by
    rintro rfl
    exact hn rfl
  have hl : (joinPath p r).getLast? = r.getLast? := by
    unfold joinPath
    split_ifs
    · rfl
    · exact List.getLast?_append_of_ne_nil _ hr0
    · rw [List.getLast?_append_of_ne_nil _ (List.cons_ne_nil _ _), List.getLast?_cons_of_ne_nil hr0]
  change decide (namesOf (joinPath p r) ≠ [] ∧ _) = decide (namesOf r ≠ [] ∧ _)
  rw [hl]
  simp [hn', show namesOf r ≠ [] from hn]

/-- **The parts of a joined path.** -/
theorem parse_joinPath (p : Bytes) {r : Bytes} (hr : (parse r).root = false)
    (hn : (parse r).names ≠ []) :
    parse (joinPath p r) =
      ⟨(parse p).root, (parse p).names ++ (parse r).names, (parse r).slash⟩ := by
  rw [← root_joinPath p hr, ← names_joinPath p hr, ← slash_joinPath p hr hn]

/-! ### The replays -/

/-- The folder of the module. -/
def kzGlobalName : Name := ⟨str "kz_global", by decide, by decide⟩

/-- The folder of the replays. -/
def replaysName : Name := ⟨str "replays", by decide, by decide⟩

theorem parse_replaysDir (dataDir : Bytes) : parse (replaysDir dataDir) =
    ⟨(parse dataDir).root, (parse dataDir).names ++ [kzGlobalName] ++ [replaysName], false⟩ := by
  have h1 : parse (str "kz_global") = ⟨false, [kzGlobalName], false⟩ := by decide
  have h2 : parse (str "replays") = ⟨false, [replaysName], false⟩ := by decide
  rw [replaysDir, parse_joinPath _ (by rw [h2]) (by rw [h2]; simp), h2,
    parse_joinPath _ (by rw [h1]) (by rw [h1]; simp), h1]

theorem parse_of_valid {relative : Bytes} (h : kzWsValidReplaysRelativePath relative = true) :
    (parse relative).root = false ∧ (parse relative).slash = false ∧ (parse relative).names ≠ [] ∧
      ∀ n ∈ (parse relative).names, kzWsValidReplaySegment n.text = true ∧ n ≠ .dot ∧
      n ≠ .dotDot := by
  simp only [kzWsValidReplaysRelativePath, Bool.and_eq_true, bne_iff_ne, Bool.not_eq_true',
    List.all_eq_true] at h
  obtain ⟨⟨h0, hroot⟩, hparts⟩ := h
  have hhead : relative.head? ≠ some 47 := by simpa [parse] using hroot
  refine ⟨hroot, ?_, namesOf_ne_nil h0 hhead, fun n hn => ?_⟩
  · by_contra hs
    rw [Bool.not_eq_false] at hs
    have hmem : [] ∈ (parse relative).elements := by
      rw [Path.elements, if_pos hs]
      simp
    exact (hparts [] hmem).1.1.1 rfl
  · have hmem : n.text ∈ (parse relative).elements := by
      rw [Path.elements]
      exact List.mem_append_left _ (List.mem_append_right _ (List.mem_map_of_mem hn))
    obtain ⟨⟨⟨-, hdot⟩, hdots⟩, hvalid⟩ := hparts n.text hmem
    exact ⟨hvalid, fun h => hdot (by rw [h]; rfl), fun h => hdots (by rw [h]; rfl)⟩

/-- **An accepted path resolves to a place under the replays**, in a data directory without `..`. -/
theorem resolve_inside {dataDir relative : Bytes} (hd : .dotDot ∉ (parse dataDir).names)
    (h : kzWsValidReplaysRelativePath relative = true) :
    ∃ outFile comps, kzAdminResolveReplayPath dataDir relative = some outFile ∧ comps ≠ [] ∧
      (∀ c ∈ comps, kzWsValidReplaySegment c = true) ∧
      (parse outFile).lexicallyNormal.elements =
        (parse (replaysDir dataDir)).lexicallyNormal.elements ++ comps := by
  obtain ⟨hroot, hslash, hne, hnames⟩ := parse_of_valid h
  have hout := parse_joinPath (replaysDir dataDir) hroot hne
  rw [parse_replaysDir, hslash] at hout
  obtain ⟨ns, last, hlast⟩ : ∃ ns last, (parse relative).names = ns ++ [last] :=
    ⟨_, _, (List.dropLast_append_getLast hne).symm⟩
  have hdir : .dotDot ∉ (parse dataDir).names ++ [kzGlobalName] ++ [replaysName] := by
    simp only [List.mem_append, List.mem_singleton, not_or]
    exact ⟨⟨hd, by decide⟩, by decide⟩
  have hdots : .dotDot ∉ (parse dataDir).names ++ [kzGlobalName] ++ [replaysName] ++
      (parse relative).names := by
    rw [List.mem_append, not_or]
    exact ⟨hdir, fun hm => (hnames _ hm).2.2 rfl⟩
  have hkept : withoutDots (parse relative).names = (parse relative).names :=
    List.filter_eq_self.mpr fun n hn => by simpa using (hnames n hn).2.1
  have hnroot : (parse (replaysDir dataDir)).lexicallyNormal = ⟨(parse dataDir).root,
      withoutDots ((parse dataDir).names ++ [kzGlobalName] ++ [replaysName]), false⟩ := by
    rw [parse_replaysDir]
    exact lexicallyNormal_eq rfl hdir (by decide)
  have hnout : (parse (joinPath (replaysDir dataDir) relative)).lexicallyNormal =
      ⟨(parse dataDir).root,
        withoutDots ((parse dataDir).names ++ [kzGlobalName] ++ [replaysName]) ++
        (parse relative).names, false⟩ := by
    have hsplit : (parse dataDir).names ++ [kzGlobalName] ++ [replaysName] ++
        (parse relative).names =
        ((parse dataDir).names ++ [kzGlobalName] ++ [replaysName] ++ ns) ++ [last] := by
      rw [hlast, List.append_assoc _ ns]
    rw [hout, lexicallyNormal_eq hsplit hdots (hnames last (by rw [hlast]; simp)).2.1,
      withoutDots_append _ (parse relative).names, hkept]
  have helems : (parse (joinPath (replaysDir dataDir) relative)).lexicallyNormal.elements =
      (parse (replaysDir dataDir)).lexicallyNormal.elements ++
        (parse relative).names.map Name.text := by
    rw [hnout, hnroot]
    simp [Path.elements]
  refine ⟨joinPath (replaysDir dataDir) relative, (parse relative).names.map Name.text, ?_, ?_,
    ?_, helems⟩
  · rw [kzAdminResolveReplayPath, if_neg (not_not.mpr h)]
    exact if_pos (helems ▸ List.prefix_append _ _)
  · simpa using hne
  · intro c hc
    obtain ⟨n, hn, rfl⟩ := List.mem_map.mp hc
    exact (hnames n hn).1

end KzGlobal.Replay.AdminPath
