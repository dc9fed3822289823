import KzGlobal.Playback.Deleted
import KzGlobal.Playback.Cursor

/-! # The bot plays the map

A replay that was parsed for one map may come to the main thread after the server has changed to
another. `kz_pb_frame` plays none whose header names another map, and a deactivation empties the
frames of what was played before the name of the map changes. So whatever the threads do and in
whatever order the files change, the frames that the bot shows are those of a file as it was read,
and the file is a replay of the current map (`own_map`). -/

namespace KzGlobal.Playback.OwnMap

open KzGlobal.Lib.Runs KzGlobal.Lib.Stdio KzGlobal.Lib.PosixPath KzGlobal.Krp.Format
open KzGlobal.Krp.Codec KzGlobal.Replay.Text
open KzGlobal.Playback.Threads KzGlobal.Playback.Deleted
open KzGlobal.Playback.Cursor (playback)

/-! ### The engine -/

/-- Whether a map is active, for the engine deactivates one before it loads the next, and what the
parser thread has read of which paths. -/
structure Seen where
  up : Bool
  reads : List (Path × Bytes)

/-- What the parser thread reads: the front of its queue. -/
def frontRead (fails : Bool) (s : Pb) : Option (Path × Bytes) :=
  match s.parser, s.parseQueue with
  | .waiting, file :: _ => (if fails then none else s.disk file).map (Prod.mk file)
  | _, _ => none

/-- Whether a map is up, and what has been read of the disk, the last one first. -/
def seen (g : Seen) (s : Pb) : Event → Seen
  | .deactivate => if s.main = .idle then { g with up := false } else g
  | .loadMap _ => if s.main = .idle then { g with up := true } else g
  | .read fails => { g with reads := (frontRead fails s).toList ++ g.reads }
  | _ => g

/-- What the engine promises: there are frames on active maps only, and no map is loaded over an
active one. -/
def Engine (gs : Seen × Pb) : Event → Prop
  | .frame _ => gs.1.up = true
  | .loadMap _ => gs.1.up = false
  | _ => True

/-- The next state, beside what has been seen. -/
abbrev nextSeen (dataDir : Bytes) (unzstd : Bytes → Option Bytes) : Seen × Pb → Event → Seen × Pb :=
  withGhost (next dataDir unzstd) seen

/-! ### The invariant -/

/-- Header and frames are those of the file at the path, as it was read. -/
def IsRead (unzstd : Bytes → Option Bytes) (g : Seen) (pb : KrpPlayback) : Prop :=
  ∃ src, (pb.filepath, src) ∈ g.reads ∧ parsePlayback unzstd src = (pb.header, pb.frames)

/-- **What is played is of the current map**, as long as it has frames; where no map is active it
has none, and the main thread is not looking for a replay to play. -/
structure Own (unzstd : Bytes → Option Bytes) (gs : Seen × Pb) : Prop where
  played : ∀ pb, gs.2.botData = some pb → pb.frames ≠ [] →
    gs.1.up = true ∧ headerMap pb.header = gs.2.mapname ∧ IsRead unzstd gs.1 pb
  data : ∀ pb ∈ gs.2.data, IsRead unzstd gs.1 pb
  parser : ∀ pb, playback gs.2.parser = some pb → IsRead unzstd gs.1 pb
  idle : gs.1.up = false → gs.2.main ≠ .lock ∧ gs.2.main ≠ .scan

section Steps
variable {unzstd : Bytes → Option Bytes} {g : Seen} {s s' : Pb}

theorem own_init (disk : Disk Path UInt8) (mapname : Bytes) :
    Own unzstd (⟨true, []⟩, .init disk mapname) where
  played _ hpb := by cases hpb
  data _ hpb := absurd hpb List.not_mem_nil
  parser _ hpb := by cases hpb
  idle hup := by cases hup

/-- What is played goes on or stops, nothing new is parsed, and the main thread is where it was or
is not looking for a replay. -/
theorem Own.mono (h : Own unzstd (g, s)) (hbot : s'.botData = s.botData ∨ s'.botData = none)
    (hmap : s'.mapname = s.mapname) (hdata : ∀ pb ∈ s'.data, pb ∈ s.data)
    (hparser : playback s'.parser = playback s.parser ∨ playback s'.parser = none)
    (hmain : s'.main = s.main ∨ g.up = true ∨ s'.main ≠ .lock ∧ s'.main ≠ .scan) :
    Own unzstd (g, s') where
  played pb hpb hne := by
    rcases hbot with heq | heq
    · rw [hmap]
      exact h.played pb (heq ▸ hpb) hne
    · rw [heq] at hpb
      cases hpb
  data pb hpb := h.data pb (hdata pb hpb)
  parser pb hpb := by
    rcases hparser with heq | heq
    · exact h.parser pb (heq ▸ hpb)
    · rw [heq] at hpb
      cases hpb
  idle hup := by
    rcases hmain with heq | htrue | hno
    · rw [heq]
      exact h.idle hup
    · rw [htrue] at hup
      cases hup
    · exact hno

theorem IsRead.mono {g' : Seen} {pb : KrpPlayback} (h : IsRead unzstd g pb)
    (hreads : ∀ r ∈ g.reads, r ∈ g'.reads) : IsRead unzstd g' pb := by
  obtain ⟨src, hsrc, hparse⟩ := h
  exact ⟨src, hreads _ hsrc, hparse⟩

theorem isRead_of_parseFile {file : Path} {src : Bytes} {pb : KrpPlayback}
    (h : parseFile unzstd file src = some pb) (hsrc : (file, src) ∈ g.reads) :
    IsRead unzstd g pb := by
  unfold parseFile at h
  dsimp only at h
  split_ifs at h
  obtain rfl := Option.some.inj h
  exact ⟨src, hsrc, rfl⟩

theorem Own.more (h : Own unzstd (g, s)) {g' : Seen} (hup : g'.up = g.up)
    (hreads : ∀ r ∈ g.reads, r ∈ g'.reads) : Own unzstd (g', s) where
  played pb hpb hne := by
    obtain ⟨hg, hmap, hread⟩ := h.played pb hpb hne
    exact ⟨hup.trans hg, hmap, hread.mono hreads⟩
  data pb hpb := (h.data pb hpb).mono hreads
  parser pb hpb := (h.parser pb hpb).mono hreads
  idle hdown := h.idle (hup.symm.trans hdown)

theorem Own.readFront (h : Own unzstd (g, s)) (fails : Bool) :
    Own unzstd (seen g s (.read fails), readFront unzstd fails s) := by
  have hmore : Own unzstd (seen g s (.read fails), s) :=
    h.more rfl fun r hr => List.mem_append_right _ hr
  unfold Threads.readFront
  split
  · rename_i file rest hparser hqueue
    dsimp only
    have hfront : frontRead fails s =
        (if fails = true then none else s.disk file).map (Prod.mk file) := by
      unfold frontRead
      rw [hparser, hqueue]
    split
    · rename_i pb hpb
      obtain ⟨src, hsrc, hparse⟩ := Option.bind_eq_some_iff.mp hpb
      refine ⟨hmore.played, hmore.data, fun pb' hpb' => ?_, hmore.idle⟩
      obtain rfl := Option.some.inj hpb'
      refine isRead_of_parseFile hparse (List.mem_append_left _ ?_)
      rw [hfront, hsrc]
      exact List.mem_singleton_self _
    · exact hmore.mono (Or.inl rfl) rfl (fun _ => id) (Or.inr rfl) (Or.inl rfl)
  · exact hmore

theorem Own.checkExists (h : Own unzstd (g, s)) (env : Env) :
    Own unzstd (g, checkExists env s) := by
  unfold Threads.checkExists
  split
  · rename_i pb hpb
    split_ifs
    · exact h.mono (Or.inl rfl) rfl (fun _ => id) (Or.inr rfl) (Or.inl rfl)
    · exact h.mono (Or.inl rfl) rfl (fun _ => id) (Or.inl (by rw [hpb]; rfl)) (Or.inl rfl)
  · exact h

theorem Own.pushParsed (h : Own unzstd (g, s)) : Own unzstd (g, pushParsed s) := by
  unfold Threads.pushParsed
  split
  · rename_i pb hpb
    split_ifs
    · exact h
    · refine ⟨h.played, fun pb' hpb' => ?_, fun pb' hpb' => ?_, h.idle⟩
      · rcases List.mem_append.mp hpb' with hpb' | hpb'
        · exact h.data pb' hpb'
        · rw [List.mem_singleton.mp hpb']
          exact h.parser pb (by rw [hpb]; rfl)
      · cases hpb'
  · exact h

theorem Own.popFront (h : Own unzstd (g, s)) : Own unzstd (g, popFront s) := by
  unfold Threads.popFront
  split
  · exact h.mono (Or.inl rfl) rfl (fun _ => id) (Or.inr rfl) (Or.inl rfl)
  · exact h

theorem Own.frame (h : Own unzstd (g, s)) (hup : g.up = true) (dataDir : Bytes) (env : Env) :
    Own unzstd (g, kzPbFrame dataDir env s) := by
  obtain ⟨m, hidle | hnone | ⟨q, hparse⟩⟩ := kzPbFrame_cases dataDir env s
  · rw [hidle]
    exact h.mono (Or.inl rfl) rfl (fun _ => id) (Or.inl rfl) (Or.inr (Or.inl hup))
  · rw [hnone]
    exact h.mono (Or.inr rfl) rfl (fun _ => id) (Or.inl rfl) (Or.inr (Or.inl hup))
  · rw [hparse]
    exact h.mono (Or.inl rfl) rfl (fun _ => id) (Or.inl rfl) (Or.inr (Or.inl hup))

/-- **What begins to be played** is of the current map. -/
theorem Own.scanNext (h : Own unzstd (g, s)) (hscan : s.main = .scan) (env : Env) :
    Own unzstd (g, scanNext env s) := by
  have hup : g.up = true := by
    by_contra hdown
    exact (h.idle (Bool.eq_false_iff.mpr hdown)).2 hscan
  unfold Threads.scanNext
  split
  · exact h.mono (Or.inl rfl) rfl (fun _ => id) (Or.inl rfl) (Or.inr (Or.inl hup))
  · rename_i entry hlast
    by_cases hc : (s.disk entry.filepath = none ∨ env.existsError = true) ∨
        s.mapname ≠ headerMap entry.header
    · rw [if_pos hc]
      exact h.mono (Or.inl rfl) rfl (fun _ hpb => List.dropLast_subset _ hpb) (Or.inl rfl)
        (Or.inl rfl)
    · rw [if_neg hc]
      rw [not_or, not_ne_iff] at hc
      refine ⟨fun pb hpb _ => ?_, fun pb hpb => absurd hpb List.not_mem_nil, h.parser, ?_⟩
      · obtain rfl := Option.some.inj hpb
        exact ⟨hup, hc.2.symm, h.data entry (List.mem_of_getLast? hlast)⟩
      · exact fun _ => ⟨Main.noConfusion, Main.noConfusion⟩

theorem Own.proceed (h : Own unzstd (g, s)) (dataDir : Bytes) (env : Env) :
    Own unzstd (g, proceed dataDir env s) := by
  unfold Threads.proceed
  split
  · exact h
  · exact h.mono (Or.inl rfl) rfl (fun _ hpb => List.mem_of_mem_filter hpb) (Or.inl rfl)
      (Or.inr (Or.inr ⟨Main.noConfusion, Main.noConfusion⟩))
  · rename_i mapname path _
    have hstop : Own unzstd (g, kzPbStopIfPlaying path s) := by
      unfold kzPbStopIfPlaying
      split_ifs
      · exact h.mono (Or.inr rfl) rfl (fun _ => id) (Or.inl rfl) (Or.inl rfl)
      · exact h
    exact hstop.mono (Or.inl rfl) rfl (fun _ => id) (Or.inl rfl)
      (Or.inr (Or.inr ⟨Main.noConfusion, Main.noConfusion⟩))
  · rename_i mapname _
    obtain ⟨q, hq⟩ := kzPbReloadSrBot_eq dataDir env mapname s
    rw [hq]
    exact h.mono (Or.inl rfl) rfl (fun _ => id) (Or.inl rfl)
      (Or.inr (Or.inr ⟨Main.noConfusion, Main.noConfusion⟩))
  · rename_i hlock
    refine h.mono (Or.inl rfl) rfl (fun _ => id) (Or.inl rfl) (Or.inr (Or.inl ?_))
    by_contra hdown
    exact (h.idle (Bool.eq_false_iff.mpr hdown)).1 hlock
  · rename_i hscan
    exact h.scanNext hscan env

/-- **A map change**: the frames go first. -/
theorem Own.deactivate (h : Own unzstd (g, s)) (hidle : s.main = .idle) :
    Own unzstd ({ g with up := false }, kzPbServerDeactivatePost s) where
  played pb hpb hne := by
    obtain ⟨pb', -, rfl⟩ := Option.map_eq_some_iff.mp hpb
    exact absurd rfl hne
  data pb hpb := absurd hpb List.not_mem_nil
  parser := h.parser
  idle _ := by
    change s.main ≠ .lock ∧ s.main ≠ .scan
    rw [hidle]
    exact ⟨Main.noConfusion, Main.noConfusion⟩

theorem Own.loadMap (h : Own unzstd (g, s)) (hdown : g.up = false) (mapname : Bytes) :
    Own unzstd ({ g with up := true }, { s with mapname := mapname }) where
  played pb hpb hne := by
    obtain ⟨hup, -⟩ := h.played pb hpb hne
    rw [hdown] at hup
    cases hup
  data := h.data
  parser := h.parser
  idle hup := by cases hup

/-- **One step of any thread.** -/
theorem Own.next (h : Own unzstd (g, s)) {e : Event} (he : Engine (g, s) e) (dataDir : Bytes) :
    Own unzstd (nextSeen dataDir unzstd (g, s) e) := by
  have hsame {s' : Pb} (hbot : s'.botData = s.botData) (hmap : s'.mapname = s.mapname)
      (hdata : s'.data = s.data) (hparser : s'.parser = s.parser)
      (hmain : s'.main = s.main ∨ g.up = true ∨ s'.main ≠ .lock ∧ s'.main ≠ .scan) :
      Own unzstd (g, s') :=
    h.mono (Or.inl hbot) hmap (fun _ hpb => hdata ▸ hpb) (Or.inl (by rw [hparser])) hmain
  unfold nextSeen withGhost
  dsimp only
  cases e with
  | read fails => exact h.readFront fails
  | check env => exact h.checkExists env
  | push => exact h.pushParsed
  | pop => exact h.popFront
  | deleteRecord mapname uid removed =>
    dsimp only [seen, Threads.next, Threads.begin]
    split_ifs
    · unfold kzWsDeleteRecordReplay
      split_ifs
      · exact h
      all_goals
        exact hsame rfl rfl rfl rfl (Or.inr (Or.inr ⟨Main.noConfusion, Main.noConfusion⟩))
    · exact h
  | frame env =>
    dsimp only [seen, Threads.next, Threads.begin]
    split_ifs
    · exact h.frame he dataDir env
    · exact h
  | proceed env => exact h.proceed dataDir env
  | deactivate =>
    dsimp only [seen, Threads.next, Threads.begin]
    split_ifs with hidle
    · exact h.deactivate hidle
    · exact h
  | loadMap mapname =>
    dsimp only [seen, Threads.next, Threads.begin]
    split_ifs
    · exact h.loadMap he mapname
    · exact h
  | parseFile env file =>
    dsimp only [seen, Threads.next, Threads.begin]
    split_ifs
    · obtain ⟨q, hq⟩ := kzPbParseFileAsync_eq env file s
      rw [hq]
      exact hsame rfl rfl rfl rfl (Or.inl rfl)
    · exact h
  | speed double =>
    dsimp only [seen, Threads.next, Threads.begin]
    split_ifs
    · refine ⟨fun pb hpb hne => ?_, h.data, h.parser, h.idle⟩
      obtain ⟨pb', hpb', rfl⟩ := Option.map_eq_some_iff.mp hpb
      exact h.played pb' hpb' hne
    · exact h
  | write file b => exact hsame rfl rfl rfl rfl (Or.inl rfl)
  | remove file => exact hsame rfl rfl rfl rfl (Or.inl rfl)

end Steps

/-- **The bot plays the map**, in every order of the steps of the parser thread and the main thread
and with any changes of the files between them: where what it plays has frames, header and frames
are those of the file at its path as it was read, and the header names the current map. -/
theorem own_map (dataDir : Bytes) (unzstd : Bytes → Option Bytes) (disk : Disk Path UInt8)
    (mapname : Bytes) {es : List Event}
    (hes : Along (nextSeen dataDir unzstd) Engine (⟨true, []⟩, .init disk mapname) es)
    {pb : KrpPlayback}
    (hpb : (run (next dataDir unzstd) (.init disk mapname) es).botData = some pb)
    (hne : pb.frames ≠ []) :
    headerMap pb.header = (run (next dataDir unzstd) (.init disk mapname) es).mapname ∧
      ∃ src, (pb.filepath, src) ∈
          (run (nextSeen dataDir unzstd) (⟨true, []⟩, .init disk mapname) es).1.reads ∧
        parsePlayback unzstd src = (pb.header, pb.frames) := by
  have hown : Own unzstd (run (nextSeen dataDir unzstd) (⟨true, []⟩, .init disk mapname) es) :=
    hes.run (fun gs e h he => h.next he dataDir) (own_init disk mapname)
  have hsnd : (run (nextSeen dataDir unzstd) (⟨true, []⟩, .init disk mapname) es).2 =
      run (next dataDir unzstd) (.init disk mapname) es := run_withGhost _ es
  obtain ⟨-, hmap, hread⟩ := hown.played pb (by rw [hsnd]; exact hpb) hne
  rw [hsnd] at hmap
  exact ⟨hmap, hread⟩

/-! ### A map change -/

section Sample

/-- The map changes, and its replay is written, parsed and played. -/
def sampleChange : List Event := .deactivate :: .loadMap (str "m") :: sampleBefore.take 9

theorem sampleChange_engine : Along (nextSeen (str "d") fun _ => some sampleBody) Engine
    (⟨true, []⟩, .init (fun _ => none) (str "x")) sampleChange :=
  ⟨trivial, rfl, trivial, trivial, trivial, trivial, trivial, trivial, rfl, trivial, trivial,
    trivial⟩

theorem own_map_sample :
    let s := run (next (str "d") fun _ => some sampleBody) (.init (fun _ => none) (str "x"))
      sampleChange
    s.playing = some samplePath ∧
      ∀ pb, s.botData = some pb → pb.frames ≠ [] → headerMap pb.header = s.mapname := by
  refine ⟨by decide +kernel, fun pb hpb hne => ?_⟩
  exact (own_map (str "d") (fun _ => some sampleBody) (fun _ => none) (str "x")
    sampleChange_engine hpb hne).1

end Sample

end KzGlobal.Playback.OwnMap
