import KzGlobal.Krp.Archive
import KzGlobal.Replay.Isolation
import KzGlobal.Replay.Reader

/-! # The writer's files are well formed

The writer keeps the captures of all players on one disk that the other threads change too. A file
that it made is at any moment the raw layout of a header and records: a record is never half
written or overwritten, since every open file is positioned at its end (`Recording`) and no two
players have the same file open. Each signal keeps this for its player's slot by a law of captures
(`validLaw`), on the paths that the other slots have not open, and leaves their files alone
(`next_frame`). So `krp::compress` refuses none of the writer's files (`writer_files_compress`).

The other threads may remove a file or replace it by a well-formed one, if no slot has it open. The
paths are not cut, for the data directory is not too long (`getLast?_tmpPath`). -/

namespace KzGlobal.Replay.WellFormed

open KzGlobal.Lib.Stdio KzGlobal.Lib.Runs KzGlobal.Lib.Loop KzGlobal.Krp.Format KzGlobal.Krp.Codec
  KzGlobal.Krp.Records KzGlobal.Krp.Compress KzGlobal.Krp.Roundtrip KzGlobal.Krp.Archive
  KzGlobal.Krp.Sections KzGlobal.Replay.Text KzGlobal.Replay.Writer KzGlobal.Replay.Paths
  KzGlobal.Replay.Headers KzGlobal.Replay.Effect KzGlobal.Replay.Laws KzGlobal.Replay.Reader
  KzGlobal.Replay.Isolation KzGlobal.Replay.Capture

/-! ### The writer among the other threads -/

/-- A signal of a player, or what another thread makes of the disk. -/
inductive Action (ι : Type)
  | signal (p : ι) (i : Input)
  | other (disk : Disk Bytes UInt8)

/-- The signal opens the capture of a player. -/
def Opens (i : Input) (sid : CString 35) : Prop :=
  ((∃ ts nick, i.signal = .start ts sid nick) ∨ i.signal = .unpause sid) ∧ Accepted i.env sid

/-- The captures and the saved runs. -/
def writerFiles (dataDir : Bytes) : Set Bytes :=
  tmpPaths dataDir ∪ {path | ∃ uid, path = (finishPath dataDir uid).take 254}

section Players
variable {ι : Type} [DecidableEq ι] (dataDir : Bytes)

/-- One action. -/
def act (w : WriterState ι) : Action ι → WriterState ι
  | .signal p i => process dataDir w (p, i)
  | .other disk => { w with disk }

/-- A player's entries and the disk. -/
def slot (w : WriterState ι) (p : ι) : Slot := ⟨w.entries p, w.disk⟩

/-- The player's slot has the file at the path open. -/
def IsOpen (w : WriterState ι) (p : ι) (path : Bytes) : Prop :=
  (w.entries p).fd.isSome = true ∧ (w.entries p).filepath = path

/-- No signal opens a capture that another player has open, and no other thread touches an open file
or leaves a file of the writer ill formed. -/
def Separate (w : WriterState ι) : Action ι → Prop
  | .signal p i => ∀ sid, Opens i sid → ∀ q, q ≠ p → ¬ IsOpen w q (openPath dataDir i.env sid)
  | .other disk => ∀ path ∈ writerFiles dataDir, disk path = w.disk path ∨
      (∀ q, ¬ IsOpen w q path) ∧ ∀ b, disk path = some b → ∃ h rs, b = krprOf h rs ∧ ValidHeader h

/-- The files of the writer are captures with valid headers. Every open one is positioned at its
end, and no two slots have the same one open. -/
structure Invariant (w : WriterState ι) : Prop where
  files : Files (writerFiles dataDir) (fun h _ => ValidHeader h) w.disk
  recording : ∀ p, (w.entries p).fd.isSome = true →
    (∃ h rs, Recording (slot w p) h rs) ∧ (w.entries p).filepath ∈ tmpPaths dataDir
  distinct : ∀ p q path, IsOpen w p path → IsOpen w q path → p = q

end Players

/-! ### Paths are not cut -/

theorem length_joinPath_le (dir name : Bytes) :
    (joinPath dir name).length ≤ dir.length + 1 + name.length := by
  unfold joinPath
  split_ifs
  · omega
  · rw [List.length_append]
    omega
  · rw [List.length_append, List.length_cons]
    omega

theorem length_replaysDir_le (dataDir : Bytes) :
    (replaysDir dataDir).length ≤ dataDir.length + 18 := by
  have h := length_joinPath_le (joinPath dataDir (str "kz_global")) (str "replays")
  have h' := length_joinPath_le dataDir (str "kz_global")
  have hg : (str "kz_global").length = 9 := by decide
  have hr : (str "replays").length = 7 := by decide
  unfold replaysDir
  omega

section Uncut
variable {dataDir : Bytes} (hdir : dataDir.length ≤ 132)
include hdir

theorem getLast?_tmpPath {path : Bytes} (h : path ∈ tmpPaths dataDir) :
    path.getLast? = some 112 := by
  obtain ⟨env, sid, -, rfl⟩ := h
  have hmap : (mapName env.header.header).length ≤ 64 :=
    (List.takeWhile_sublist _).length_le.trans_eq (KrpHeader.length_get _ .mapName)
  have hlen : (joinPath (joinPath (replaysDir dataDir) (mapName env.header.header)) sid.bytes ++
      str ".tmp").length ≤ 254 := by
    have h1 := length_joinPath_le (joinPath (replaysDir dataDir) (mapName env.header.header))
      sid.bytes
    have h2 := length_joinPath_le (replaysDir dataDir) (mapName env.header.header)
    have h3 := length_replaysDir_le dataDir
    have h4 := sid.fits
    have h5 : (str ".tmp").length = 4 := by decide
    rw [List.length_append]
    omega
  rw [openPath, tmpPath, List.take_of_length_le hlen, List.getLast?_append_of_ne_nil _ (by decide)]
  rfl

theorem getLast?_saved {s : Slot} {i : Input} {uid path : Bytes}
    (h : .saved uid path ∈ (step dataDir s i).2) : path.getLast? = some 114 := by
  obtain ⟨timeMs, -, charPrefix, sid, -, ts, -, -, rfl, rfl⟩ := Uid.uid_of_saved h
  have hlen : (finishPath dataDir (Uid.finishUid s i timeMs charPrefix sid ts)).length ≤ 254 := by
    have h1 := length_joinPath_le (replaysDir dataDir) (Uid.finishUid s i timeMs charPrefix sid ts)
    have h2 := length_replaysDir_le dataDir
    have h3 : (Uid.finishUid s i timeMs charPrefix sid ts).length ≤ 63 :=
      Saves.length_uidStr_le ..
    have h4 : (str ".krpr").length = 5 := by decide
    rw [finishPath, replaceExtension, List.length_append, List.length_take]
    omega
  rw [List.take_of_length_le hlen, finishPath, getLast?_replaceExtension _ _ (by decide)]
  rfl

end Uncut

/-! ### One signal -/

/-- Every header is valid. -/
def validLaw : Law Unit where
  tick _ _ _ := ()
  closed _ h _ := ValidHeader h
  opened _ _ h _ := ValidHeader h

theorem validLaw_lawful (dataDir : Bytes) (D : Set Bytes) : validLaw.Lawful dataDir D
    fun _ i => ∀ sid, Opens i sid → openPath dataDir i.env sid ∈ D where
  keep _ _ _ hc := hc
  idle _ _ _ _ ho := ho
  domain hC hs ha := hC _ ⟨hs, ha⟩
  start _ _ ha := startHeader_valid _ _ _ ha.2
  unpause _ _ _ hc := hc
  event _ _ _ ho := ho
  frame _ _ _ ho := ho
  pause _ _ _ ho := runHeader_valid.mpr ho
  abandon _ _ _ ho := ho
  finish _ _ _ ho := finishHeader_valid.mpr ho

theorem holds_files {D : Set Bytes} {s : Slot} (h : validLaw.Holds D () s) :
    Files D (fun h _ => ValidHeader h) s.disk := by
  rcases h with ⟨-, hf⟩ | ⟨hr, -, ho, hf⟩
  · exact hf
  · exact hf.insert hr.disk ho

theorem rename_frame {d d' : Disk Bytes UInt8} {p q r : Bytes} (h : d.rename p q = some d')
    (hp : r ≠ p) (hq : r ≠ q) : d' r = d r := by
  obtain ⟨b, -, rfl⟩ := Option.map_eq_some_iff.mp h
  split_ifs
  · rfl
  · rw [Disk.store_of_ne _ hq, Disk.unlink_of_ne _ hp]

section Frame
variable {dataDir : Bytes} {s : Slot} {i : Input} {q : Bytes}

theorem onStart_frame {ts : ℕ} {sid : CString 35} {nick : CString 32}
    (hopen : Accepted i.env sid → q ≠ openPath dataDir i.env sid) :
    (onStart dataDir i.env ts sid nick s).disk q = s.disk q := by
  by_cases ha : Accepted i.env sid
  · rw [onStart_accepted dataDir ha]
    split_ifs
    · exact Disk.store_of_ne _ (hopen ha) _
    · rfl
  · rw [onStart_refused dataDir ha]

theorem onUnpause_frame {sid : CString 35}
    (hopen : Accepted i.env sid → q ≠ openPath dataDir i.env sid) :
    (onUnpause dataDir i.env sid s).disk q = s.disk q := by
  by_cases ha : Accepted i.env sid
  · unfold onUnpause
    rw [if_neg (not_accepted.not.mp (not_not.mpr ha))]
    dsimp only
    split
    · exact Disk.store_of_ne _ (hopen ha) _
    · rfl
  · rw [onUnpause_refused dataDir ha]

/-- **A signal changes no file** but the open one, the one it opens and the one it saves. -/
theorem next_frame (hrec : s.fd.isSome = true → ∃ h rs, Recording s h rs)
    (hfile : s.fd.isSome = true → q ≠ s.filepath)
    (hopen : ∀ sid, Opens i sid → q ≠ openPath dataDir i.env sid)
    (hsaved : ∀ uid path, .saved uid path ∈ (step dataDir s i).2 → q ≠ path) :
    (next dataDir s i).disk q = s.disk q := by
  unfold next
  unfold step at hsaved ⊢
  rcases hs : i.signal with f | id | ⟨ts, sid, nick⟩ | _ | sid | del | ⟨t, sub, cp, sid, nick⟩
  case start => exact onStart_frame fun ha => hopen sid ⟨Or.inl ⟨ts, nick, hs⟩, ha⟩
  case unpause => exact onUnpause_frame fun ha => hopen sid ⟨Or.inr hs, ha⟩
  all_goals
    rcases hfd : s.fd with _ | fd
  case frame.none => simp only [onFrame, hfd]
  case event.none => simp only [onEvent, hfd, countEvent_eq]
  case pause.none => simp only [onPause, hfd]
  case reject.none => simp [onReject_eq, hfd]
  case finish.none => simp only [onFinish_none hfd]
  all_goals
    have hsome : s.fd.isSome = true := by rw [hfd]; rfl
    obtain ⟨h, rs, hr⟩ := hrec hsome
    have hne := hfile hsome
  · simp only [onFrame_eq hr]
    exact Disk.store_of_ne _ hne _
  · simp only [onEvent_eq hr, countEvent_eq]
    exact Disk.store_of_ne _ hne _
  · simp only [onPause_eq hr]
    exact Disk.store_of_ne _ hne _
  · simp only [onReject_eq]
    split_ifs
    · exact Disk.unlink_of_ne _ hne
    · rfl
  · rw [hs] at hsaved
    by_cases hv : kzWsValidReplaySegment sid.bytes = true ∧
      kzWsValidReplaySegment (fileName h) = true
    · simp only [onFinish_accepted hr hv] at hsaved ⊢
      split at hsaved
      · rename_i disk hren hok
        exact (rename_frame hren hne (hsaved _ _ List.mem_cons_self)).trans
          (Disk.store_of_ne _ hne _)
      · exact Disk.store_of_ne _ hne _
    · simp only [onFinish_refused hr hv]
      exact Disk.unlink_of_ne _ hne

end Frame

/-! ### One action -/

section Step
variable {ι : Type} {dataDir : Bytes} {w : WriterState ι} {p : ι} {i : Input}

theorem other_invariant {disk : Disk Bytes UInt8} (hI : Invariant dataDir w)
    (hA : Separate dataDir w (.other disk)) : Invariant dataDir { w with disk } where
  files path hpath b hb := by
    rcases hA path hpath with he | ⟨-, hwell⟩
    · exact hI.files path hpath b (he ▸ hb)
    · exact hwell b hb
  recording p h := by
    obtain ⟨⟨hd, rs, hr⟩, hpath⟩ := hI.recording p h
    refine ⟨⟨hd, rs, hr.fd, ?_⟩, hpath⟩
    rcases hA _ (Or.inl hpath) with he | ⟨hno, -⟩
    · exact he.trans hr.disk
    · exact (hno p ⟨h, rfl⟩).elim
  distinct := hI.distinct

/-- The paths that the slots of the other players have open. -/
def others (w : WriterState ι) (p : ι) : Set Bytes := {path | ∃ q, q ≠ p ∧ IsOpen w q path}

/-- **A signal keeps its player's slot lawful** on the paths that no other slot has open. -/
theorem holds_next (hI : Invariant dataDir w) (hA : Separate dataDir w (.signal p i))
    {E : Set Bytes} (htmp : tmpPaths dataDir ⊆ E) (hE : E ⊆ writerFiles dataDir) :
    validLaw.Holds (E \ others w p) () (next dataDir (slot w p) i) := by
  have hC : ∀ sid, Opens i sid → openPath dataDir i.env sid ∈ E \ others w p :=
    fun sid ho => ⟨htmp ⟨i.env, sid, ho.2, rfl⟩, fun ⟨q, hq, hopen⟩ => hA sid ho q hq hopen⟩
  have hfiles : Files (E \ others w p) (fun h _ => ValidHeader h) (slot w p).disk :=
    hI.files.subset (Set.sdiff_subset.trans hE)
  refine (validLaw_lawful dataDir _).step (g := ()) hC ?_
  rcases hfd : (slot w p).fd with _ | fd
  · exact .closed hfd hfiles
  · have hsome : (w.entries p).fd.isSome = true := Option.isSome_of_eq_some hfd
    obtain ⟨⟨h, rs, hr⟩, hpath⟩ := hI.recording p hsome
    obtain ⟨h', rs', he, hv⟩ := hI.files _ (hE (htmp hpath)) _ hr.disk
    obtain ⟨rfl, rfl⟩ := krprOf_inj he
    refine .opened hr ⟨htmp hpath, ?_⟩ hv (hfiles.subset Set.sdiff_subset)
    rintro ⟨q, hq, hopen⟩
    exact hq (hI.distinct q p _ hopen ⟨hsome, rfl⟩)

variable [DecidableEq ι]

theorem process_eq (w : WriterState ι) (p : ι) (i : Input) : process dataDir w (p, i) =
    ⟨Function.update w.entries p (next dataDir (slot w p) i).toEntries,
      (next dataDir (slot w p) i).disk⟩ := rfl

theorem entries_process_self : (process dataDir w (p, i)).entries p =
    (next dataDir (slot w p) i).toEntries := by
  rw [process_eq]
  exact Function.update_self ..

theorem slot_process_self : slot (process dataDir w (p, i)) p = next dataDir (slot w p) i :=
  congrArg (Slot.mk · (next dataDir (slot w p) i).disk) entries_process_self

theorem entries_process_of_ne {q : ι} (h : q ≠ p) :
    (process dataDir w (p, i)).entries q = w.entries q := by
  rw [process_eq]
  exact Function.update_of_ne h ..

theorem disk_process_others (hdir : dataDir.length ≤ 132) (hI : Invariant dataDir w)
    (hA : Separate dataDir w (.signal p i)) {path : Bytes} (ho : path ∈ others w p) :
    (process dataDir w (p, i)).disk path = w.disk path := by
  obtain ⟨q, hq, hopen⟩ := ho
  refine next_frame (fun h => (hI.recording p h).1) ?_ ?_ ?_
  · rintro h rfl
    exact hq (hI.distinct q p _ hopen ⟨h, rfl⟩)
  · rintro sid hs rfl
    exact hA sid hs q hq hopen
  · rintro uid _ hs rfl
    -- a capture ends in `p`, and a saved run in `r`
    have hp := getLast?_tmpPath hdir (hopen.2 ▸ (hI.recording q hopen.1).2)
    rw [getLast?_saved hdir hs] at hp
    cases hp

theorem signal_invariant (hdir : dataDir.length ≤ 132) (hI : Invariant dataDir w)
    (hA : Separate dataDir w (.signal p i)) :
    Invariant dataDir (process dataDir w (p, i)) := by
  have hnext := holds_next hI hA Set.subset_union_left subset_rfl
  have hself (h : (next dataDir (slot w p) i).fd.isSome = true) :
      (next dataDir (slot w p) i).filepath ∈ tmpPaths dataDir \ others w p := by
    rcases holds_next hI hA subset_rfl Set.subset_union_left with ⟨hn, -⟩ | ⟨-, hD, -, -⟩
    · rw [hn] at h
      cases h
    · exact hD
  constructor
  case files =>
    intro path hpath b hb
    by_cases ho : path ∈ others w p
    · rw [disk_process_others hdir hI hA ho] at hb
      exact hI.files path hpath b hb
    · exact holds_files hnext path ⟨hpath, ho⟩ b hb
  case recording =>
    intro q h
    rcases eq_or_ne q p with rfl | hq
    · rw [slot_process_self, entries_process_self]
      rw [entries_process_self] at h
      obtain ⟨hd, rs, hr, -⟩ := hnext.recording h
      exact ⟨⟨hd, rs, hr⟩, (hself h).1⟩
    · rw [entries_process_of_ne hq] at h ⊢
      obtain ⟨⟨hd, rs, hr⟩, hpath⟩ := hI.recording q h
      refine ⟨⟨hd, rs, ?_⟩, hpath⟩
      rw [slot, entries_process_of_ne hq]
      exact ⟨hr.fd, (disk_process_others hdir hI hA ⟨q, hq, h, rfl⟩).trans hr.disk⟩
  case distinct =>
    -- the player's file is none that another slot has open
    have hdist : ∀ q path, q ≠ p → IsOpen (process dataDir w (p, i)) q path →
        ¬ IsOpen (process dataDir w (p, i)) p path := by
      rintro q path hq hopen ⟨hsome, rfl⟩
      rw [IsOpen, entries_process_of_ne hq] at hopen
      rw [entries_process_self] at hsome hopen
      exact (hself hsome).2 ⟨q, hq, hopen⟩
    intro q r path hopen hopen'
    rcases eq_or_ne q p with rfl | hq
    · by_contra hr
      exact hdist r path (Ne.symm hr) hopen' hopen
    · rcases eq_or_ne r p with rfl | hr
      · exact (hdist q path hq hopen hopen').elim
      · rw [IsOpen, entries_process_of_ne hq] at hopen
        rw [IsOpen, entries_process_of_ne hr] at hopen'
        exact hI.distinct q r path hopen hopen'

/-- **An action keeps the invariant.** -/
theorem act_invariant (hdir : dataDir.length ≤ 132) {w : WriterState ι} {a : Action ι}
    (hI : Invariant dataDir w) (hA : Separate dataDir w a) :
    Invariant dataDir (act dataDir w a) := by
  cases a with
  | signal p i => exact signal_invariant hdir hI hA
  | other disk => exact other_invariant hI hA

end Step

/-! ### Runs -/

/-- What `krp::compress` makes of a raw layout under a valid header: it refuses none by itself. -/
theorem compress_krprOf (z : Zstd) {h : KrpHeader} {rs : List Record} (hv : ValidHeader h) :
    compress z (krprOf h rs) =
      match z.compress (krpzOf h rs) with
      | none => .error (.error .zstdError)
      | some out => .ok out := by
  have hval : validateHeader (krprOf h rs) = .ok () := validateHeader_eq_ok.mpr ⟨h, _, rfl, hv⟩
  rcases hc : z.compress (krpzOf h rs) with _ | out
  · rw [compress, hval, ok_bind, buildKrpzBody_krprOf, ok_bind, hc]
  · rw [compress, hval, ok_bind, buildKrpzBody_krprOf, ok_bind, hc]

/-- **Whatever the signals and the other threads do**, the files of the writer are raw layouts under
valid headers, which `krp::compress` does not refuse; the open ones are positioned at their ends,
and no two players have the same one open. -/
theorem writer_files_compress {ι : Type} [DecidableEq ι] {dataDir : Bytes}
    (hdir : dataDir.length ≤ 132) {disk : Disk Bytes UInt8}
    (hdisk : Files (writerFiles dataDir) (fun h _ => ValidHeader h) disk) {as : List (Action ι)}
    (hA : Along (act dataDir) (Separate dataDir) (.init disk) as) :
    (∀ path ∈ writerFiles dataDir, ∀ b, (run (act dataDir) (.init disk) as).disk path = some b →
      ∃ h rs, b = krprOf h rs ∧ ValidHeader h ∧ ∀ z : Zstd, compress z b =
        match z.compress (krpzOf h rs) with
        | none => .error (.error .zstdError)
        | some out => .ok out) ∧
    (∀ p fd, ((run (act dataDir) (.init disk) as).entries p).fd = some fd →
      ∃ b, (run (act dataDir) (.init disk) as).disk fd.path = some b ∧ fd.pos = b.length) ∧
    ∀ p q fd fd', ((run (act dataDir) (.init disk) as).entries p).fd = some fd →
      ((run (act dataDir) (.init disk) as).entries q).fd = some fd' →
      fd.path = fd'.path → p = q := by
  have hI : Invariant dataDir (run (act dataDir) (.init disk) as) := by
    refine Along.run (fun w a hw ha => act_invariant hdir hw ha) hA ⟨hdisk, ?_, ?_⟩
    · intro p h
      cases h
    · rintro p q path ⟨h, -⟩ -
      cases h
  have hopen : ∀ p fd, ((run (act dataDir) (.init disk) as).entries p).fd = some fd →
      fd.path = ((run (act dataDir) (.init disk) as).entries p).filepath ∧
        ∃ b, (run (act dataDir) (.init disk) as).disk fd.path = some b ∧ fd.pos = b.length := by
    intro p fd hfd
    obtain ⟨⟨h, rs, hr⟩, -⟩ := hI.recording p (Option.isSome_of_eq_some hfd)
    obtain rfl := Option.some.inj (hfd.symm.trans hr.fd)
    exact ⟨rfl, _, hr.disk, rfl⟩
  refine ⟨fun path hpath b hb => ?_, fun p fd hfd => (hopen p fd hfd).2, ?_⟩
  · obtain ⟨h, rs, rfl, hv⟩ := hI.files path hpath b hb
    exact ⟨h, rs, rfl, hv, fun z => compress_krprOf z hv⟩
  · intro p q fd fd' hfd hfd' he
    refine hI.distinct p q fd.path ⟨Option.isSome_of_eq_some hfd, (hopen p fd hfd).1.symm⟩ ?_
    exact ⟨Option.isSome_of_eq_some hfd', (he.trans (hopen q fd' hfd').1).symm⟩

/-- A second player. -/
def otherPlayer : CString 35 := ⟨str "0124", by decide, by decide⟩

/-- Two players record at the same time, and one of them finishes. -/
def sampleActions : List (Action Bool) :=
  [.signal true sampleStart, .signal false (sampleInput (.start 37 otherPlayer sampleNickname)),
    .signal true (sampleInput (.frame (sampleFrame 1))),
    .signal false (sampleInput (.frame (sampleFrame 2))), .signal true sampleFinish]

theorem separate_of_not_opens {ι : Type} {dataDir : Bytes} {w : WriterState ι} {p : ι} {i : Input}
    (hs : ∀ ts sid nick, i.signal ≠ .start ts sid nick) (hu : ∀ sid, i.signal ≠ .unpause sid) :
    Separate dataDir w (.signal p i) := by
  rintro sid ⟨⟨ts, nick, h⟩ | h, -⟩
  · exact (hs ts sid nick h).elim
  · exact (hu sid h).elim

theorem sampleActions_separate :
    Along (act (str "d")) (Separate (str "d")) (.init fun _ => none) sampleActions := by
  refine ⟨?_, ?_, separate_of_not_opens ?_ ?_, separate_of_not_opens ?_ ?_,
    separate_of_not_opens ?_ ?_, trivial⟩
  · rintro sid - q - ⟨h, -⟩
    cases h
  · -- the capture of the first player is open
    rintro sid ⟨⟨ts, nick, h⟩ | h, -⟩ q hq ⟨-, hpath⟩
    · obtain rfl : otherPlayer = sid := (Signal.start.inj h).2.1
      obtain rfl : q = true := by simpa using hq
      exact absurd hpath (by decide +kernel)
    · cases h
  all_goals
    intros
    intro h
    cases h

/-- What the run saves. -/
def sampleSaved : Bytes := str "d/kz_global/replays/0_00012345_0123_10.krpr"

theorem sampleSaved_mem : sampleSaved ∈ writerFiles (str "d") :=
  .inr ⟨str "0_00012345_0123_10", by decide +kernel⟩

theorem writer_files_compress_sample : ∃ b h rs,
    (run (act (str "d")) (.init fun _ => none) sampleActions).disk sampleSaved = some b ∧
    b = krprOf h rs ∧ ValidHeader h ∧ ∃ out, compress storedZstd b = .ok out := by
  have hsaved : ((run (act (str "d")) (.init fun _ => none) sampleActions).disk sampleSaved).any
      (fun b => b.length ≤ 2 ^ 17) = true := by decide +kernel
  obtain ⟨b, hb, hlen⟩ := (Option.any_eq_true _ _).mp hsaved
  obtain ⟨h, rs, rfl, hv, hcompress⟩ :=
    (writer_files_compress (by decide) (fun _ _ _ h => by cases h) sampleActions_separate).1
      sampleSaved sampleSaved_mem b hb
  have hsmall : (krpzOf h rs).length ≤ 2 ^ 17 := by
    rw [length_krpzOf h h]
    exact of_decide_eq_true hlen
  obtain ⟨out, hout⟩ := storedZstd_of_le hsmall
  refine ⟨krprOf h rs, h, rs, hb, rfl, hv, out, ?_⟩
  rw [hcompress, hout]

end KzGlobal.Replay.WellFormed
