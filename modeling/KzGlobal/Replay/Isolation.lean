import KzGlobal.Replay.Capture
import KzGlobal.Replay.Uid

/-! # Players do not interfere

The writer keeps the entries of every player and works on one disk. A signal reads and writes only
the files of its player: the capture, and the runs that are named after the player (`step_follows`).
These files are different for different players (`replayFiles_disjoint`), so in whatever order the
signals of the players come, each player's entries and files are those that the player's own signals
make (`players_do_not_interfere`). -/

namespace KzGlobal.Replay.Isolation

open KzGlobal.Lib.Stdio KzGlobal.Lib.Runs KzGlobal.Krp.Format KzGlobal.Replay.Text
  KzGlobal.Replay.Writer
  KzGlobal.Replay.Paths KzGlobal.Replay.Saves KzGlobal.Replay.Uid

/-! ### All players -/

/-- The static arrays of `kz_rp_writer_thread`, and the disk. -/
structure WriterState (ι : Type) where
  entries : ι → Entries
  disk : Disk Bytes UInt8

section Players
variable {ι : Type} [DecidableEq ι] (dataDir : Bytes)

/-- What the thread begins with. -/
def WriterState.init (disk : Disk Bytes UInt8) : WriterState ι := ⟨fun _ => .init, disk⟩

/-- A signal of a player. -/
def process (w : WriterState ι) (x : ι × Input) : WriterState ι :=
  let s := Writer.next dataDir ⟨w.entries x.1, w.disk⟩ x.2
  ⟨Function.update w.entries x.1 s.toEntries, s.disk⟩

/-- The signals of one player. -/
def alone (p : ι) (es : List (ι × Input)) : List Input := (es.filter fun x => x.1 = p).map Prod.snd

end Players

/-- The player in a signal. -/
def steamidShort : Signal → Option (CString 35)
  | .start _ steamidShort _ => some steamidShort
  | .unpause steamidShort => some steamidShort
  | .finish _ _ _ steamidShort _ => some steamidShort
  | _ => none

/-- The signal is one of the player, and finds the header of the map. -/
def OfPlayer (header : ServerHeader) (sid : CString 35) (i : Input) : Prop :=
  i.env.header = header ∧ ∀ sid' ∈ steamidShort i.signal, sid' = sid

section Files
variable (dataDir : Bytes)

/-- The capture of a player, and the runs that are named after the player. -/
def replayFiles (header : ServerHeader) (sid : CString 35) : Set Bytes :=
  {path | path = tmpPath dataDir (mapName header.header) sid.bytes ∨
    ∃ gochecks timeMs ts noSubmit charPrefix,
    path = finishPath dataDir (uidStr gochecks timeMs sid.bytes ts noSubmit charPrefix)}

/-- The path of a run that the signal saves is not cut. -/
def Whole (s : Slot) (i : Input) : Prop :=
  ∀ uid path, .saved uid path ∈ (step dataDir s i).2 → path = finishPath dataDir uid

/-- The players: their ids are different and valid and have no dot, and the paths of their captures
are not cut. -/
structure Players {ι : Type} (header : ServerHeader) (sid : ι → CString 35) : Prop where
  distinct : ∀ p q, (sid p).bytes = (sid q).bytes → p = q
  valid : ∀ p, kzWsValidReplaySegment (sid p).bytes = true
  no_dot : ∀ p, (46 : UInt8) ∉ (sid p).bytes
  whole : ∀ p, tmpPath dataDir (mapName header.header) (sid p).bytes =
    joinPath (joinPath (replaysDir dataDir) (mapName header.header)) (sid p).bytes ++ str ".tmp"

end Files

/-! ### The files of different players -/

theorem joinPath_inj {dir a b : Bytes} (ha : (47 : UInt8) ∉ a) (hb : (47 : UInt8) ∉ b)
    (h : joinPath dir a = joinPath dir b) : a = b := by
  have hhead {c : Bytes} (hc : (47 : UInt8) ∉ c) : ¬ c.head? = some 47 :=
    fun hh => hc (List.mem_of_head? hh)
  unfold joinPath at h
  rw [if_neg (hhead ha), if_neg (hhead hb)] at h
  split_ifs at h
  · exact List.append_cancel_left h
  · exact (List.cons.inj (List.append_cancel_left h)).2

/-- **Different players have different files.** -/
theorem replayFiles_disjoint {ι : Type} {dataDir : Bytes} {header : ServerHeader}
    {sid : ι → CString 35} (h : Players dataDir header sid) {p q : ι} (hpq : p ≠ q) {path : Bytes}
    (hp : path ∈ replayFiles dataDir header (sid p)) :
    path ∉ replayFiles dataDir header (sid q) := by
  have hlen (r : ι) : (sid r).bytes.length ≤ 34 := Nat.le_of_lt_succ (sid r).fits
  have htmp (r : ι) : (tmpPath dataDir (mapName header.header) (sid r).bytes).getLast? =
      some 112 := by
    rw [h.whole, List.getLast?_append_of_ne_nil _ (by decide)]
    rfl
  have hrun (uid : Bytes) : (finishPath dataDir uid).getLast? = some 114 :=
    getLast?_replaceExtension _ _ (by decide)
  rintro (hq | ⟨gochecks', timeMs', ts', noSubmit', charPrefix', hq⟩)
  · rcases hp with hp | ⟨gochecks, timeMs, ts, noSubmit, charPrefix, hp⟩
    · -- two captures
      rw [hp, h.whole, h.whole] at hq
      have hsid := joinPath_inj (no_slash_of_segment (h.valid p)) (no_slash_of_segment (h.valid q))
        (List.append_cancel_right hq)
      exact hpq (h.distinct p q hsid)
    · have hlast := congrArg List.getLast? (hp.symm.trans hq)
      rw [hrun, htmp] at hlast
      cases hlast
  · rcases hp with hp | ⟨gochecks, timeMs, ts, noSubmit, charPrefix, hp⟩
    · have hlast := congrArg List.getLast? (hp.symm.trans hq)
      rw [hrun, htmp] at hlast
      cases hlast
    · -- two runs
      have heq := hp.symm.trans hq
      rw [uidStr_form _ _ _ (hlen p), uidStr_form _ _ _ (hlen q)] at heq
      exact hpq (h.distinct p q (finishPath_player (h.valid p) (h.valid q) (h.no_dot p)
        (h.no_dot q) heq))

/-! ### What a signal does on a larger disk -/

/-- Two disks with the same files at some paths, the first of which has changed nothing else of a
third one. -/
structure Follows (D : Set Bytes) (d e e' : Disk Bytes UInt8) : Prop where
  agree : ∀ q ∈ D, e' q = e q
  frame : ∀ q ∉ D, e' q = d q

section Follows
variable {D : Set Bytes} {d d' : Disk Bytes UInt8} {p q : Bytes}

theorem Follows.refl (h : ∀ q ∈ D, d' q = d q) : Follows D d' d d' := ⟨h, fun _ _ => rfl⟩

theorem Follows.store {e e' : Disk Bytes UInt8} (h : Follows D d e e') (hp : p ∈ D) (b : Bytes) :
    Follows D d (e.store p b) (e'.store p b) where
  agree q hq := by
    rcases eq_or_ne q p with rfl | hne
    · rw [Disk.store_self, Disk.store_self]
    · rw [Disk.store_of_ne _ hne, Disk.store_of_ne _ hne]
      exact h.agree q hq
  frame q hq := by
    have hne : q ≠ p := fun he => hq (he ▸ hp)
    rw [Disk.store_of_ne _ hne]
    exact h.frame q hq

theorem Follows.unlink {e e' : Disk Bytes UInt8} (h : Follows D d e e') (hp : p ∈ D) :
    Follows D d (e.unlink p) (e'.unlink p) where
  agree q hq := by
    rcases eq_or_ne q p with rfl | hne
    · rw [Disk.unlink_self, Disk.unlink_self]
    · rw [Disk.unlink_of_ne _ hne, Disk.unlink_of_ne _ hne]
      exact h.agree q hq
  frame q hq := by
    have hne : q ≠ p := fun he => hq (he ▸ hp)
    rw [Disk.unlink_of_ne _ hne]
    exact h.frame q hq

theorem Follows.rename_none {e e' : Disk Bytes UInt8} (h : Follows D d e e') (hp : p ∈ D)
    (hnone : e.rename p q = none) : e'.rename p q = none := by
  rw [Disk.rename, Option.map_eq_none_iff] at hnone ⊢
  rw [h.agree p hp, hnone]

theorem Follows.rename {e e' r : Disk Bytes UInt8} (h : Follows D d e e') (hp : p ∈ D) (hq : q ∈ D)
    (hr : e.rename p q = some r) : ∃ r', e'.rename p q = some r' ∧ Follows D d r r' := by
  unfold Disk.rename at hr ⊢
  obtain ⟨b, hb, hren⟩ := Option.map_eq_some_iff.mp hr
  rw [h.agree p hp, hb]
  refine ⟨_, rfl, ?_⟩
  rw [← hren]
  split_ifs
  · exact h
  · exact (h.unlink hp).store hq b

end Follows

/-- The open file of a player and its path are among some paths. -/
def Points (D : Set Bytes) (s : Slot) : Prop := ∀ fd, s.fd = some fd → fd.path ∈ D ∧ s.filepath ∈ D

theorem points_some {D : Set Bytes} {s : Slot} {fd : Handle} (hfd : s.fd = some fd)
    (hpath : fd.path ∈ D) (hfile : s.filepath ∈ D) : Points D s := by
  intro fd' hfd'
  rw [← Option.some.inj (hfd.symm.trans hfd')]
  exact ⟨hpath, hfile⟩

theorem points_none {D : Set Bytes} {s : Slot} (hfd : s.fd = none) : Points D s := by
  intro fd hfd'
  rw [hfd] at hfd'
  cases hfd'

/-- What a signal makes of a slot, and of the slot on a larger disk: the same entries, and the same
files of the player. -/
def Alike (D : Set Bytes) (d : Disk Bytes UInt8) (s s' : Slot) : Prop :=
  Points D s ∧ ∃ e', s' = { s with disk := e' } ∧ Follows D d s.disk e'

theorem Alike.refl {D : Set Bytes} {d : Disk Bytes UInt8} {s : Slot} (hs : Points D s)
    (hd : ∀ q ∈ D, d q = s.disk q) :
    Alike D d s { s with disk := d } := ⟨hs, d, rfl, .refl hd⟩

section Signals
variable {D : Set Bytes} {d : Disk Bytes UInt8} {s s' : Slot}

theorem Alike.file (h : Alike D d s s') {fd : Handle} (hfd : fd.path ∈ D) :
    s'.file fd = s.file fd := by
  obtain ⟨-, e', rfl, hf⟩ := h
  unfold Slot.file
  dsimp only
  rw [hf.agree _ hfd]

theorem Alike.sync (h : Alike D d s s') {fd : Handle} (hfd : fd.path ∈ D) (hpath : s.filepath ∈ D)
    (fp : File) :
    Alike D d (s.sync fd fp) (s'.sync fd fp) := by
  obtain ⟨-, e', rfl, hf⟩ := h
  exact ⟨points_some rfl hfd hpath, _, rfl, hf.store hfd fp.bytes⟩

theorem Alike.close (h : Alike D d s s') :
    Alike D d { s with fd := none } { s' with fd := none } := by
  obtain ⟨-, e', rfl, hf⟩ := h
  exact ⟨points_none rfl, e', rfl, hf⟩

theorem alike_onStart (h : Alike D d s s') (dataDir : Bytes) (env : Env) (ts : ℕ) (sid : CString 35)
    (nickname : CString 32) (htmp : tmpPath dataDir (mapName env.header.header) sid.bytes ∈ D) :
    Alike D d (onStart dataDir env ts sid nickname s) (onStart dataDir env ts sid nickname s') := by
  obtain ⟨-, e', rfl, hf⟩ := h
  unfold onStart
  dsimp only
  split_ifs
  · exact ⟨points_none rfl, e', rfl, hf⟩
  · exact ⟨points_some rfl htmp htmp, _, rfl, hf.store htmp _⟩
  · exact ⟨points_none rfl, e', rfl, hf⟩

theorem alike_countEvent (h : Alike D d s s') (id : UInt8) :
    Alike D d (countEvent id s) (countEvent id s') := by
  obtain ⟨hs, e', rfl, hf⟩ := h
  unfold countEvent
  split_ifs
  · exact ⟨hs, e', rfl, hf⟩
  · exact ⟨hs, e', rfl, hf⟩
  · exact ⟨hs, e', rfl, hf⟩

theorem Alike.fd (h : Alike D d s s') : s'.fd = s.fd := by
  obtain ⟨-, e', rfl, -⟩ := h
  rfl

theorem alike_onEvent (h : Alike D d s s') (id : UInt8) :
    Alike D d (onEvent id s) (onEvent id s') := by
  unfold onEvent
  rw [h.fd]
  rcases hfd : s.fd with _ | fd
  · exact alike_countEvent h id
  · obtain ⟨hpath, hfile⟩ := h.1 fd hfd
    dsimp only
    rw [h.file hpath]
    exact alike_countEvent (h.sync hpath hfile _) id

theorem alike_onFrame (h : Alike D d s s') (f : KrpFrame) :
    Alike D d (onFrame f s) (onFrame f s') := by
  unfold onFrame
  rw [h.fd]
  rcases hfd : s.fd with _ | fd
  · exact h
  · obtain ⟨hpath, hfile⟩ := h.1 fd hfd
    dsimp only
    rw [h.file hpath]
    obtain ⟨-, e', rfl, hf⟩ := h
    exact ⟨points_some rfl hpath hfile, _, rfl, hf.store hpath _⟩

theorem alike_onPause (h : Alike D d s s') : Alike D d (onPause s) (onPause s') := by
  unfold onPause
  rw [h.fd]
  rcases hfd : s.fd with _ | fd
  · exact h
  · obtain ⟨hpath, hfile⟩ := h.1 fd hfd
    dsimp only
    rw [h.file hpath]
    obtain ⟨-, e', rfl, hf⟩ := h
    exact ⟨points_none rfl, _, rfl, hf.store hpath _⟩

theorem alike_onUnpause (h : Alike D d s s') (dataDir : Bytes) (env : Env) (sid : CString 35)
    (htmp : tmpPath dataDir (mapName env.header.header) sid.bytes ∈ D) :
    Alike D d (onUnpause dataDir env sid s) (onUnpause dataDir env sid s') := by
  unfold onUnpause
  dsimp only
  split_ifs
  · exact h
  · obtain ⟨-, e', rfl, hf⟩ := h
    dsimp only
    rw [hf.agree _ htmp]
    split
    · exact ⟨points_some rfl htmp htmp, _, rfl, hf.store htmp _⟩
    · exact ⟨points_none rfl, e', rfl, hf⟩

theorem alike_onReject (h : Alike D d s s') (deleteFile : Bool) :
    Alike D d (onReject deleteFile s) (onReject deleteFile s') := by
  rw [Effect.onReject_eq, Effect.onReject_eq]
  obtain ⟨hs, e', rfl, hf⟩ := h
  dsimp only
  split_ifs with hdelete
  · obtain ⟨fd, hfd⟩ := Option.isSome_iff_exists.mp hdelete.1
    exact ⟨points_none rfl, _, rfl, hf.unlink (hs fd hfd).2⟩
  · exact ⟨points_none rfl, e', rfl, hf⟩

theorem alike_renamed (h : Alike D d s s') {q : Bytes} (hfile : s.filepath ∈ D) (ok : Bool)
    (out out' : List Output)
    (hq : ∀ disk, s.disk.rename s.filepath q = some disk → ok = true → q ∈ D) :
    Alike D d
      (match s.disk.rename s.filepath q, ok with
        | some disk, true => ({ s with disk }, out)
        | _, _ => (s, [])).1
      (match s'.disk.rename s'.filepath q, ok with
        | some disk, true => ({ s' with disk }, out')
        | _, _ => (s', [])).1 := by
  have h' := h
  obtain ⟨hs, e', rfl, hf⟩ := h'
  cases ok with
  | false => simpa using h
  | true =>
    rcases hren : s.disk.rename s.filepath q with _ | disk
    · rw [hf.rename_none hfile hren]
      exact h
    · obtain ⟨disk', hren', hf'⟩ := hf.rename hfile (hq disk hren rfl) hren
      rw [hren']
      exact ⟨hs, disk', rfl, hf'⟩

theorem alike_onFinish (h : Alike D d s s') (dataDir : Bytes) (env : Env) (timeMs : ℕ)
    (submit : Bool) (charPrefix : UInt8) (sid : CString 35) (nickname : CString 32)
    (hsaved : ∀ uid path, .saved uid path ∈
      (onFinish dataDir env timeMs submit charPrefix sid nickname s).2 → path ∈ D) :
    Alike D d (onFinish dataDir env timeMs submit charPrefix sid nickname s).1
      (onFinish dataDir env timeMs submit charPrefix sid nickname s').1 := by
  unfold onFinish at hsaved ⊢
  rw [h.fd]
  rcases hfd : s.fd with _ | fd
  · exact h
  · obtain ⟨hpath, hfile⟩ := h.1 fd hfd
    rw [hfd] at hsaved
    dsimp only at hsaved ⊢
    rw [h.file hpath]
    split_ifs at hsaved ⊢ with hv
    · obtain ⟨-, e', rfl, hf⟩ := h
      exact ⟨points_none rfl, _, rfl, hf.unlink hfile⟩
    · -- the header is completed, and the file renamed
      have hsync := (h.sync hpath hfile (finishFile nickname s
        (kzRpTimestampFromHeader (kzRpMapnameFromHeader (s.file fd)).2).2)).close
      obtain ⟨-, e', rfl, hf⟩ := h
      refine alike_renamed hsync hfile env.renameOk _ _ fun disk hren hok => ?_
      refine hsaved (uidStr s.gochecks (timeMs % 2 ^ 32) sid.bytes
        (kzRpTimestampFromHeader (kzRpMapnameFromHeader (s.file fd)).2).1 env.noSubmit charPrefix) _
          ?_
      split
      · exact List.mem_cons_self
      · rename_i hno
        exact (hno disk hren hok).elim

/-- **A signal** does to a player's entries and files on a larger disk what it does alone. -/
theorem alike_next (h : Alike D d s s') (dataDir : Bytes) (i : Input)
    (htmp : ∀ sid ∈ steamidShort i.signal, tmpPath dataDir
      (mapName i.env.header.header) sid.bytes ∈ D)
    (hsaved : ∀ uid path, .saved uid path ∈ (step dataDir s i).2 → path ∈ D) :
    Alike D d (next dataDir s i) (next dataDir s' i) := by
  unfold next
  unfold step at hsaved ⊢
  rcases hsig : i.signal with f | id | ⟨ts, sid, nick⟩ | _ | sid | del | ⟨t, sub, cp, sid, nick⟩
  all_goals rw [hsig] at htmp hsaved
  · exact alike_onFrame h f
  · exact alike_onEvent h id
  · exact alike_onStart h dataDir i.env ts sid nick (htmp sid rfl)
  · exact alike_onPause h
  · exact alike_onUnpause h dataDir i.env sid (htmp sid rfl)
  · exact alike_onReject h del
  · exact alike_onFinish h dataDir i.env t sub cp sid nick hsaved

end Signals

/-- The runs that a player's signal saves are files of the player. -/
theorem saved_mem {dataDir : Bytes} {header : ServerHeader} {sid : CString 35} {s : Slot}
    {i : Input} (hi : OfPlayer header sid i) (hw : Whole dataDir s i) {uid path : Bytes}
    (h : .saved uid path ∈ (step dataDir s i).2) : path ∈ replayFiles dataDir header sid := by
  obtain ⟨timeMs, submit, charPrefix, sid', nickname, ts, hsig, -, huid, -⟩ := uid_of_saved h
  obtain rfl : sid' = sid := hi.2 sid' (by rw [hsig]; rfl)
  exact Or.inr ⟨s.gochecks, timeMs % 2 ^ 32, ts, i.env.noSubmit,
    charPrefix, by rw [hw uid path h, huid, finishUid]⟩

/-! ### Runs -/

section Runs
variable {ι : Type} {dataDir : Bytes} {header : ServerHeader} {sid : ι → CString 35}

/-- What each player's signals made alone is in the state of all: the entries and the files of the
player, and no other file has changed. -/
structure Merges (dataDir : Bytes) (header : ServerHeader) (sid : ι → CString 35)
  (disk : Disk Bytes UInt8)
    (w : WriterState ι) (slots : ι → Slot) : Prop where
  entries : ∀ p, w.entries p = (slots p).toEntries
  files : ∀ p, ∀ q ∈ replayFiles dataDir header (sid p), w.disk q = (slots p).disk q
  others : ∀ q, (∀ p, q ∉ replayFiles dataDir header (sid p)) → w.disk q = disk q
  points : ∀ p, Points (replayFiles dataDir header (sid p)) (slots p)

theorem merges_init (dataDir : Bytes) (header : ServerHeader) (sid : ι → CString 35)
    (disk : Disk Bytes UInt8) :
    Merges dataDir header sid disk (.init disk) fun _ => .init disk where
  entries _ := rfl
  files _ _ _ := rfl
  others _ _ := rfl
  points _ _ h := by cases h

theorem Merges.unique {disk : Disk Bytes UInt8} {w w' : WriterState ι} {slots : ι → Slot}
    (hw : Merges dataDir header sid disk w slots) (hw' : Merges dataDir header sid disk w' slots) :
    w = w' := by
  have hentries : w.entries = w'.entries :=
    funext fun p => (hw.entries p).trans (hw'.entries p).symm
  have hdisk : w.disk = w'.disk := by
    funext q
    by_cases hq : ∃ p, q ∈ replayFiles dataDir header (sid p)
    · obtain ⟨p, hp⟩ := hq
      rw [hw.files p q hp, hw'.files p q hp]
    · rw [not_exists] at hq
      rw [hw.others q hq, hw'.others q hq]
  cases w
  cases w'
  dsimp only at hentries hdisk
  rw [hentries, hdisk]

variable [DecidableEq ι]

/-- **One signal** of one player leaves the others alone. -/
theorem Merges.process (h : Players dataDir header sid) {disk : Disk Bytes UInt8}
    {w : WriterState ι}
    {slots : ι → Slot} (hw : Merges dataDir header sid disk w slots) {p : ι} {i : Input}
    (hi : OfPlayer header (sid p) i) (hwhole : Whole dataDir (slots p) i) :
    Merges dataDir header sid disk (Isolation.process dataDir w (p, i))
      (Function.update slots p (next dataDir (slots p) i)) := by
  have hslot : (⟨w.entries p, w.disk⟩ : Slot) = { slots p with disk := w.disk } := by
    rw [hw.entries p]
  have htmp : ∀ sid' ∈ steamidShort i.signal,
      tmpPath dataDir (mapName i.env.header.header) sid'.bytes ∈ replayFiles dataDir header
        (sid p) := by
    intro sid' hsid
    rw [hi.1, hi.2 sid' hsid]
    exact Or.inl rfl
  obtain ⟨hpoints, e', heq, hf⟩ := alike_next (.refl (hw.points p) (hw.files p)) dataDir i htmp
    fun uid path => saved_mem hi hwhole
  rw [← hslot] at heq
  have hprocess : Isolation.process dataDir w (p, i) =
      ⟨Function.update w.entries p (next dataDir (slots p) i).toEntries, e'⟩ := by
    unfold Isolation.process
    dsimp only
    rw [heq]
  rw [hprocess]
  refine ⟨fun q => ?_, fun q r hr => ?_, fun r hr => ?_, fun q => ?_⟩
  · dsimp only
    by_cases hq : q = p
    · subst hq
      rw [Function.update_self, Function.update_self]
    · rw [Function.update_of_ne hq, Function.update_of_ne hq]
      exact hw.entries q
  · by_cases hq : q = p
    · subst hq
      rw [Function.update_self]
      exact hf.agree r hr
    · rw [Function.update_of_ne hq, ← hw.files q r hr]
      exact hf.frame r (replayFiles_disjoint h hq hr)
  · rw [← hw.others r hr]
    exact hf.frame r (hr p)
  · by_cases hq : q = p
    · subst hq
      rw [Function.update_self]
      exact hpoints
    · rw [Function.update_of_ne hq]
      exact hw.points q

theorem alone_cons (p q : ι) (i : Input) (es : List (ι × Input)) :
    alone q ((p, i) :: es) = if p = q then i :: alone q es else alone q es := by
  unfold alone
  rw [List.filter_cons]
  by_cases hpq : p = q
  · rw [if_pos hpq, if_pos (by simpa using hpq), List.map_cons]
  · rw [if_neg hpq, if_neg (by simpa using hpq)]

theorem mem_alone {p : ι} {i : Input} {es : List (ι × Input)} : i ∈ alone p es ↔ (p, i) ∈ es := by
  simp [alone]

/-- **All signals**, in the order they come. -/
theorem Merges.all (h : Players dataDir header sid) {disk : Disk Bytes UInt8} :
    ∀ {es : List (ι × Input)} {w : WriterState ι}
    {slots : ι → Slot}, Merges dataDir header sid disk w slots →
      (∀ x ∈ es, OfPlayer header (sid x.1) x.2) →
      (∀ p, Along (next dataDir) (Whole dataDir) (slots p) (alone p es)) →
        Merges dataDir header sid disk (run (Isolation.process dataDir) w es)
          fun p => run (next dataDir) (slots p) (alone p es)
  | [], _, _, hw, _, _ => hw
  | (p, i) :: es, w, slots, hw, hes, hwhole => by
    have hfirst : alone p ((p, i) :: es) = i :: alone p es := by rw [alone_cons, if_pos rfl]
    have hwp := hwhole p
    rw [hfirst] at hwp
    have hnext := hw.process h (hes (p, i) List.mem_cons_self) hwp.1
    have hslots (q : ι) : run (next dataDir) (Function.update slots p (next dataDir (slots p) i) q)
        (alone q es) =
        run (next dataDir) (slots q) (alone q ((p, i) :: es)) := by
      by_cases hq : q = p
      · subst hq
        rw [Function.update_self, hfirst, run_cons]
      · rw [Function.update_of_ne hq, alone_cons, if_neg (Ne.symm hq)]
    have hrest := Merges.all h hnext (fun x hx => hes x (List.mem_cons_of_mem _ hx)) fun q => by
      by_cases hq : q = p
      · subst hq
        rw [Function.update_self]
        exact hwp.2
      · have hwq := hwhole q
        rw [alone_cons, if_neg (Ne.symm hq)] at hwq
        rwa [Function.update_of_ne hq]
    rw [run_cons, ← funext hslots]
    exact hrest

/-- **Players do not interfere**: each player's entries and files are those of the player's signals
alone, no other file changes, and the order in which the signals of different players come makes no
difference. -/
theorem players_do_not_interfere (h : Players dataDir header sid) (disk : Disk Bytes UInt8)
    (es : List (ι × Input)) (hes : ∀ x ∈ es, OfPlayer header (sid x.1) x.2)
    (hwhole : ∀ p, Along (next dataDir) (Whole dataDir) (.init disk) (alone p es)) :
    (∀ p, (run (process dataDir) (.init disk) es).entries p =
        (run (next dataDir) (.init disk) (alone p es)).toEntries ∧
      ∀ q ∈ replayFiles dataDir header (sid p), (run (process dataDir) (.init disk) es).disk q =
        (run (next dataDir) (.init disk) (alone p es)).disk q) ∧
    (∀ q, (∀ p, q ∉ replayFiles dataDir header (sid p)) →
      (run (process dataDir) (.init disk) es).disk q = disk q) ∧
    ∀ es', (∀ p, alone p es' = alone p es) →
      run (process dataDir) (.init disk) es' = run (process dataDir) (.init disk) es := by
  have hmerges := (merges_init dataDir header sid disk).all h hes hwhole
  refine ⟨fun p => ⟨hmerges.entries p, hmerges.files p⟩, hmerges.others, fun es' hsame => ?_⟩
  have hes' : ∀ x ∈ es', OfPlayer header (sid x.1) x.2 := by
    rintro ⟨p, i⟩ hx
    rw [← mem_alone, hsame p, mem_alone] at hx
    exact hes (p, i) hx
  have hmerges' := (merges_init dataDir header sid disk).all h hes' fun p => by
    rw [hsame p]
    exact hwhole p
  rw [← funext fun p => congrArg (run (next dataDir) (.init disk)) (hsame p)] at hmerges
  exact hmerges'.unique hmerges

/-- In a directory that is short enough no path of a run is cut. -/
theorem whole_of_shortDir (hd : ShortDir dataDir) (s : Slot) (i : Input) : Whole dataDir s i := by
  intro uid path h
  obtain ⟨timeMs, submit, charPrefix, sid, nickname, ts, -, -, huid, hpath⟩ := uid_of_saved h
  have hlen : uid.length ≤ 63 := huid ▸ length_uidStr_le ..
  rw [hpath, take_finishPath_uid hd hlen]

end Runs

section Sample
open Capture

/-- Two players. -/
def samplePlayers : Bool → CString 35
  | false => samplePlayer
  | true => ⟨str "14", by decide, by decide⟩

/-- The second player starts and plays while the first one runs. -/
def sampleOrder : List (Bool × Input) :=
  [(false, sampleStart), (true, sampleInput (.start 40 (samplePlayers true) sampleNickname)),
    (true, sampleInput (.frame (sampleFrame 1))), (false, sampleInput (.frame (sampleFrame 2))),
      (false, sampleFinish)]

/-- The second player starts when the run of the first one is over. -/
def sampleReorder : List (Bool × Input) :=
  [(false, sampleStart), (false, sampleInput (.frame (sampleFrame 2))), (false, sampleFinish),
    (true, sampleInput (.start 40 (samplePlayers true) sampleNickname)),
      (true, sampleInput (.frame (sampleFrame 1)))]

theorem samplePlayers_differ : Players (str "d") sampleServer samplePlayers where
  distinct := by decide
  valid := by decide
  no_dot := by decide
  whole := by decide

theorem sample_reordered : run (process (str "d")) (.init fun _ => none) sampleReorder =
    run (process (str "d")) (.init fun _ => none) sampleOrder := by
  refine (players_do_not_interfere samplePlayers_differ (fun _ => none) sampleOrder ?_ ?_).2.2
    sampleReorder ?_
  · simp only [sampleOrder, List.forall_mem_cons]
    exact ⟨⟨rfl, by decide⟩, ⟨rfl, by decide⟩, ⟨rfl, by decide⟩, ⟨rfl, by decide⟩, ⟨rfl, by decide⟩,
      List.forall_mem_nil _⟩
  · have hd : ShortDir (str "d") := by unfold ShortDir; decide
    exact fun p => along_of_always (whole_of_shortDir hd)
  · rintro (_ | _)
    · rfl
    · rfl

end Sample

end KzGlobal.Replay.Isolation
