import KzGlobal.Replay.Effect

/-! # Laws of captures

A law says something of a header and records: of those in a closed capture, and of those in the open
one together with the entries of the static arrays. It may speak of the past through a ghost. What a
law owes to the signals, one obligation for each thing that a signal can do to a capture, is
`Law.Lawful`; then the law holds of all captures after every run (`Law.Lawful.run`), and of the
capture that a FINISH renames (`saved_of_finish`). -/

namespace KzGlobal.Replay.Laws

open KzGlobal.Lib KzGlobal.Lib.Stdio KzGlobal.Lib.Runs
open KzGlobal.Krp.Format KzGlobal.Krp.Records KzGlobal.Krp.Roundtrip
open KzGlobal.Replay.Text KzGlobal.Replay.Writer KzGlobal.Replay.Frames
open KzGlobal.Replay.Headers KzGlobal.Replay.Effect

/-! ### Files that are captures -/

/-- The files at the paths of `D` are captures with the property `P`. -/
def Files (D : Set Bytes) (P : KrpHeader → List Record → Prop) (d : Disk Bytes UInt8) : Prop :=
  ∀ p ∈ D, ∀ b, d p = some b → ∃ h rs, b = krprOf h rs ∧ P h rs

section Files
variable {D : Set Bytes} {P Q : KrpHeader → List Record → Prop} {d : Disk Bytes UInt8} {p : Bytes}
  {h : KrpHeader} {rs : List Record}

theorem Files.imp (hd : Files D P d) (hPQ : ∀ p ∈ D, ∀ h rs, P h rs → Q h rs) : Files D Q d := by
  intro q hq b hb
  obtain ⟨h, rs, he, hP⟩ := hd q hq b hb
  exact ⟨h, rs, he, hPQ q hq h rs hP⟩

theorem Files.subset {E : Set Bytes} (hd : Files D P d) (hE : E ⊆ D) : Files E P d :=
  fun q hq => hd q (hE hq)

theorem Files.store_out (hd : Files (D \ {p}) P d) (b : Bytes) :
    Files (D \ {p}) P (d.store p b) := by
  intro q hq c hc
  rw [Disk.store_of_ne _ hq.2] at hc
  exact hd q hq c hc

theorem Files.store (hd : Files (D \ {p}) P d) (hP : P h rs) :
    Files D P (d.store p (krprOf h rs)) := by
  intro q hq b hb
  rcases eq_or_ne q p with rfl | hne
  · rw [Disk.store_self, Option.some.injEq] at hb
    exact ⟨h, rs, hb.symm, hP⟩
  · rw [Disk.store_of_ne _ hne] at hb
    exact hd q ⟨hq, hne⟩ b hb

theorem Files.unlink (hd : Files (D \ {p}) P d) : Files D P (d.unlink p) := by
  intro q hq b hb
  rcases eq_or_ne q p with rfl | hne
  · rw [Disk.unlink_self] at hb; cases hb
  · rw [Disk.unlink_of_ne _ hne] at hb
    exact hd q ⟨hq, hne⟩ b hb

theorem Files.insert (hd : Files (D \ {p}) P d) (hp : d p = some (krprOf h rs)) (hP : P h rs) :
    Files D P d := by
  intro q hq b hb
  rcases eq_or_ne q p with rfl | hne
  · rw [hp, Option.some.injEq] at hb
    exact ⟨h, rs, hb.symm, hP⟩
  · exact hd q ⟨hq, hne⟩ b hb

theorem Files.rename {d' : Disk Bytes UInt8} {q : Bytes} (hd : Files D P d)
    (hp : d p = some (krprOf h rs)) (hP : P h rs) (hr : d.rename p q = some d') : Files D P d' := by
  obtain ⟨hq, hother⟩ := Disk.rename_eq_some hp hr
  intro r hrD b hb
  rcases eq_or_ne r q with rfl | hne
  · rw [hq, Option.some.injEq] at hb
    exact ⟨h, rs, hb.symm, hP⟩
  · rcases hother r hne with he | he
    · exact hd r hrD b (he ▸ hb)
    · rw [he] at hb; cases hb

end Files

/-! ### Laws -/

/-- The entries of the static arrays that say what is recorded next. -/
structure Registers where
  last : KrpFrame
  counter : ℕ
  checkpoints : ℕ
  gochecks : ℕ

/-- The counters of a slot. -/
def registers (s : Slot) : Registers := ⟨s.last, s.counter, s.checkpoints, s.gochecks⟩

/-- A law over a ghost `γ`, which every signal moves on by `tick`. -/
structure Law (γ : Type) where
  tick : γ → Slot → Input → γ
  closed : γ → KrpHeader → List Record → Prop
  opened : γ → Registers → KrpHeader → List Record → Prop

/-- A signal that closes the open file and leaves it on the disk as it is. -/
def Abandons (dataDir : Bytes) (s : Slot) (i : Input) : Prop :=
  match i.signal with
  | .start _ steamidShort _ => ¬ (Accepted i.env steamidShort ∧ i.env.fopenOk = true ∧
      openPath dataDir i.env steamidShort = s.filepath)
  | .unpause steamidShort => Accepted i.env steamidShort
  | .reject deleteFile => deleteFile = false
  | _ => False

/-- What a law owes to the signals that meet a condition `C`, for captures at the paths of `D`. -/
structure Law.Lawful {γ : Type} (L : Law γ) (dataDir : Bytes) (D : Set Bytes)
    (C : Slot → Input → Prop) : Prop where
  /-- A closed capture that the signal does not touch. -/
  keep {g s i p h rs} : C s i → p ∈ D → (s.fd.isSome = true → s.filepath ∈ D ∧ p ≠ s.filepath) →
    L.closed g h rs → L.closed (L.tick g s i) h rs
  /-- An UNPAUSE that is refused. -/
  idle {g s i sid h rs} : C s i → i.signal = .unpause sid → ¬ Accepted i.env sid →
    s.fd.isSome = true → L.opened g (registers s) h rs → L.opened (L.tick g s i) (registers s) h rs
  /-- The paths that START and UNPAUSE open. -/
  domain {s i sid} : C s i → (∃ ts nick, i.signal = .start ts sid nick) ∨ i.signal = .unpause sid →
    Accepted i.env sid → openPath dataDir i.env sid ∈ D
  start {g s i ts sid nick} : C s i → i.signal = .start ts sid nick → Accepted i.env sid →
    L.opened (L.tick g s i) ⟨zeroFrame, 0, 0, 0⟩ (startHeader ts sid nick i.env.header.header) []
  unpause {g s i sid h rs} : C s i → i.signal = .unpause sid → Accepted i.env sid →
    L.closed (L.tick g s i) h rs → L.opened (L.tick g s i)
      ⟨s.last, 0, h.num .runCheckpoints, h.num .runTeleports⟩ h rs
  event {g s i id h rs} : C s i → i.signal = .event id → Recording s h rs →
    L.opened g (registers s) h rs →
    L.opened (L.tick g s i) (registers (countEvent id s)) h (rs ++ [.event id])
  frame {g s i f h rs} : C s i → i.signal = .frame f → Recording s h rs →
    L.opened g (registers s) h rs →
    L.opened (L.tick g s i) ⟨f, s.counter + 1, s.checkpoints, s.gochecks⟩ h
      (rs ++ [.frame (frameRecord s f)])
  pause {g s i h rs} : C s i → i.signal = .pause → Recording s h rs →
    L.opened g (registers s) h rs →
    L.closed (L.tick g s i) (runHeader h s.checkpoints s.gochecks) rs
  abandon {g s i h rs} : C s i → Abandons dataDir s i → Recording s h rs →
    L.opened g (registers s) h rs → L.closed (L.tick g s i) h rs
  finish {g s i timeMs submit charPrefix sid nick h rs} : C s i →
    i.signal = .finish timeMs submit charPrefix sid nick → Recording s h rs →
    L.opened g (registers s) h rs → L.closed (L.tick g s i) (finishHeader nick s h) rs

/-- A law holds of the captures at the paths of `D`. -/
inductive Law.Holds {γ : Type} (L : Law γ) (D : Set Bytes) (g : γ) (s : Slot) : Prop
  | closed : s.fd = none → Files D (L.closed g) s.disk → L.Holds D g s
  | opened {h : KrpHeader} {rs : List Record} : Recording s h rs → s.filepath ∈ D →
      L.opened g (registers s) h rs → Files (D \ {s.filepath}) (L.closed g) s.disk → L.Holds D g s

namespace Law

variable {γ : Type} {L : Law γ} {dataDir : Bytes} {D : Set Bytes} {C : Slot → Input → Prop} {g : γ}
  {s : Slot} {i : Input} {h : KrpHeader} {rs : List Record}

/-! ### START and UNPAUSE -/

section Opening
variable {steamidShort : CString 35} (hL : L.Lawful dataDir D C) (hC : C s i)
  (ha : Accepted i.env steamidShort)
include hL hC ha

theorem Lawful.holds_start {ts : ℕ} {nickname : CString 32}
    (hs : i.signal = .start ts steamidShort nickname)
    (hf : Files (D \ {openPath dataDir i.env steamidShort}) (L.closed (L.tick g s i)) s.disk)
    (hfail : i.env.fopenOk = false → Files D (L.closed (L.tick g s i)) s.disk) :
    L.Holds D (L.tick g s i) (onStart dataDir i.env ts steamidShort nickname s) := by
  rw [onStart_accepted dataDir ha]
  split_ifs with hopen
  · exact .opened ⟨rfl, Disk.store_self ..⟩ (hL.domain hC (Or.inl ⟨ts, nickname, hs⟩) ha)
      (hL.start hC hs ha) (hf.store_out _)
  · exact .closed rfl (hfail (Bool.eq_false_iff.mpr hopen))

theorem Lawful.holds_unpause (hs : i.signal = .unpause steamidShort)
    (hf : Files D (L.closed (L.tick g s i)) s.disk) :
    L.Holds D (L.tick g s i) (onUnpause dataDir i.env steamidShort s) := by
  have hD := hL.domain hC (Or.inr hs) ha
  rcases hb : s.disk (openPath dataDir i.env steamidShort) with _ | b
  · rw [onUnpause_missing dataDir ha (Or.inl hb)]
    exact .closed rfl hf
  · rcases hopen : i.env.fopenOk
    · rw [onUnpause_missing dataDir ha (Or.inr hopen)]
      exact .closed rfl hf
    · obtain ⟨h, rs, rfl, hc⟩ := hf _ hD b hb
      rw [onUnpause_eq dataDir ha hb hopen]
      exact .opened ⟨rfl, Disk.store_self ..⟩ hD (hL.unpause hC hs ha hc)
        ((hf.subset Set.sdiff_subset).store_out _)

end Opening

/-! ### One signal -/

section Step
variable (hL : L.Lawful dataDir D C) (hC : C s i)
include hL hC

/-- Signals that find no file open leave the closed captures alone or open one of them. -/
theorem Lawful.step_closed (hfd : s.fd = none) (hf : Files D (L.closed g) s.disk) :
    L.Holds D (L.tick g s i) (next dataDir s i) := by
  have hf' : Files D (L.closed (L.tick g s i)) s.disk :=
    hf.imp fun _ hp _ _ => hL.keep hC hp fun h => by rw [hfd] at h; cases h
  unfold next step
  rcases hs : i.signal with f | id | ⟨ts, sid, nick⟩ | _ | sid | del | ⟨t, sub, cp, sid, nick⟩
  · simp only [onFrame, hfd]
    exact .closed hfd hf'
  · simp only [onEvent, hfd, countEvent_eq]
    exact .closed rfl hf'
  · by_cases ha : Accepted i.env sid
    · exact hL.holds_start hC ha hs (hf'.subset Set.sdiff_subset) fun _ => hf'
    · simp only [onStart_refused dataDir ha]
      exact .closed rfl hf'
  · simp only [onPause, hfd]
    exact .closed hfd hf'
  · by_cases ha : Accepted i.env sid
    · exact hL.holds_unpause hC ha hs hf'
    · simp only [onUnpause_refused dataDir ha]
      exact .closed hfd hf'
  · simp only [onReject_eq, hfd]
    exact .closed rfl (by simpa using hf')
  · simp only [onFinish_none hfd]
    exact .closed hfd hf'

/-- Signals that find a file open write to it, close it or delete it. -/
theorem Lawful.step_opened (hr : Recording s h rs) (hD : s.filepath ∈ D)
    (ho : L.opened g (registers s) h rs) (hf : Files (D \ {s.filepath}) (L.closed g) s.disk) :
    L.Holds D (L.tick g s i) (next dataDir s i) := by
  have hfd : s.fd.isSome = true := by rw [hr.fd]; rfl
  have hf' : Files (D \ {s.filepath}) (L.closed (L.tick g s i)) s.disk :=
    hf.imp fun _ hp _ _ => hL.keep hC hp.1 fun _ => ⟨hD, hp.2⟩
  have left (ha : Abandons dataDir s i) : Files D (L.closed (L.tick g s i)) s.disk :=
    hf'.insert hr.disk (hL.abandon hC ha hr ho)
  unfold next step
  rcases hs : i.signal with f | id | ⟨ts, sid, nick⟩ | _ | sid | del | ⟨t, sub, cp, sid, nick⟩
  · simp only [onFrame_eq hr]
    exact .opened ⟨rfl, Disk.store_self ..⟩ hD (hL.frame hC hs hr ho) (hf'.store_out _)
  · have hev := hL.event hC hs hr ho
    simp only [onEvent_eq hr, countEvent_eq] at hev ⊢
    exact .opened ⟨rfl, Disk.store_self ..⟩ hD hev (hf'.store_out _)
  · by_cases ha : Accepted i.env sid
    · by_cases hsame : i.env.fopenOk = true ∧ openPath dataDir i.env sid = s.filepath
      · refine hL.holds_start hC ha hs (by rw [hsame.2]; exact hf') fun h => ?_
        rw [hsame.1] at h; cases h
      · have hab : Abandons dataDir s i := by
          rw [Abandons, hs]
          exact fun h => hsame h.2
        exact hL.holds_start hC ha hs ((left hab).subset Set.sdiff_subset) fun _ => left hab
    · have hab : Abandons dataDir s i := by
        rw [Abandons, hs]
        exact fun h => ha h.1
      simp only [onStart_refused dataDir ha]
      exact .closed rfl (left hab)
  · simp only [onPause_eq hr]
    exact .closed rfl (hf'.store (hL.pause hC hs hr ho))
  · by_cases ha : Accepted i.env sid
    · have hab : Abandons dataDir s i := by rw [Abandons, hs]; exact ha
      exact hL.holds_unpause hC ha hs (left hab)
    · simp only [onUnpause_refused dataDir ha]
      exact .opened hr hD (hL.idle hC hs ha hfd ho) hf'
  · simp only [onReject_eq, hfd, true_and]
    rcases del
    · have hab : Abandons dataDir s i := by rw [Abandons, hs]
      exact .closed rfl (left hab)
    · exact .closed rfl hf'.unlink
  · by_cases hv : kzWsValidReplaySegment sid.bytes = true ∧
      kzWsValidReplaySegment (fileName h) = true
    · have hst := hf'.store (hL.finish hC hs hr ho)
      simp only [onFinish_accepted hr hv]
      split
      · rename_i disk hren _
        exact .closed rfl (hst.rename (Disk.store_self ..) (hL.finish hC hs hr ho) hren)
      · exact .closed rfl hst
    · simp only [onFinish_refused hr hv]
      exact .closed rfl hf'.unlink

/-- **One signal keeps a lawful law.** -/
theorem Lawful.step (hI : L.Holds D g s) : L.Holds D (L.tick g s i) (next dataDir s i) := by
  rcases hI with ⟨hfd, hf⟩ | ⟨hr, hD, ho, hf⟩
  · exact hL.step_closed hC hfd hf
  · exact hL.step_opened hC hr hD ho hf

end Step

/-- **A lawful law holds after every run.** -/
theorem Lawful.run (hL : L.Lawful dataDir D C) {is : List Input}
    (hC : Along (next dataDir) C s is) (hI : L.Holds D g s) :
    L.Holds D (Runs.run (withGhost (next dataDir) L.tick) (g, s) is).1
      (Runs.run (next dataDir) s is) := by
  have hA : Along (withGhost (next dataDir) L.tick) (fun gs i => C gs.2 i) (g, s) is :=
    along_withGhost.mpr hC
  have hrun := Along.run (P := fun gs : γ × Slot => L.Holds D gs.1 gs.2)
    (fun _ _ hP hC => hL.step hC hP) hA hI
  rwa [run_withGhost] at hrun

end Law

/-! ### FINISH -/

/-- **A FINISH saves the open file**, where the handler accepts it and the rename succeeds. -/
theorem finish_saves {dataDir : Bytes} {s : Slot} {i : Input} {h : KrpHeader} {rs : List Record}
    {timeMs : ℕ} {submit : Bool} {charPrefix : UInt8} {sid : CString 35} {nick : CString 32}
    (hr : Recording s h rs) (hs : i.signal = .finish timeMs submit charPrefix sid nick)
    (hsid : kzWsValidReplaySegment sid.bytes = true)
    (hname : kzWsValidReplaySegment (fileName h) = true) (hren : i.env.renameOk = true) :
    ∃ uid path, .saved uid path ∈ (step dataDir s i).2 := by
  unfold step
  simp only [hs, onFinish_accepted hr ⟨hsid, hname⟩]
  obtain ⟨d, hd⟩ := Disk.exists_rename (Disk.store_self s.disk s.filepath
    (krprOf (finishHeader nick s h) rs)) ((finishPath dataDir (uidStr s.gochecks (timeMs % 2 ^ 32)
      sid.bytes (h.num .timestamp) i.env.noSubmit charPrefix)).take 254)
  rw [hd, hren]
  exact ⟨_, _, List.mem_cons_self⟩

theorem saved_not_mem_finishOutputs {env : Env} {timeMs : ℕ} {submit : Bool}
    {steamidShort : CString 35} {mapname uid' npath : Bytes} {s : Slot} {uid path : Bytes} :
    .saved uid path ∉ finishOutputs env timeMs submit steamidShort mapname uid' npath s := by
  unfold finishOutputs
  split_ifs <;> simp

/-- **What a FINISH that saves a file did.** -/
theorem saved_of_finish {dataDir : Bytes} {s : Slot} {i : Input} {h : KrpHeader} {rs : List Record}
    {uid path : Bytes} (hr : Recording s h rs) (hs : .saved uid path ∈ (step dataDir s i).2) :
    ∃ timeMs submit charPrefix sid nick,
      i.signal = .finish timeMs submit charPrefix sid nick ∧
      uid = uidStr s.gochecks (timeMs % 2 ^ 32) sid.bytes
      (h.num .timestamp) i.env.noSubmit charPrefix ∧ path = (finishPath dataDir uid).take 254 ∧
      (step dataDir s i).2 = .saved uid path :: finishOutputs i.env timeMs submit sid
      (fileName h) uid
        (finishPath dataDir uid) s ∧
      (next dataDir s i).disk path = some (krprOf (finishHeader nick s h) rs) := by
  unfold next
  unfold step at hs ⊢
  rcases hsig : i.signal with f | id | ⟨ts, sid, nick⟩ | _ | sid | del | ⟨t, sub, cp, sid, nick⟩ <;>
    simp only [hsig, List.not_mem_nil] at hs ⊢
  by_cases hv : kzWsValidReplaySegment sid.bytes = true ∧ kzWsValidReplaySegment (fileName h) = true
  · simp only [onFinish_accepted hr hv] at hs ⊢
    split at hs
    · rename_i disk hren hok
      have he : uid = uidStr s.gochecks (t % 2 ^ 32) sid.bytes
          (h.num .timestamp) i.env.noSubmit cp ∧ path = (finishPath dataDir uid).take 254 := by
        rcases List.mem_cons.mp hs with he | he
        · rw [Output.saved.injEq] at he
          exact ⟨he.1, he.1 ▸ he.2⟩
        · exact absurd he saved_not_mem_finishOutputs
      obtain ⟨hu, rfl⟩ := he
      refine ⟨t, sub, cp, sid, nick, rfl, hu, rfl, ?_⟩
      rw [← hu] at hren ⊢
      exact ⟨rfl, (Disk.rename_eq_some (Disk.store_self ..) hren).1⟩
    · cases hs
  · simp only [onFinish_refused hr hv, List.not_mem_nil] at hs

theorem fd_of_saved {dataDir : Bytes} {s : Slot} {i : Input} {uid path : Bytes}
    (hs : .saved uid path ∈ (step dataDir s i).2) : s.fd.isSome = true := by
  unfold step at hs
  rcases hsig : i.signal with f | id | ⟨ts, sid, nick⟩ | _ | sid | del | ⟨t, sub, cp, sid, nick⟩ <;>
    simp only [hsig, List.not_mem_nil] at hs
  rcases hfd : s.fd with _ | fd
  · simp only [onFinish_none hfd, List.not_mem_nil] at hs
  · rfl

namespace Law

variable {γ : Type} {L : Law γ} {dataDir : Bytes} {D : Set Bytes} {g : γ} {s : Slot} {i : Input}
  {uid path : Bytes}

theorem Holds.recording (hI : L.Holds D g s) (hfd : s.fd.isSome = true) :
    ∃ h rs, Recording s h rs ∧ L.opened g (registers s) h rs := by
  rcases hI with ⟨hn, -⟩ | ⟨hr, -, ho, -⟩
  · rw [hn] at hfd; cases hfd
  · exact ⟨_, _, hr, ho⟩

theorem Holds.files (hI : L.Holds D g s) (hfd : s.fd = none) : Files D (L.closed g) s.disk := by
  rcases hI with ⟨-, hf⟩ | ⟨hr, -, -, -⟩
  · exact hf
  · rw [hr.fd] at hfd; cases hfd

theorem Holds.saved (hI : L.Holds D g s) (hs : .saved uid path ∈ (step dataDir s i).2) :
    ∃ h rs, Recording s h rs ∧ L.opened g (registers s) h rs :=
  hI.recording (fd_of_saved hs)

end Law

end KzGlobal.Replay.Laws
