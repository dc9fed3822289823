import KzGlobal.Replay.Saves
import KzGlobal.Submit.System

/-! # Who keeps a submitted run

A run that was submitted has its file, and a row of its ADD_RECORD or of its upload, until it is
answered. The invariant (`Inv`) says this of every state between two steps; beside it, that a
message which is about to be deleted has handed its run on to the upload queue, and that whatever
deletes files belongs to a run that was answered or was never submitted. Each lemma carries it
through a change of one part of the state. -/

namespace KzGlobal.Submit.Custody

open KzGlobal.Lib.Stdio KzGlobal.Lib.Autoincrement KzGlobal.Krp.Format
open KzGlobal.Replay.Text KzGlobal.Replay.Writer KzGlobal.Replay.Paths KzGlobal.Replay.Saves
open KzGlobal.Storage.Queue KzGlobal.Storage.Ledger KzGlobal.Submit.System

/-- The message submits the run. -/
def Submits (m : Saved Text) (uid : Bytes) : Prop := ∃ r, m.text = .addRecord r ∧ r.localUid = uid

/-- The run has a row in `upload_queue`. -/
def HasUpload (s : Store Text) (uid : Bytes) : Prop :=
  ∃ id msgType, HasRow s ⟨.uploadQueue, id, msgType, .uid uid⟩

theorem HasUpload.save {s : Store Text} {uid : Bytes} (h : HasUpload s uid) (now : ℤ) (text : Text)
    (msgType msgId : ℕ) (table : StorageTable) :
    HasUpload (kzStorageSave now text msgType msgId table s) uid := by
  obtain ⟨id, msgType', hr⟩ := h
  exact ⟨id, msgType', hr.save ..⟩

theorem HasUpload.deleteRows {s s' : Store Text} {uid : Bytes} (h : HasUpload s uid)
    {p : ℕ × Stored Text → Bool} (hs : s'.tables = s.tables) :
    HasUpload (s'.mapTable .outgoingQueue fun t => t.deleteWhere p) uid := by
  obtain ⟨id, msgType, hr⟩ := h
  exact ⟨id, msgType, hr.deleteRows (fun ht => by cases ht) hs⟩

theorem HasUpload.deleteByValue {s : Store Text} {uid uid' : Bytes} (h : HasUpload s uid)
    (hne : uid ≠ uid') : HasUpload (kzStorageDeleteByValue (.uid uid') .uploadQueue s) uid := by
  obtain ⟨id, msgType, hr⟩ := h
  exact ⟨id, msgType, hr.deleteByValue fun he => hne (Text.uid.inj he.2)⟩

/-! ### The invariant -/

/-- The callbacks that wait, with the one that the WebSocket thread holds. -/
def callbacks (s : Sys) : List Callback := s.incoming ++ (s.handled.bind Prod.fst).toList

/-- Callbacks are passed on, and the thread that holds one may let go of it. -/
structure PassesOn (s : Sys) (incoming : List Callback) (handled : Option (Option Callback × ℕ)) :
    Prop where
  callbacks : ∀ fn ∈ incoming ++ (handled.bind Prod.fst).toList, fn ∈ callbacks s
  handled : ∀ fn id, handled = some (fn, id) → ∃ fn', s.handled = some (fn', id)

theorem push_passesOn (s : Sys) :
    ∃ incoming handled, PassesOn s incoming handled ∧ push s = { s with incoming, handled } := by
  have same : PassesOn s s.incoming s.handled := ⟨fun _ h => h, fun fn _ h => ⟨fn, h⟩⟩
  unfold push
  split
  · rename_i fn msgId hh
    split_ifs
    · refine ⟨_, _, ⟨fun fn' hfn => ?_, fun fn' id he => ⟨some fn, ?_⟩⟩, rfl⟩
      · rw [Option.bind_some, Option.toList_none, List.append_nil] at hfn
        rw [Custody.callbacks, hh]
        exact hfn
      · rw [Option.some.injEq, Prod.mk.injEq] at he
        rw [hh, he.2]
    · exact ⟨_, _, same, rfl⟩
  · exact ⟨_, _, same, rfl⟩

theorem giveUp_passesOn (s : Sys) :
    ∃ incoming handled, PassesOn s incoming handled ∧ giveUp s = { s with incoming, handled } := by
  have same : PassesOn s s.incoming s.handled := ⟨fun _ h => h, fun fn _ h => ⟨fn, h⟩⟩
  unfold giveUp
  split
  · split_ifs
    · exact ⟨_, _, same, rfl⟩
    · refine ⟨s.incoming, none, ⟨fun fn hfn => List.mem_append_left _ ?_, fun _ _ he => ?_⟩, rfl⟩
      · simpa using hfn
      · cases he
  · exact ⟨_, _, same, rfl⟩

/-- **The invariant.** -/
structure Inv (dataDir : Bytes) (s : Sys) : Prop where
  fits : Fits s.saved s.store
  records : ∀ m ∈ s.saved, ∀ uid, Submits m uid →
    m.table = .outgoingQueue ∧ m.msgType = msgAddRecord ∧ RunUid uid ∧ uid ∈ s.finished
  unsubmitted : ∀ p ∈ s.compressQueue, ∃ uid, RunUid uid ∧ uid ∈ s.finished ∧
    p = replayPath dataDir uid (str ".krpr") ∧ ∀ m ∈ s.saved, ¬ Submits m uid
  tidy : ∀ player, Tidy dataDir (s.players player)
  discards : ∀ uid, .discard uid ∈ callbacks s → RunUid uid ∧ uid ∈ s.answered
  handled : ∀ fn id, s.handled = some (fn, id) → id = 0 ∨
    ∃ m ∈ s.saved, m.table = .outgoingQueue ∧ m.id = id ∧
      ∀ uid, Submits m uid → uid ∈ s.answered ∨ HasUpload s.store uid
  kept : ∀ m ∈ s.saved, ∀ uid, Submits m uid → uid ∉ s.answered →
    (s.disk (replayPath dataDir uid (str ".krpr"))).isSome ∧
      (HasRow s.store m ∨ HasUpload s.store uid)

theorem Inv.init (dataDir : Bytes) (disk : Disk Bytes UInt8) : Inv dataDir (.init disk) where
  fits := Fits.empty
  records _ hm := absurd hm List.not_mem_nil
  unsubmitted _ hp := absurd hp List.not_mem_nil
  tidy _ := Tidy.init dataDir
  discards _ h := absurd h List.not_mem_nil
  handled _ _ h := by cases h
  kept _ hm := absurd hm List.not_mem_nil

theorem mem_saved_of_submits {saved : List (Saved Text)} {m m' : Saved Text}
    (hm : m ∈ saved ++ [m'])
    (hn : ∀ r, m'.text ≠ .addRecord r) {uid : Bytes} (hs : Submits m uid) : m ∈ saved := by
  rcases List.mem_append.mp hm with hm | hm
  · exact hm
  · rw [List.mem_singleton.mp hm] at hs
    obtain ⟨r, hr, -⟩ := hs
    exact absurd hr (hn r)

section Parts
variable {dataDir : Bytes} {s : Sys} (h : Inv dataDir s)
include h

theorem Inv.uploads (active : Finset Bytes) (uploadQueue : List Upload) (uploading : Bool)
    (sent : List Bytes) : Inv dataDir { s with active, uploadQueue, uploading, sent } :=
  ⟨h.fits, h.records, h.unsubmitted, h.tidy, h.discards, h.handled, h.kept⟩

theorem Inv.disk {E : Set Bytes} {disk : Disk Bytes UInt8} (hd : KeepsRuns dataDir E s.disk disk)
    (hE : ∀ uid ∈ E, uid ∈ s.answered ∨ ∀ m ∈ s.saved, ¬ Submits m uid) :
    Inv dataDir { s with disk } where
  fits := h.fits
  records := h.records
  unsubmitted := h.unsubmitted
  tidy := h.tidy
  discards := h.discards
  handled := h.handled
  kept m hm uid hs ha := by
    obtain ⟨hfile, hrow⟩ := h.kept m hm uid hs ha
    refine ⟨hd uid (h.records m hm uid hs).2.2.1 (fun hmem => ?_) hfile, hrow⟩
    rcases hE uid hmem with hans | hn
    · exact ha hans
    · exact hn m hm hs

theorem Inv.disk_keeps {disk : Disk Bytes UInt8} (hd : KeepsRuns dataDir ∅ s.disk disk) :
    Inv dataDir { s with disk } :=
  h.disk hd fun uid hE => absurd hE (Set.notMem_empty uid)

theorem Inv.disk_run {uid : Bytes} {disk : Disk Bytes UInt8}
    (hd : KeepsRuns dataDir {uid} s.disk disk)
    (hu : uid ∈ s.answered ∨ ∀ m ∈ s.saved, ¬ Submits m uid) : Inv dataDir { s with disk } := by
  refine h.disk hd fun uid' hE => ?_
  rw [Set.mem_singleton_iff.mp hE]
  exact hu

theorem Inv.store {store : Store Text} (hf : Fits s.saved store)
    (hrow : ∀ m ∈ s.saved, ∀ uid, Submits m uid → HasRow s.store m →
      HasRow store m ∨ uid ∈ s.answered ∨ HasUpload s.store uid)
    (hup : ∀ uid, uid ∉ s.answered → HasUpload s.store uid → HasUpload store uid) :
    Inv dataDir { s with store } where
  fits := hf
  records := h.records
  unsubmitted := h.unsubmitted
  tidy := h.tidy
  discards := h.discards
  handled fn id he := by
    rcases h.handled fn id he with h0 | ⟨m, hm, ht, hid, hs⟩
    · exact Or.inl h0
    · refine Or.inr ⟨m, hm, ht, hid, fun uid hsub => ?_⟩
      by_cases ha : uid ∈ s.answered
      · exact Or.inl ha
      · exact Or.inr (hup uid ha ((hs uid hsub).resolve_left ha))
  kept m hm uid hs ha := by
    obtain ⟨hfile, hr⟩ := h.kept m hm uid hs ha
    refine ⟨hfile, ?_⟩
    rcases hr with hr | hr
    · rcases hrow m hm uid hs hr with hr | hans | hr
      · exact Or.inl hr
      · exact absurd hans ha
      · exact Or.inr (hup uid ha hr)
    · exact Or.inr (hup uid ha hr)

theorem Inv.answer {answered : List Bytes} (ha : ∀ uid ∈ s.answered, uid ∈ answered) :
    Inv dataDir { s with answered } where
  fits := h.fits
  records := h.records
  unsubmitted := h.unsubmitted
  tidy := h.tidy
  discards uid hd := ⟨(h.discards uid hd).1, ha uid (h.discards uid hd).2⟩
  handled fn id he := by
    rcases h.handled fn id he with h0 | ⟨m, hm, ht, hid, hs⟩
    · exact Or.inl h0
    · exact Or.inr ⟨m, hm, ht, hid, fun uid hsub => (hs uid hsub).imp_left (ha uid)⟩
  kept m hm uid hs hna := h.kept m hm uid hs fun hmem => hna (ha uid hmem)

theorem Inv.callbacks {incoming : List Callback} {handled : Option (Option Callback × ℕ)}
    (hc : ∀ uid, .discard uid ∈ incoming ++ (handled.bind Prod.fst).toList →
      .discard uid ∈ callbacks s)
    (hh : ∀ fn id, handled = some (fn, id) → ∃ fn', s.handled = some (fn', id)) :
    Inv dataDir { s with incoming, handled } where
  fits := h.fits
  records := h.records
  unsubmitted := h.unsubmitted
  tidy := h.tidy
  discards uid hd := h.discards uid (hc uid hd)
  handled fn id he := by
    obtain ⟨fn', hfn⟩ := hh fn id he
    exact h.handled fn' id hfn
  kept := h.kept

theorem Inv.hold {fn : Option Callback} {id : ℕ}
    (hid : id = 0 ∨ ∃ m ∈ s.saved, m.table = .outgoingQueue ∧ m.id = id ∧
      ∀ uid, Submits m uid → uid ∈ s.answered ∨ HasUpload s.store uid)
    (hfn : ∀ uid, fn = some (.discard uid) → RunUid uid ∧ uid ∈ s.answered) :
    Inv dataDir { s with handled := some (fn, id) } where
  fits := h.fits
  records := h.records
  unsubmitted := h.unsubmitted
  tidy := h.tidy
  discards uid hd := by
    rcases List.mem_append.mp hd with hd | hd
    · exact h.discards uid (List.mem_append_left _ hd)
    · exact hfn uid (Option.mem_toList.mp hd)
  handled fn' id' he := by
    rw [Option.some.injEq, Prod.mk.injEq] at he
    rw [← he.2]
    exact hid
  kept := h.kept

theorem Inv.handled_save (now : ℤ) (text : Text) (msgType : ℕ) (table : StorageTable)
    {fn : Option Callback} {id : ℕ} (he : s.handled = some (fn, id)) : id = 0 ∨
      ∃ m ∈ (s.save now text msgType table).saved, m.table = .outgoingQueue ∧ m.id = id ∧
        ∀ uid, Submits m uid → uid ∈ s.answered ∨
        HasUpload (s.save now text msgType table).store uid := by
  rcases h.handled fn id he with h0 | ⟨m, hm, ht, hid, hs⟩
  · exact Or.inl h0
  · refine Or.inr ⟨m, List.mem_append_left _ hm, ht, hid, fun uid hsub => ?_⟩
    exact (hs uid hsub).imp_right fun hup => hup.save ..

/-- A submitted run is as well kept after another message is saved. -/
theorem Inv.kept_save (now : ℤ) (text : Text) (msgType : ℕ) (table : StorageTable) {m : Saved Text}
    (hm : m ∈ s.saved) {uid : Bytes} (hs : Submits m uid) (ha : uid ∉ s.answered) :
    (s.disk (replayPath dataDir uid (str ".krpr"))).isSome ∧
      (HasRow (s.save now text msgType table).store m ∨
        HasUpload (s.save now text msgType table).store uid) := by
  obtain ⟨hfile, hr⟩ := h.kept m hm uid hs ha
  exact ⟨hfile, hr.imp (fun hr => hr.save ..) fun hup => hup.save ..⟩

theorem Inv.save (now : ℤ) (text : Text) (hn : ∀ r, text ≠ .addRecord r) (msgType : ℕ)
    (table : StorageTable) : Inv dataDir (s.save now text msgType table) where
  fits := h.fits.save now text msgType table
  records m hm uid hs := h.records m (mem_saved_of_submits hm hn hs) uid hs
  unsubmitted p hp := by
    obtain ⟨uid, hu, hfin, he, hns⟩ := h.unsubmitted p hp
    exact ⟨uid, hu, hfin, he, fun m hm hs => hns m (mem_saved_of_submits hm hn hs) hs⟩
  tidy := h.tidy
  discards := h.discards
  handled _ _ he := h.handled_save now _ _ _ he
  kept m hm uid hs ha := h.kept_save now text msgType table (mem_saved_of_submits hm hn hs) hs ha

theorem Inv.not_submits {uid : Bytes} (hnew : uid ∉ s.finished) : ∀ m ∈ s.saved, ¬ Submits m uid :=
  fun m hm hs => hnew (h.records m hm uid hs).2.2.2

theorem Inv.finish {uid : Bytes} (hu : RunUid uid) (hnew : uid ∉ s.finished) {queue : List Bytes}
    (hq : ∀ p ∈ queue, p ∈ s.compressQueue ∨ p = replayPath dataDir uid (str ".krpr")) :
    Inv dataDir { s with finished := uid :: s.finished, compressQueue := queue } where
  fits := h.fits
  records m hm uid' hs := by
    obtain ⟨ht, hty, hu', hfin⟩ := h.records m hm uid' hs
    exact ⟨ht, hty, hu', List.mem_cons_of_mem _ hfin⟩
  unsubmitted p hp := by
    rcases hq p hp with hp | rfl
    · obtain ⟨uid', hu', hfin, he, hns⟩ := h.unsubmitted p hp
      exact ⟨uid', hu', List.mem_cons_of_mem _ hfin, he, hns⟩
    · exact ⟨uid, hu, List.mem_cons_self, rfl, h.not_submits hnew⟩
  tidy := h.tidy
  discards := h.discards
  handled := h.handled
  kept := h.kept

/-- **A run is submitted**: its ADD_RECORD has a row. -/
theorem Inv.submit {r : AddRecord} (hu : RunUid r.localUid) (hnew : r.localUid ∉ s.finished)
    (hfile : (s.disk (replayPath dataDir r.localUid (str ".krpr"))).isSome) (now : ℤ) :
    Inv dataDir (({ s with finished := r.localUid :: s.finished } : Sys).save now (.addRecord r)
      msgAddRecord .outgoingQueue) where
  fits := h.fits.save now _ _ _
  records m hm uid hs := by
    rcases List.mem_append.mp hm with hm | hm
    · obtain ⟨ht, hty, hu', hfin⟩ := h.records m hm uid hs
      exact ⟨ht, hty, hu', List.mem_cons_of_mem _ hfin⟩
    · rw [List.mem_singleton.mp hm] at hs ⊢
      obtain ⟨r', hr, rfl⟩ := hs
      cases hr
      exact ⟨rfl, rfl, hu, List.mem_cons_self⟩
  unsubmitted p hp := by
    obtain ⟨uid, hu', hfin, he, hns⟩ := h.unsubmitted p hp
    refine ⟨uid, hu', List.mem_cons_of_mem _ hfin, he, fun m hm hs => ?_⟩
    rcases List.mem_append.mp hm with hm | hm
    · exact hns m hm hs
    · rw [List.mem_singleton.mp hm] at hs
      obtain ⟨r', hr, rfl⟩ := hs
      cases hr
      exact hnew hfin
  tidy := h.tidy
  discards := h.discards
  handled _ _ he := h.handled_save now _ _ _ he
  kept m hm uid hs ha := by
    rcases List.mem_append.mp hm with hm | hm
    · exact h.kept_save now _ _ _ hm hs ha
    · rw [List.mem_singleton.mp hm] at hs ⊢
      obtain ⟨r', hr, rfl⟩ := hs
      cases hr
      have hrow := row_save now (.addRecord r) msgAddRecord .outgoingQueue s.store
      exact ⟨hfile, Or.inl ⟨_, hrow, rfl⟩⟩

end Parts

/-! ### Steps of the storage -/

section Steps
variable {dataDir : Bytes} {s : Sys} (h : Inv dataDir s)
include h

/-- **A map change keeps the ADD_RECORD messages.** -/
theorem Inv.clear : Inv dataDir { s with store := kzStorageClear s.store } := by
  refine h.store h.fits.clear (fun m hm uid hs hr => Or.inl (hr.clear ?_)) fun uid _ hu =>
    hu.deleteRows rfl
  rintro ⟨ht, hid⟩
  obtain ⟨r, hr, hmid⟩ := List.mem_map.mp hid
  obtain ⟨hr, hdrop⟩ := List.mem_filter.mp hr
  rw [Bool.and_eq_true] at hdrop
  obtain ⟨m', hm', he⟩ := h.fits.entries r hr
  rw [Saved.IsEntry] at he
  have hmm : m' = m := h.fits.ids.eq hm' hm (by rw [he, ht]; exact of_decide_eq_true hdrop.2)
    (by rw [he]; exact hmid)
  have htype : r.msgType = msgAddRecord := by
    rw [← (h.records m hm uid hs).2.1, ← hmm, he]
  rw [dropsOnClear, htype] at hdrop
  exact absurd hdrop.1 (by decide)

theorem Inv.deleteMsg : Inv dataDir (deleteMsg s) := by
  unfold System.deleteMsg
  split
  · rename_i id hh
    have hs : Inv dataDir { s with store :=
        if 0 < id then kzStorageDelete id .outgoingQueue s.store else s.store } := by
      split_ifs with h0
      · refine h.store (h.fits.delete id _) (fun m hm uid hs hr => ?_) fun uid _ hu =>
          hu.deleteRows rfl
        by_cases hid : m.id = id
        · -- the message that goes has handed its run on
          refine Or.inr ?_
          rcases h.handled none id hh with h0' | ⟨m', hm', ht', hid', hs'⟩
          · omega
          · have hmm := h.fits.ids.eq hm' hm (by rw [ht', (h.records m hm uid hs).1])
              (by rw [hid', hid])
            exact hs' uid (hmm ▸ hs)
        · exact Or.inl (hr.delete fun he => hid he.2)
      · exact h
    exact hs.callbacks (fun uid hd => List.mem_append_left _ (by simpa using hd))
      fun fn id he => by cases he
  · exact h

theorem Inv.deleteByValue {uid : Bytes} (ha : uid ∈ s.answered) :
    Inv dataDir { s with store := kzStorageDeleteByValue (.uid uid) .uploadQueue s.store } := by
  refine h.store (h.fits.deleteByValue _ _) (fun m hm uid' hs hr => Or.inl (hr.deleteByValue ?_))
    fun uid' hna hu => hu.deleteByValue fun he => hna (he ▸ ha)
  intro he
  rw [(h.records m hm uid' hs).1] at he
  cases he.1

theorem Inv.retry {store : Store Text} (hf : Fits s.saved store)
    (ht : store.tables = s.store.tables) : Inv dataDir { s with store } := by
  have hrow {m : Saved Text} (hr : HasRow s.store m) : HasRow store m := by
    unfold HasRow
    rwa [ht]
  refine h.store hf (fun m _ uid _ hr => Or.inl (hrow hr)) ?_
  rintro uid - ⟨id, msgType, hr⟩
  exact ⟨id, msgType, hrow hr⟩

end Steps

end KzGlobal.Submit.Custody
