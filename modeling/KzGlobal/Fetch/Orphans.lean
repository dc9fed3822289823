import KzGlobal.Fetch.Downloads

/-! # Orphaned fetches

A pending fetch is in hands while the storage has its GET_REPLAY or a download of its map is under
way (`NoOrphan`). The WebSocket thread deletes a row after the handler of the reply, so what counts
is also the state after that deletion: a map is held when it has a row that is not about to be
deleted, or a download (`Held`). Every step keeps all pending maps held but for the ones that
`Answers` is about: a reply that does not lead to the map of the request, and the deletions from
outside. -/

namespace KzGlobal.Fetch.Orphans

open KzGlobal.Lib.Autoincrement KzGlobal.Lib.Runs KzGlobal.Krp.Format KzGlobal.Replay.Text
open KzGlobal.Storage.Queue KzGlobal.Storage.Ledger KzGlobal.Fetch.Reply KzGlobal.Fetch.Downloads

/-! ### The rows of the GET_REPLAYs -/

section Rows
variable {s s' : Store Request} {mapname : Bytes} {id msgId : ℕ}

theorem Asked.congr (h : s'.tables = s.tables) : Asked s' mapname id ↔ Asked s mapname id := by
  rw [Asked, h]
  exact Iff.rfl

theorem asked_deleteRows {table : StorageTable} {p : ℕ × Stored Request → Bool}
    (hs : s'.tables = s.tables) :
    Asked (s'.mapTable table fun t => t.deleteWhere p) mapname id ↔
      ∃ r ∈ (s.tables .outgoingQueue).rows, (.outgoingQueue = table → p r = false) ∧
        r.1 = id ∧ r.2.msgType = msgGetReplay ∧ r.2.text = .getReplay mapname := by
  unfold Asked
  constructor
  · rintro ⟨r, hr, h⟩
    obtain ⟨hr, hp⟩ := (mem_rows_deleteRows hs).mp hr
    exact ⟨r, hr, hp, h⟩
  · rintro ⟨r, hr, hp, h⟩
    exact ⟨r, (mem_rows_deleteRows hs).mpr ⟨hr, hp⟩, h⟩

theorem asked_delete_iff : Asked (kzStorageDelete msgId .outgoingQueue s) mapname id ↔
    Asked s mapname id ∧ id ≠ msgId := by
  refine (asked_deleteRows (s := s) rfl).trans ?_
  constructor
  · rintro ⟨r, hr, hp, rfl, h⟩
    exact ⟨⟨r, hr, rfl, h⟩, by simpa using hp rfl⟩
  · rintro ⟨⟨r, hr, rfl, h⟩, hne⟩
    exact ⟨r, hr, fun _ => by simpa using hne, rfl, h⟩

theorem asked_deleteUpload_iff {p : ℕ × Stored Request → Bool} (hs : s'.tables = s.tables) :
    Asked (s'.mapTable .uploadQueue fun t => t.deleteWhere p) mapname id ↔ Asked s mapname id := by
  refine (asked_deleteRows hs).trans ?_
  constructor
  · rintro ⟨r, hr, -, h⟩
    exact ⟨r, hr, h⟩
  · rintro ⟨r, hr, h⟩
    exact ⟨r, hr, fun h => StorageTable.noConfusion h, h⟩

theorem not_asked_deleteAll : ¬ Asked (kzStorageDeleteAll .outgoingQueue s) mapname id := by
  intro h
  obtain ⟨r, -, hp, -⟩ := (asked_deleteRows (s := s) rfl).mp h
  cases hp rfl

theorem asked_clear_iff {log : List (Saved Request)} (hf : Fits log s) :
    Asked (kzStorageClear s) mapname id ↔ Asked s mapname id := by
  refine (asked_deleteRows (s := s) rfl).trans ?_
  constructor
  · rintro ⟨r, hr, -, h⟩
    exact ⟨r, hr, h⟩
  · rintro ⟨r, hr, hid, htype, htext⟩
    refine ⟨r, hr, fun _ => ?_, hid, htype, htext⟩
    rw [decide_eq_false_iff_not]
    intro hmem
    obtain ⟨e, he, heid⟩ := List.mem_map.mp hmem
    obtain ⟨he, hdrops⟩ := List.mem_filter.mp he
    rw [Bool.and_eq_true, decide_eq_true_iff] at hdrops
    have hagree := (hf.agree hr he (by rw [heid, hdrops.2])).1
    have htypes := hdrops.1
    rw [dropsOnClear, decide_eq_true_iff, hagree, htype] at htypes
    revert htypes
    decide

theorem asked_save_iff {now : ℤ} {text : Request} {msgType : ℕ} {table : StorageTable} :
    Asked (kzStorageSave now text msgType (kzStorageGetNextId table s) table s) mapname id ↔
      Asked s mapname id ∨ table = .outgoingQueue ∧ id = kzStorageGetNextId table s ∧
        msgType = msgGetReplay ∧ text = .getReplay mapname := by
  constructor
  · rintro ⟨r, hr, hid, h⟩
    rcases mem_rows_of_save hr with hr | ⟨ht, rfl⟩
    · exact Or.inl ⟨r, hr, hid, h⟩
    · exact Or.inr ⟨ht.symm, hid.symm, h⟩
  · rintro (⟨r, hr, h⟩ | ⟨rfl, rfl, rfl, rfl⟩)
    · exact ⟨r, mem_rows_save hr, h⟩
    · exact ⟨_, row_save .., rfl, rfl, rfl⟩

end Rows

/-! ### Fetches in hands -/

variable {s s' : FetchState} {mapname : Bytes}

/-- A download of the map runs, or its callback is queued. -/
def Waits (mapname : Bytes) (s : FetchState) : Prop :=
  (∃ d ∈ s.downloads, d.mapname = mapname) ∨ ∃ d ∈ s.incoming, d.mapname = mapname

/-- Every pending fetch has a GET_REPLAY in the storage, a download or a callback. -/
def NoOrphan (s : FetchState) : Prop :=
  ∀ mapname ∈ s.fetchPending, (∃ id, Asked s.store mapname id) ∨ Waits mapname s

/-- What is left of a map after the deletion that is about to happen. -/
def Held (mapname : Bytes) (s : FetchState) : Prop :=
  (∃ id, Asked s.store mapname id ∧ s.deleting ≠ some id) ∨ Waits mapname s

/-- A map is held without the row of an id. -/
def HeldBeside (msgId : ℕ) (mapname : Bytes) (s : FetchState) : Prop :=
  (∃ id, Asked s.store mapname id ∧ s.deleting ≠ some id ∧ id ≠ msgId) ∨ Waits mapname s

/-- `Held` of every map that is asked for. -/
def AllHeld (s : FetchState) : Prop := ∀ mapname ∈ s.fetchPending, Held mapname s

theorem waits_download {k uid : Bytes} :
    Waits mapname { s with downloads := s.downloads ++ [⟨k, uid⟩] } ↔
    Waits mapname s ∨ mapname = k := by
  unfold Waits
  constructor
  · rintro (⟨d, hd, rfl⟩ | hw)
    · rcases List.mem_append.mp hd with hd | hd
      · exact Or.inl (Or.inl ⟨d, hd, rfl⟩)
      · rw [List.mem_singleton.mp hd]
        exact Or.inr rfl
    · exact Or.inl (Or.inr hw)
  · rintro ((⟨d, hd, rfl⟩ | hw) | rfl)
    · exact Or.inl ⟨d, List.mem_append_left _ hd, rfl⟩
    · exact Or.inr hw
    · exact Or.inl ⟨⟨mapname, uid⟩, List.mem_append_right _ (List.mem_singleton_self _), rfl⟩

theorem waits_deleteMsg : Waits mapname (deleteMsg s) ↔ Waits mapname s := by
  unfold deleteMsg
  split
  · exact Iff.rfl
  · exact Iff.rfl

theorem asked_deleteMsg {id : ℕ} :
    Asked (deleteMsg s).store mapname id ↔ Asked s.store mapname id ∧ s.deleting ≠ some id := by
  unfold deleteMsg
  split
  · next msgId hdel =>
    rw [hdel, Ne, Option.some.injEq, eq_comm]
    exact asked_delete_iff
  · next hdel =>
    rw [hdel]
    exact (and_iff_left (Option.some_ne_none id).symm).symm

theorem fetchPending_deleteMsg (s : FetchState) : (deleteMsg s).fetchPending = s.fetchPending := by
  unfold deleteMsg
  split
  · rfl
  · rfl

theorem noOrphan_deleteMsg : NoOrphan (deleteMsg s) ↔ AllHeld s := by
  simp only [NoOrphan, AllHeld, Held, fetchPending_deleteMsg, asked_deleteMsg, waits_deleteMsg]

/-- **All pending maps are held** where none is an orphan, now or after the deletion. -/
theorem allHeld_iff : AllHeld s ↔ NoOrphan s ∧ NoOrphan (next s .deleteMsg) := by
  rw [next, noOrphan_deleteMsg, iff_and_self]
  intro h m hm
  rcases h m hm with ⟨id, hid, -⟩ | hw
  · exact Or.inl ⟨id, hid⟩
  · exact Or.inr hw

theorem allHeld_alike (h : Alike s s') : AllHeld s' ↔ AllHeld s := by
  simp only [AllHeld, Held, Waits, h.store, h.fetchPending, h.downloads, h.incoming, h.deleting]

theorem Held.congr (h : Held mapname s)
    (hasked : ∀ id, Asked s.store mapname id → Asked s'.store mapname id)
    (hdel : s'.deleting = s.deleting) (hwaits : Waits mapname s → Waits mapname s') :
    Held mapname s' := by
  rcases h with ⟨id, hid, hne⟩ | hw
  · refine Or.inl ⟨id, hasked id hid, ?_⟩
    rwa [hdel]
  · exact Or.inr (hwaits hw)

theorem AllHeld.congr (h : AllHeld s) (hpending : s'.fetchPending ⊆ s.fetchPending)
    (hasked : ∀ mapname id, Asked s.store mapname id → Asked s'.store mapname id)
    (hdel : s'.deleting = s.deleting)
    (hwaits : ∀ mapname ∈ s'.fetchPending, Waits mapname s → Waits mapname s') : AllHeld s' :=
  fun m hm =>
  (h m (hpending hm)).congr (hasked m) hdel (hwaits m hm)

/-! ### Steps -/

section Steps
variable (env : Env)

/-- The id of the GET_REPLAY of a map is not the one that is about to be deleted, or something else
holds the map. -/
def FreshId (mapname : Bytes) (s : FetchState) : Prop :=
  s.deleting ≠ some (kzStorageGetNextId .outgoingQueue s.store) ∨ Held mapname s

theorem AllHeld.save (h : AllHeld s) (msgType : ℕ) (table : StorageTable) :
    AllHeld (s.save env .other msgType table) :=
  h.congr (fun _ hm => hm) (fun _ _ hid => asked_save_iff.mpr (Or.inl hid)) rfl fun _ _ hw => hw

theorem allHeld_tryFetch (h : AllHeld s) (mapname : Bytes) :
    AllHeld (kzWsTryFetchReplay env mapname s) ↔
    (fetches env mapname s = true → FreshId mapname s) := by
  unfold kzWsTryFetchReplay
  by_cases hf : fetches env mapname s = true
  · rw [if_pos hf]
    constructor
    · intro hall _
      rcases hall mapname (Finset.mem_insert_self ..) with ⟨id, hid, hne⟩ | hw
      · rcases asked_save_iff.mp hid with hid | ⟨-, rfl, -⟩
        · exact Or.inr (Or.inl ⟨id, hid, hne⟩)
        · exact Or.inl hne
      · exact Or.inr (Or.inr hw)
    · intro hfresh m hm
      have keep {m : Bytes} (hm : Held m s) :
          Held m (FetchState.save env (.getReplay mapname) msgGetReplay
          .outgoingQueue { s with fetchPending := insert mapname s.fetchPending }) :=
        hm.congr (fun _ hid => asked_save_iff.mpr (Or.inl hid)) rfl fun hw => hw
      rcases Finset.mem_insert.mp hm with rfl | hm
      · rcases hfresh hf with hne | hheld
        · exact Or.inl ⟨_, asked_save_iff.mpr (Or.inr ⟨rfl, rfl, rfl, rfl⟩), hne⟩
        · exact keep hheld
      · exact keep (h m hm)
  · rw [if_neg hf]
    exact iff_of_true h fun hf' => absurd hf' hf

theorem AllHeld.mapLoaded (h : AllHeld s) (force : Bool) :
    AllHeld (kzWsOnMapLoaded env force s) := by
  by_cases ha : Announces force s
  · have hfilter : AllHeld { s with fetchPending := s.fetchPending.filter (· = s.mapname) } :=
      h.congr (Finset.filter_subset ..) (fun _ _ hid => hid) rfl fun _ _ hw => hw
    refine (allHeld_alike (alike_onMapLoaded env ha)).mpr ?_
    split_ifs
    · exact hfilter.save env msgMapChange .outgoingQueue
    · exact hfilter
  · rwa [onMapLoaded_of_not env ha]

theorem held_answered {msgId : ℕ} (hdel : s.deleting = none) : Held mapname (s.answered msgId) ↔
    Held mapname s ∧ (0 < msgId → Asked s.store mapname msgId → HeldBeside msgId mapname s) := by
  constructor
  · rintro (⟨id, hid, hne⟩ | hw)
    · have hnone : s.deleting ≠ some id := by
        rw [hdel]
        exact (Option.some_ne_none id).symm
      refine ⟨Or.inl ⟨id, hid, hnone⟩, fun hpos _ => Or.inl ⟨id, hid, hnone, ?_⟩⟩
      rintro rfl
      exact hne (if_pos hpos)
    · exact ⟨Or.inr hw, fun _ _ => Or.inr hw⟩
  · rintro ⟨⟨id, hid, -⟩ | hw, hbeside⟩
    · by_cases heq : 0 < msgId ∧ id = msgId
      · obtain ⟨hpos, rfl⟩ := heq
        rcases hbeside hpos hid with ⟨id', hid', -, hne⟩ | hw
        · refine Or.inl ⟨id', hid', fun h => hne ?_⟩
          rw [FetchState.answered, if_pos hpos] at h
          exact (Option.some.inj h).symm
        · exact Or.inr hw
      · refine Or.inl ⟨id, hid, fun h => heq ?_⟩
        unfold FetchState.answered at h
        dsimp only at h
        split_ifs at h with hpos
        exact ⟨hpos, (Option.some.inj h).symm⟩
    · exact Or.inr hw

/-- **A reply** that deals with the maps it names, and with no other, leaves all maps held exactly
where it names the maps whose row it deletes, or something else holds them. -/
theorem allHeld_reply {s₁ : FetchState} {msgId : ℕ} {Names : Bytes → Prop} (h : AllHeld s)
    (hdel : s.deleting = none) (hstore : s₁.store = s.store) (hdel₁ : s₁.deleting = none)
    (hsub : s₁.fetchPending ⊆ s.fetchPending)
    (hother : ∀ m ∈ s.fetchPending, ¬ Names m → m ∈ s₁.fetchPending ∧ (Waits m s₁ ↔ Waits m s))
    (hnames : ∀ m ∈ s₁.fetchPending, Names m → Waits m s₁) :
    AllHeld (s₁.answered msgId) ↔ (0 < msgId → ∀ m ∈ s.fetchPending, Asked s.store m msgId →
      Names m ∨ HeldBeside msgId m s) := by
  have held_iff {m : Bytes} (hw : Waits m s₁ ↔ Waits m s) : Held m s₁ ↔ Held m s := by
    rw [Held, Held, hw, hstore, hdel₁, hdel]
  have beside_iff {m : Bytes} (hw : Waits m s₁ ↔ Waits m s) :
      HeldBeside msgId m s₁ ↔ HeldBeside msgId m s := by
    rw [HeldBeside, HeldBeside, hw, hstore, hdel₁, hdel]
  constructor
  · intro hall hpos m hm hasked
    by_cases hname : Names m
    · exact Or.inl hname
    · obtain ⟨hm₁, hw⟩ := hother m hm hname
      have hbeside := ((held_answered hdel₁).mp (hall m hm₁)).2 hpos
      rw [hstore, beside_iff hw] at hbeside
      exact Or.inr (hbeside hasked)
  · intro hreply m hm₁
    by_cases hname : Names m
    · exact Or.inr (hnames m hm₁ hname)
    · obtain ⟨-, hw⟩ := hother m (hsub hm₁) hname
      refine (held_answered hdel₁).mpr ⟨(held_iff hw).mpr (h m (hsub hm₁)), fun hpos hasked => ?_⟩
      rw [hstore] at hasked
      exact (beside_iff hw).mpr ((hreply hpos m (hsub hm₁) hasked).resolve_left hname)

theorem alike_clear (hn : Named s) (hs : Alike (kzWsClearReplayFetchPending mapname s) s') :
    s'.store = s.store ∧ s'.deleting = s.deleting ∧ s'.fetchPending = s.fetchPending.erase mapname ∧
      s'.downloads = s.downloads ∧ s'.incoming = s.incoming := by
  rw [clear_eq hn] at hs
  exact ⟨hs.store, hs.deleting, hs.fetchPending, hs.downloads, hs.incoming⟩

theorem allHeld_cleared {msgId : ℕ} {Names : Bytes → Prop} (hn : Named s) (h : AllHeld s)
    (hdel : s.deleting = none) (hs : Alike (kzWsClearReplayFetchPending mapname s) s')
    (hnames : ∀ m, Names m ↔ m = mapname) :
    AllHeld (s'.answered msgId) ↔ (0 < msgId → ∀ m ∈ s.fetchPending, Asked s.store m msgId →
      Names m ∨ HeldBeside msgId m s) := by
  obtain ⟨hstore, hdel', hpending, hdownloads, hincoming⟩ := alike_clear hn hs
  refine allHeld_reply h hdel hstore (hdel'.trans hdel) ?_ ?_ ?_
  · rw [hpending]
    exact Finset.erase_subset ..
  · intro m hm hname
    rw [hnames] at hname
    rw [hpending, Waits, Waits, hdownloads, hincoming]
    exact ⟨Finset.mem_erase.mpr ⟨hname, hm⟩, Iff.rfl⟩
  · intro m hm hname
    rw [hpending] at hm
    exact absurd ((hnames m).mp hname) (Finset.ne_of_mem_erase hm)

theorem allHeld_getReplayAck (hn : Named s) (h : AllHeld s) (hdel : s.deleting = none)
    (url localUid mapName : Field) (msgId : ℕ) :
    AllHeld
        ((applyOutcome (kzWsAckGetReplay env.mapHasProWr url localUid mapName) s).answered msgId) ↔
      (0 < msgId → ∀ m ∈ s.fetchPending, Asked s.store m msgId →
        mapName = .text m ∨ HeldBeside msgId m s) := by
  by_cases htext : ∃ k, mapName = .text k
  · obtain ⟨k, rfl⟩ := htext
    have hnames : ∀ m, Field.text k = .text m ↔ m = k := fun m => by rw [Field.text.injEq, eq_comm]
    by_cases hstarts : Starts env.mapHasProWr url localUid k
    · obtain ⟨uid, ho⟩ := outcome_of_starts hstarts
      rw [ho]
      change AllHeld (FetchState.answered msgId { s with downloads := s.downloads ++ [⟨k, uid⟩] }) ↔
        _
      refine allHeld_reply h hdel rfl hdel (fun _ hm => hm) ?_ ?_
      · intro m hm hname
        rw [hnames] at hname
        exact ⟨hm, waits_download.trans (or_iff_left hname)⟩
      · intro m hm hname
        rw [hnames] at hname
        exact Or.inl ⟨⟨k, uid⟩, List.mem_append_right _ (List.mem_singleton_self _), hname.symm⟩
    · exact allHeld_cleared hn h hdel (alike_applyOutcome env hstarts) hnames
  · rw [not_exists] at htext
    rw [applyOutcome_no_map env htext]
    refine allHeld_reply h hdel rfl hdel (fun _ hm => hm) (fun m hm _ => ⟨hm, Iff.rfl⟩) ?_
    intro m _ hname
    exact absurd hname (htext m)

theorem allHeld_errorMsg (hn : Named s) (h : AllHeld s) (hdel : s.deleting = none)
    (hasMessage : Bool)
    (msgId : ℕ) : AllHeld ((kzWsAckError env hasMessage msgId s).answered msgId) ↔
      (0 < msgId → ∀ m ∈ s.fetchPending, Asked s.store m msgId →
        hasMessage = true ∨ HeldBeside msgId m s) := by
  have hreply : AllHeld ((kzWsAckError env hasMessage msgId s).answered msgId) ↔
      (0 < msgId → ∀ m ∈ s.fetchPending, Asked s.store m msgId →
        errorMap hasMessage msgId s = some m ∨ HeldBeside msgId m s) := by
    cases hmap : errorMap hasMessage msgId s with
    | none =>
      rw [ackError_none env hmap]
      refine allHeld_reply h hdel rfl hdel (fun _ hm => hm) (fun m hm _ => ⟨hm, Iff.rfl⟩) ?_
      intro m _ hname
      cases hname
    | some k =>
      exact allHeld_cleared hn h hdel (alike_ackError env hmap) fun m => by
        rw [Option.some.injEq, eq_comm]
  rw [hreply]
  refine imp_congr_right fun hpos => forall₂_congr fun m _ => imp_congr_right fun hasked =>
    or_congr_left ?_
  rw [errorMap_iff, and_iff_left ⟨hpos, hasked⟩]

theorem AllHeld.deleteMsg (h : AllHeld s) : AllHeld (deleteMsg s) := by
  have hdel : (Downloads.deleteMsg s).deleting = none := by
    unfold Downloads.deleteMsg
    split
    · rfl
    · next hdel => exact hdel
  intro m hm
  rw [fetchPending_deleteMsg] at hm
  rcases h m hm with ⟨id, hid, hne⟩ | hw
  · refine Or.inl ⟨id, asked_deleteMsg.mpr ⟨hid, hne⟩, ?_⟩
    rw [hdel]
    exact (Option.some_ne_none id).symm
  · exact Or.inr (waits_deleteMsg.mpr hw)

theorem AllHeld.cleared {s₀ : FetchState} (h : AllHeld s) (hn : Named s₀)
    (hs : Alike (kzWsClearReplayFetchPending mapname s₀) s') (hstore : s₀.store = s.store)
    (hdel : s₀.deleting = s.deleting) (hpending : s₀.fetchPending = s.fetchPending)
    (hwaits : ∀ m, m ≠ mapname → Waits m s → Waits m s₀) : AllHeld s' := by
  obtain ⟨hstore', hdel', hpending', hdownloads, hincoming⟩ := alike_clear hn hs
  refine h.congr ?_ (fun _ _ hid => ?_) (hdel'.trans hdel) fun m hm hw => ?_
  · rw [hpending', hpending]
    exact Finset.erase_subset ..
  · rwa [hstore', hstore]
  · rw [hpending'] at hm
    rw [Waits, hdownloads, hincoming]
    exact hwaits m (Finset.ne_of_mem_erase hm) hw

theorem AllHeld.downloadEnd (h : AllHeld s) (hn : Named s) (i : ℕ) (ok pushed : Bool) :
    AllHeld (downloadEnd env i ok pushed s) := by
  cases hd : s.downloads[i]? with
  | none =>
    unfold Downloads.downloadEnd
    rwa [hd]
  | some d =>
    have hkeep {m : Bytes} (hne : m ≠ d.mapname) (hd' : ∃ d' ∈ s.downloads, d'.mapname = m) :
        ∃ d' ∈ s.downloads.eraseIdx i, d'.mapname = m := by
      obtain ⟨d', hmem, rfl⟩ := hd'
      obtain ⟨j, hj⟩ := List.mem_iff_getElem?.mp hmem
      refine ⟨d', List.mem_eraseIdx_iff_getElem?.mpr ⟨j, ?_, hj⟩, rfl⟩
      rintro rfl
      rw [hd] at hj
      exact hne (by rw [Option.some.inj hj])
    cases pushed with
    | true =>
      rw [downloadEnd_pushed env ok hd]
      refine h.congr (fun _ hm => hm) (fun _ _ hid => hid) rfl fun m _ hw => ?_
      by_cases hm : m = d.mapname
      · exact Or.inr ⟨⟨d, ok⟩, List.mem_append_right _ (List.mem_singleton_self _), hm.symm⟩
      · rcases hw with hw | ⟨c, hc, hcm⟩
        · exact Or.inl (hkeep hm hw)
        · exact Or.inr ⟨c, List.mem_append_left _ hc, hcm⟩
    | false =>
      have hdrop : Named { s with downloads := s.downloads.eraseIdx i } := hn
      exact h.cleared hdrop (alike_downloadEnd env ok hd) rfl rfl rfl fun m hne hw =>
        hw.imp_left (hkeep hne)

theorem AllHeld.runCallback (h : AllHeld s) (hn : Named s) (written : Bool) :
    AllHeld (runCallback env written s) := by
  cases hin : s.incoming with
  | nil =>
    unfold Downloads.runCallback
    rwa [hin]
  | cons d rest =>
    have hpop : Named { s with incoming := rest } := hn
    refine h.cleared hpop (alike_runCallback env written hin) rfl rfl rfl fun m hne hw =>
      hw.imp_right ?_
    rintro ⟨c, hc, hcm⟩
    rw [hin] at hc
    rcases List.mem_cons.mp hc with rfl | hc
    · exact absurd hcm.symm hne
    · exact ⟨c, hc, hcm⟩

theorem allHeld_downloadRetries (h : AllHeld s) : AllHeld (kzWsProcessReplayDownloadRetries env s) ↔
    (env.connected = true → s.mapname ∈ dueMaps env s → fetches env s.mapname s = true →
      FreshId s.mapname s) := by
  rw [allHeld_alike (alike_processRetries env s)]
  by_cases hdue : env.connected = true ∧ s.mapname ∈ dueMaps env s
  · rw [if_pos hdue, allHeld_tryFetch env h]
    exact ⟨fun hfresh _ _ => hfresh, fun hfresh => hfresh hdue.1 hdue.2⟩
  · rw [if_neg hdue]
    exact iff_of_true h fun hconn hmem => absurd ⟨hconn, hmem⟩ hdue

/-! ### Deletions from outside -/

theorem allHeld_delete {msgId : ℕ} (h : AllHeld s) :
    AllHeld { s with store := kzStorageDelete msgId .outgoingQueue s.store } ↔
      ∀ m ∈ s.fetchPending, Asked s.store m msgId → HeldBeside msgId m s := by
  have held_iff (m : Bytes) :
      Held m { s with store := kzStorageDelete msgId .outgoingQueue s.store } ↔
      HeldBeside msgId m s := by
    refine or_congr_left (exists_congr fun id => ?_)
    rw [asked_delete_iff, and_assoc, and_comm (a := id ≠ msgId)]
  constructor
  · intro hall m hm _
    exact (held_iff m).mp (hall m hm)
  · intro hbeside m hm
    refine (held_iff m).mpr ?_
    rcases h m hm with ⟨id, hid, hne⟩ | hw
    · by_cases heq : id = msgId
      · rw [heq] at hid
        exact hbeside m hm hid
      · exact Or.inl ⟨id, hid, hne, heq⟩
    · exact Or.inr hw

theorem allHeld_deleteAll : AllHeld { s with store := kzStorageDeleteAll .outgoingQueue s.store } ↔
    ∀ m ∈ s.fetchPending, Waits m s := by
  refine forall₂_congr fun m _ => or_iff_right ?_
  rintro ⟨id, hid, -⟩
  exact not_asked_deleteAll hid

end Steps

/-! ### Runs -/

/-- **The steps that leave every pending map held.** A GET_REPLAY_ACK names the map of the request
whose row is deleted with it, an ERROR_MSG for one has a message, and a deletion from outside takes
no row that a pending map needs. -/
def Answers (s : FetchState) : Event → Prop
  | .tryFetch env mapname => fetches env mapname s = true → FreshId mapname s
  | .downloadRetries env => env.connected = true → s.mapname ∈ dueMaps env s →
      fetches env s.mapname s = true → FreshId s.mapname s
  | .getReplayAck _ _ _ mapName msgId => s.deleting = none → 0 < msgId → ∀ m ∈ s.fetchPending,
      Asked s.store m msgId → mapName = .text m ∨ HeldBeside msgId m s
  | .errorMsg _ hasMessage msgId => s.deleting = none → 0 < msgId → ∀ m ∈ s.fetchPending,
      Asked s.store m msgId → hasMessage = true ∨ HeldBeside msgId m s
  | .storageDelete .outgoingQueue msgId => ∀ m ∈ s.fetchPending, Asked s.store m msgId →
    HeldBeside msgId m s
  | .storageDeleteAll .outgoingQueue => ∀ m ∈ s.fetchPending, Waits m s
  | _ => True

theorem allHeld_next_iff (s : FetchState) (e : Event) (hs : Reached s) (h : AllHeld s) :
    AllHeld (next s e) ↔ Answers s e := by
  have same {store : Store Request}
      (hasked : ∀ mapname id, Asked s.store mapname id → Asked store mapname id) :
      AllHeld { s with store := store } := h.congr (fun _ hm => hm) hasked rfl fun _ _ hw => hw
  cases e with
  | changeMap mapname => exact iff_of_true h trivial
  | mapLoaded env force => exact iff_of_true (h.mapLoaded env force) trivial
  | tryFetch env mapname => exact allHeld_tryFetch env h mapname
  | saveOther env msgType table => exact iff_of_true (h.save env msgType table) trivial
  | getReplayAck env url localUid mapName msgId =>
    unfold next onGetReplayAck
    exact handled_iff h fun hdel =>
      allHeld_getReplayAck env hs.named h hdel url localUid mapName msgId
  | errorMsg env hasMessage msgId =>
    unfold next onErrorMsg
    exact handled_iff h fun hdel => allHeld_errorMsg env hs.named h hdel hasMessage msgId
  | deleteMsg => exact iff_of_true h.deleteMsg trivial
  | downloadEnd env i ok pushed =>
    exact iff_of_true (h.downloadEnd env hs.named i ok pushed) trivial
  | runCallback env written => exact iff_of_true (h.runCallback env hs.named written) trivial
  | downloadRetries env => exact allHeld_downloadRetries env h
  | retryPass delay maxRetries ts => exact iff_of_true (same fun _ _ hid => hid) trivial
  | storageClear =>
    obtain ⟨log, hlog⟩ := hs.ledger
    exact iff_of_true (same fun _ _ hid => (asked_clear_iff hlog).mpr hid) trivial
  | storageLoad => exact iff_of_true (same fun _ _ hid => hid) trivial
  | requeueAllPending => exact iff_of_true (same fun _ _ hid => hid) trivial
  | storageRequeue msgId => exact iff_of_true (same fun _ _ hid => hid) trivial
  | storageDelete table msgId =>
    cases table with
    | outgoingQueue => exact allHeld_delete h
    | uploadQueue =>
      exact iff_of_true (same fun _ _ hid => (asked_deleteUpload_iff rfl).mpr hid) trivial
  | storageDeleteAll table =>
    cases table with
    | outgoingQueue => exact allHeld_deleteAll
    | uploadQueue =>
      exact iff_of_true (same fun _ _ hid => (asked_deleteUpload_iff rfl).mpr hid) trivial

/-- **No fetch is orphaned** in the states of a run, nor after the deletion of a row where one is
under way, exactly where every step answers the pending maps. -/
theorem noOrphan_iff (tables : StorageTable → Table (Stored Request)) (es : List Event) :
    (∀ es', es' <+: es → NoOrphan (run next (.init tables) es') ∧
      NoOrphan (run next (.init tables) (es' ++ [.deleteMsg]))) ↔
      Along next Answers (.init tables) es := by
  have hinit : AllHeld (.init tables) := fun m hm => absurd hm (Finset.notMem_empty m)
  rw [← forall_prefix_iff (fun _ e hs => Reached.next hs e) allHeld_next_iff
    (Reached.init tables) hinit]
  refine forall₂_congr fun es' _ => ?_
  rw [allHeld_iff, run, run, List.foldl_append]
  rfl

/-! ### Runs that leave an orphan -/

section Sample

/-- A map is fetched, and the reply comes without `data.map_name`. -/
def sampleNameless : List Event :=
  [.tryFetch sampleEnv (str "m"), .getReplayAck sampleEnv (.text (str "https://h/r"))
    (.text (str "0_a")) .missing 1, .deleteMsg]

/-- The reply is an ERROR_MSG without a message. -/
def sampleSilent : List Event :=
  [.tryFetch sampleEnv (str "m"), .errorMsg sampleEnv false 1, .deleteMsg]

theorem orphan_of_empty {s : FetchState} {m : Bytes} (hm : m ∈ s.fetchPending)
    (hrows : (s.store.tables .outgoingQueue).rows = []) (hdownloads : s.downloads = [])
    (hincoming : s.incoming = []) : ¬ NoOrphan s := by
  intro h
  rcases h m hm with ⟨id, r, hr, -⟩ | ⟨d, hd, -⟩ | ⟨d, hd, -⟩
  · rw [hrows] at hr
    cases hr
  · rw [hdownloads] at hd
    cases hd
  · rw [hincoming] at hd
    cases hd

/-- **The map stays in the pending fetches** with no row and no download, when the reply names no
map and when the ERROR_MSG has no message. -/
theorem orphans_left : ¬ NoOrphan (run next (.init fun _ => .empty) sampleNameless) ∧
    ¬ NoOrphan (run next (.init fun _ => .empty) sampleSilent) :=
  ⟨orphan_of_empty (m := str "m") (by decide) rfl rfl rfl, orphan_of_empty (m := str "m")
    (by decide) rfl rfl rfl⟩

end Sample

end KzGlobal.Fetch.Orphans
