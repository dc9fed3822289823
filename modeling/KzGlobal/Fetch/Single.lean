import KzGlobal.Fetch.Downloads

/-! # One download at a time

The downloads of a map that run and the bodies whose callback has not run yet are counted together
(`bodies`). In a state that is `AtMostOne` no map has more than one, and only pending maps have any.
The pending fetches are looked at when a GET_REPLAY is sent, while it is the reply that starts the
download: a second reply starts a second one, and a map change forgets the maps whose downloads
still run. -/

namespace KzGlobal.Fetch.Single

open KzGlobal.Lib.Autoincrement KzGlobal.Lib.Runs KzGlobal.Krp.Format KzGlobal.Replay.Text
open KzGlobal.Storage.Queue KzGlobal.Fetch.Reply KzGlobal.Fetch.Downloads

variable {s s' : FetchState} {mapname : Bytes}

/-- The downloads of a map and its bodies in the incoming queue. -/
def bodies (mapname : Bytes) (s : FetchState) : ℕ :=
  s.downloads.countP (·.mapname = mapname) + s.incoming.countP (·.mapname = mapname)

/-- At most one download a map, and one only while the map is pending. -/
def AtMostOne (s : FetchState) : Prop :=
  ∀ mapname, bodies mapname s ≤ 1 ∧ (0 < bodies mapname s → mapname ∈ s.fetchPending)

theorem atMostOne_alike (h : Alike s s') : AtMostOne s' ↔ AtMostOne s := by
  simp only [AtMostOne, bodies, h.fetchPending, h.downloads, h.incoming]

theorem AtMostOne.congr (h : AtMostOne s)
    (hbodies : ∀ mapname, bodies mapname s' ≤ bodies mapname s)
    (hpending : ∀ mapname ∈ s.fetchPending, 0 < bodies mapname s' → mapname ∈ s'.fetchPending) :
    AtMostOne s' := by
  intro m
  refine ⟨(hbodies m).trans (h m).1, fun hpos => hpending m ?_ hpos⟩
  exact (h m).2 (hpos.trans_le (hbodies m))

theorem atMostOne_clear (hn : Named s)
    (hothers : ∀ m ≠ mapname, bodies m s ≤ 1 ∧ (0 < bodies m s → m ∈ s.fetchPending)) :
    AtMostOne (kzWsClearReplayFetchPending mapname s) ↔ bodies mapname s = 0 := by
  rw [clear_eq hn]
  constructor
  · intro h
    by_contra hne
    exact Finset.notMem_erase mapname _ ((h mapname).2 (Nat.pos_of_ne_zero hne))
  · intro hzero m
    by_cases hm : m = mapname
    · subst hm
      have hzero' : bodies m { s with fetchPending := s.fetchPending.erase m } = 0 := hzero
      rw [hzero']
      exact ⟨Nat.zero_le 1, fun h => absurd h (Nat.lt_irrefl 0)⟩
    · obtain ⟨hle, hpos⟩ := hothers m hm
      exact ⟨hle, fun h => Finset.mem_erase.mpr ⟨hm, hpos h⟩⟩

/-! ### Steps -/

section Steps
variable (env : Env)

theorem AtMostOne.tryFetch (h : AtMostOne s) (mapname : Bytes) :
    AtMostOne (kzWsTryFetchReplay env mapname s) := by
  unfold kzWsTryFetchReplay
  split_ifs
  · exact h.congr (fun _ => le_rfl) fun m hm _ => Finset.mem_insert_of_mem hm
  · exact h

theorem atMostOne_mapLoaded (h : AtMostOne s) (force : Bool) :
    AtMostOne (kzWsOnMapLoaded env force s) ↔
    (Announces force s → ∀ m ≠ s.mapname, bodies m s = 0) := by
  by_cases ha : Announces force s
  · have hfilter : AtMostOne { s with fetchPending := s.fetchPending.filter (· = s.mapname) } ↔
        ∀ m ≠ s.mapname, bodies m s = 0 := by
      constructor
      · intro hs m hm
        by_contra hne
        exact hm (Finset.mem_filter.mp ((hs m).2 (Nat.pos_of_ne_zero hne))).2
      · intro hzero
        refine h.congr (fun _ => le_rfl) fun m hm hpos => Finset.mem_filter.mpr ⟨hm, ?_⟩
        by_contra hne
        exact absurd (hzero m hne) hpos.ne'
    rw [atMostOne_alike (alike_onMapLoaded env ha), ← hfilter, imp_iff_right ha]
    split_ifs
    · exact Iff.rfl
    · exact Iff.rfl
  · rw [onMapLoaded_of_not env ha]
    exact iff_of_true h fun ha' => absurd ha' ha

/-- **A reply with a map** needs that the map has no download yet, and where it starts one that the
map is pending. -/
theorem atMostOne_getReplayAck (hn : Named s) (h : AtMostOne s) (url localUid mapName : Field) :
    AtMostOne (applyOutcome (kzWsAckGetReplay env.mapHasProWr url localUid mapName) s) ↔
      ∀ m, mapName = .text m → bodies m s = 0 ∧
      (Starts env.mapHasProWr url localUid m → m ∈ s.fetchPending) := by
  by_cases htext : ∃ k, mapName = .text k
  · obtain ⟨k, rfl⟩ := htext
    have hall : (∀ m, Field.text k = .text m → bodies m s = 0 ∧
        (Starts env.mapHasProWr url localUid m → m ∈ s.fetchPending)) ↔
        bodies k s = 0 ∧ (Starts env.mapHasProWr url localUid k → k ∈ s.fetchPending) := by
      constructor
      · exact fun hk => hk k rfl
      · intro hk m hm
        rwa [← Field.text.inj hm]
    rw [hall]
    by_cases hstarts : Starts env.mapHasProWr url localUid k
    · obtain ⟨uid, ho⟩ := outcome_of_starts hstarts
      rw [ho, imp_iff_right hstarts]
      change AtMostOne { s with downloads := s.downloads ++ [⟨k, uid⟩] } ↔ _
      have hself : bodies k { s with downloads := s.downloads ++ [⟨k, uid⟩] } = bodies k s + 1 := by
        simp only [bodies, List.countP_append, List.countP_singleton, decide_true, if_true]
        omega
      have hother {m : Bytes} (hm : m ≠ k) :
          bodies m { s with downloads := s.downloads ++ [⟨k, uid⟩] } = bodies m s := by
        simp [bodies, hm.symm]
      constructor
      · intro hs
        obtain ⟨hle, hpos⟩ := hs k
        rw [hself] at hle hpos
        exact ⟨by omega, hpos (Nat.succ_pos _)⟩
      · rintro ⟨hzero, hmem⟩ m
        by_cases hm : m = k
        · subst hm
          rw [hself, hzero]
          exact ⟨le_rfl, fun _ => hmem⟩
        · rw [hother hm]
          exact h m
    · rw [atMostOne_alike (alike_applyOutcome env hstarts), atMostOne_clear hn fun m _ => h m]
      exact (and_iff_left fun hs => absurd hs hstarts).symm
  · rw [not_exists] at htext
    rw [applyOutcome_no_map env htext]
    exact iff_of_true h fun m hm => absurd hm (htext m)

theorem atMostOne_errorMsg (hn : Named s) (h : AtMostOne s) (hasMessage : Bool) (msgId : ℕ) :
    AtMostOne (kzWsAckError env hasMessage msgId s) ↔
      ∀ m, hasMessage = true → 0 < msgId → Asked s.store m msgId → bodies m s = 0 := by
  cases hmap : errorMap hasMessage msgId s with
  | none =>
    rw [ackError_none env hmap]
    refine iff_of_true h fun m hmsg hpos hasked => ?_
    rw [errorMap_iff.mpr ⟨hmsg, hpos, hasked⟩] at hmap
    cases hmap
  | some k =>
    rw [atMostOne_alike (alike_ackError env hmap), atMostOne_clear hn fun m _ => h m]
    constructor
    · intro hzero m hmsg hpos hasked
      have heq := hmap.symm.trans (errorMap_iff.mpr ⟨hmsg, hpos, hasked⟩)
      rwa [← Option.some.inj heq]
    · intro hall
      obtain ⟨hmsg, hpos, hasked⟩ := errorMap_iff.mp hmap
      exact hall k hmsg hpos hasked

theorem AtMostOne.finish (h : AtMostOne s) (hn : Named s)
    (hothers : ∀ m ≠ mapname, bodies m s' = bodies m s)
    (hself : bodies mapname s' + 1 = bodies mapname s)
    (hpending : s'.fetchPending = s.fetchPending) :
    AtMostOne (kzWsClearReplayFetchPending mapname s') := by
  have hn' : Named s' := by
    rw [Named, hpending]
    exact hn
  refine (atMostOne_clear hn' fun m hm => ?_).mpr ?_
  · rw [hothers m hm, hpending]
    exact h m
  · have hle := (h mapname).1
    omega

theorem countP_eraseIdx {α : Type*} {p : α → Bool} {l : List α} {i : ℕ} {a : α}
    (h : l[i]? = some a) :
    (l.eraseIdx i).countP p + (if p a then 1 else 0) = l.countP p := by
  obtain ⟨hi, rfl⟩ := List.getElem?_eq_some_iff.mp h
  rw [← List.countP_cons, (List.getElem_cons_eraseIdx_perm hi).countP_eq]

theorem AtMostOne.downloadEnd (h : AtMostOne s) (hn : Named s) (i : ℕ) (ok pushed : Bool) :
    AtMostOne (downloadEnd env i ok pushed s) := by
  cases hd : s.downloads[i]? with
  | none =>
    unfold Downloads.downloadEnd
    rwa [hd]
  | some d =>
    have herase (m : Bytes) :=
      countP_eraseIdx (p := fun d' : Download => decide (d'.mapname = m)) hd
    cases pushed with
    | true =>
      rw [downloadEnd_pushed env ok hd]
      refine h.congr (fun m => ?_) fun m hm _ => hm
      have hm := herase m
      simp only [bodies, List.countP_append, List.countP_singleton]
      omega
    | false =>
      refine (atMostOne_alike (alike_downloadEnd env ok hd)).mpr
        (h.finish hn (fun m hm => ?_) ?_ rfl)
      · have hcount := herase m
        rw [if_neg (by simpa using hm.symm)] at hcount
        exact congrArg (· + _) hcount
      · have hcount := herase d.mapname
        rw [if_pos (by simp)] at hcount
        simp only [bodies]
        omega

theorem AtMostOne.runCallback (h : AtMostOne s) (hn : Named s) (written : Bool) :
    AtMostOne (runCallback env written s) := by
  cases hin : s.incoming with
  | nil =>
    unfold Downloads.runCallback
    rwa [hin]
  | cons d rest =>
    refine (atMostOne_alike (alike_runCallback env written hin)).mpr
      (h.finish hn (fun m hm => ?_) ?_ rfl)
    · simp [bodies, hin, hm.symm]
    · simp only [bodies, hin, List.countP_cons, decide_true, if_true]
      omega

theorem AtMostOne.downloadRetries (h : AtMostOne s) :
    AtMostOne (kzWsProcessReplayDownloadRetries env s) := by
  refine (atMostOne_alike (alike_processRetries env s)).mpr ?_
  split_ifs
  · exact h.tryFetch env s.mapname
  · exact h

end Steps

/-! ### Runs -/

/-- **The steps that keep to one download a map.** A reply comes for a map that has no download yet
and is pending where a download starts, and a map is announced while no other one is downloaded. -/
def Lone (s : FetchState) : Event → Prop
  | .mapLoaded _ force => Announces force s → ∀ m ≠ s.mapname, bodies m s = 0
  | .getReplayAck env url localUid mapName _ => s.deleting = none → ∀ m, mapName = .text m →
      bodies m s = 0 ∧ (Starts env.mapHasProWr url localUid m → m ∈ s.fetchPending)
  | .errorMsg _ hasMessage msgId => s.deleting = none → ∀ m, hasMessage = true → 0 < msgId →
      Asked s.store m msgId → bodies m s = 0
  | _ => True

theorem atMostOne_next_iff (s : FetchState) (e : Event) (hn : Named s) (h : AtMostOne s) :
    AtMostOne (next s e) ↔ Lone s e := by
  cases e with
  | mapLoaded env force => exact atMostOne_mapLoaded env h force
  | tryFetch env mapname => exact iff_of_true (h.tryFetch env mapname) trivial
  | getReplayAck env url localUid mapName msgId =>
    unfold next onGetReplayAck
    exact handled_iff h fun _ => atMostOne_getReplayAck env hn h url localUid mapName
  | errorMsg env hasMessage msgId =>
    unfold next onErrorMsg
    exact handled_iff h fun _ => atMostOne_errorMsg env hn h hasMessage msgId
  | deleteMsg =>
    refine iff_of_true ?_ trivial
    unfold next deleteMsg
    dsimp only
    split
    · exact h
    · exact h
  | downloadEnd env i ok pushed => exact iff_of_true (h.downloadEnd env hn i ok pushed) trivial
  | runCallback env written => exact iff_of_true (h.runCallback env hn written) trivial
  | downloadRetries env => exact iff_of_true (h.downloadRetries env) trivial
  | _ => exact iff_of_true h trivial

/-- **No map has two downloads**, and only pending maps have one, in the states of a run exactly
where every step keeps to it. -/
theorem atMostOne_iff (tables : StorageTable → Table (Stored Request)) (es : List Event) :
    (∀ es', es' <+: es → AtMostOne (run next (.init tables) es')) ↔
    Along next Lone (.init tables) es := by
  have hinit : AtMostOne (.init tables) :=
    fun _ => ⟨Nat.zero_le 1, fun h => absurd h (Nat.lt_irrefl 0)⟩
  exact forall_prefix_iff (fun _ e hs => Named.next hs e) atMostOne_next_iff
    (Reached.init tables).named hinit

/-! ### Runs with two downloads -/

section Sample

/-- The answer for a map, with an address. -/
def sampleReply : Event :=
  .getReplayAck sampleEnv (.text (str "https://h/r")) (.text (str "0_a")) (.text (str "m")) 1

/-- The reply to a GET_REPLAY comes twice. -/
def sampleTwice : List Event :=
  [.tryFetch sampleEnv (str "m"), sampleReply, .deleteMsg, sampleReply]

/-- Another map is loaded while the replay is downloaded. -/
def sampleMapChange : List Event :=
  [.tryFetch sampleEnv (str "m"), sampleReply, .deleteMsg, .changeMap (str "n"),
    .mapLoaded sampleEnv false]

/-- **Two downloads of one map run** after a duplicated reply, and one of a map that is not pending
after a map change. -/
theorem two_downloads : ¬ AtMostOne (run next (.init fun _ => .empty) sampleTwice) ∧
    ¬ AtMostOne (run next (.init fun _ => .empty) sampleMapChange) := by
  constructor
  · intro h
    have hle := (h (str "m")).1
    revert hle
    decide
  · intro h
    have hmem := (h (str "m")).2
    revert hmem
    decide

end Sample

end KzGlobal.Fetch.Single
