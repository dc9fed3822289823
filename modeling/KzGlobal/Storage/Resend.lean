import KzGlobal.Storage.NoReply

/-! # How often a message is sent again

A retry pass sends an entry as long as its count is not above `kz_api_retries_max` and counts
afterwards, so an entry that starts at 0 is sent once more than the maximum says. It is sent no more
often exactly as long as no pass gets to it when the maximum is reached (`resend_bounded_iff`).
Whatever the queue holds, a pass sends one entry at most and keeps the order of the others.

Entries are told apart by a number beside their message that no function looks at (`next_onStore`).
-/

namespace KzGlobal.Storage.Resend

open KzGlobal.Lib.Runs KzGlobal.Storage.Queue KzGlobal.Storage.NoReply

variable {τ : Type}

/-! ### Entries with numbers -/

/-- An entry of the retry queue with its number. -/
abbrev Entry (τ : Type) := RetryMsg (ℕ × τ)

/-- The tag of an entry. -/
def tagOf (r : Entry τ) : ℕ := r.message.1

/-- An entry with its tag. -/
def tag (n : ℕ) (r : RetryMsg τ) : Entry τ :=
  ⟨r.retryCount, r.msgType, r.msgId, r.timestamp, r.table, (n, r.message)⟩

/-- The entry without its tag. -/
def untag (r : Entry τ) : RetryMsg τ :=
  ⟨r.retryCount, r.msgType, r.msgId, r.timestamp, r.table, r.message.2⟩

/-- The retry queue with the next number, the static `last_ts` of `kz_storage_save`, and what the
passes have sent so far. -/
structure Tagged (τ : Type) where
  entries : List (Entry τ)
  fresh : ℕ
  lastTs : ℤ
  sent : List (Entry τ)

/-- The entries of the queue are numbered in their order. -/
def Tagged.init (lastTs : ℤ) (q : List (RetryMsg τ)) : Tagged τ where
  entries := q.zipIdx.map fun r => tag r.2 r.1
  fresh := q.length
  lastTs := lastTs
  sent := []

/-- How often an entry was sent. -/
def Tagged.sends (i : ℕ) (s : Tagged τ) : ℕ := s.sent.countP (tagOf · = i)

/-! ### The machine -/

/-- A frame of `kz_ws_run_tasks`, which gets to the retry queue where it is `ready` (connected, with
nothing else to send and a task left), and what else changes the queue but resets none of its
entries, or those with one id. -/
inductive Event (τ : Type)
  | frame (ready : Bool) (ts : ℤ)
  | save (now : ℤ) (text : τ) (msgType msgId : ℕ) (table : StorageTable)
  | delete (msgId : ℕ) (table : StorageTable)
  | acceptUpload (uid : τ)
  | clear
  | deleteAll (table : StorageTable)
  | requeue (msgId : ℕ)

section Machine
variable [DecidableEq τ] (isEmpty : τ → Bool) (delay maxRetries : ℤ)

/-- A pass over the retry queue; what it sends is kept. -/
def pass (ts : ℤ) (s : Tagged τ) : Tagged τ :=
  let out := retryPass (fun m => isEmpty m.2) delay maxRetries ts s.entries
  { s with entries := out.1, sent := s.sent ++ out.2.toList }

/-- What an event makes of the entries. -/
def next (s : Tagged τ) : Event τ → Tagged τ
  | .frame ready ts => if ready then pass isEmpty delay maxRetries ts s else s
  | .save now text msgType msgId table =>
    let ts := if now - s.lastTs < 5 then now + 5 else now
    { s with
      entries := s.entries ++ [tag s.fresh ⟨0, msgType, msgId, ts, table, text⟩]
      fresh := s.fresh + 1
      lastTs := now }
  | .delete msgId table =>
    { s with entries := s.entries.filter fun r => !decide (r.msgId = msgId ∧ r.table = table) }
  | .acceptUpload uid =>
    { s with entries := s.entries.eraseP fun r => r.table = .uploadQueue ∧ r.message.2 = uid }
  | .clear => { s with entries := s.entries.filter fun r => !dropsOnClear r }
  | .deleteAll table => { s with entries := s.entries.filter fun r => r.table ≠ table }
  | .requeue msgId =>
    { s with entries := s.entries.map fun r =>
        if r.msgId = msgId then { r with timestamp := 0, retryCount := 0 } else r }

/-- What an event does to the storage. -/
def Event.onStore : Event τ → Store τ → Store τ
  | .frame ready ts, s =>
    if ready then { s with retryQueue := (retryPass isEmpty delay maxRetries ts s.retryQueue).1 }
    else s
  | .save now text msgType msgId table, s => kzStorageSave now text msgType msgId table s
  | .delete msgId table, s => kzStorageDelete msgId table s
  | .acceptUpload uid, s => eraseUpload uid s
  | .clear, s => kzStorageClear s
  | .deleteAll table, s => kzStorageDeleteAll table s
  | .requeue msgId, s => Queue.requeue (some msgId) s

omit [DecidableEq τ] in
theorem retryPass_untag (ts : ℤ) : ∀ q : List (Entry τ),
    retryPass isEmpty delay maxRetries ts (q.map untag) =
      ((retryPass (fun m => isEmpty m.2) delay maxRetries ts q).1.map untag,
        (retryPass (fun m => isEmpty m.2) delay maxRetries ts q).2.map untag)
  | [] => rfl
  | r :: q => by
    have ih := retryPass_untag ts q
    rw [List.map_cons]
    unfold retryPass
    rw [ih]
    by_cases hdue : ts - r.timestamp > delay
    · by_cases hgive : isEmpty r.message.2 = true ∨ r.retryCount > maxRetries
      · simp [untag, hdue, hgive]
      · by_cases htype : r.msgType = msgPlayerLeave ∨ r.msgType = msgMapChange
        · simp [untag, hdue, hgive, htype]
        · simp [untag, hdue, hgive, htype]
    · simp [untag, hdue]

/-- **The numbers change nothing**: without them the queue is that of the storage. -/
theorem next_onStore {s : Tagged τ} {st : Store τ} (hq : st.retryQueue = s.entries.map untag)
    (hl : st.lastTs = s.lastTs) (e : Event τ) :
    (e.onStore isEmpty delay maxRetries st).retryQueue =
        (next isEmpty delay maxRetries s e).entries.map untag ∧
      (e.onStore isEmpty delay maxRetries st).lastTs =
        (next isEmpty delay maxRetries s e).lastTs := by
  cases e with
  | frame ready ts =>
    cases ready with
    | false => exact ⟨hq, hl⟩
    | true => exact ⟨by simp [Event.onStore, next, pass, hq, retryPass_untag], hl⟩
  | save now text msgType msgId table =>
    refine ⟨?_, rfl⟩
    simp [Event.onStore, next, kzStorageSave, Store.mapTable, hq, hl, tag, untag]
  | delete msgId table =>
    refine ⟨?_, hl⟩
    simp only [Event.onStore, next, kzStorageDelete, Store.mapTable, hq, List.filter_map]
    rfl
  | acceptUpload uid =>
    refine ⟨?_, hl⟩
    simp only [Event.onStore, next, eraseUpload, hq, List.eraseP_map]
    rfl
  | clear =>
    refine ⟨?_, hl⟩
    simp only [Event.onStore, next, kzStorageClear, kzStorageBatchDelete, Store.mapTable, hq,
      List.filter_map]
    rfl
  | deleteAll table =>
    refine ⟨?_, hl⟩
    simp only [Event.onStore, next, kzStorageDeleteAll, Store.mapTable, hq, List.filter_map]
    rfl
  | requeue msgId =>
    refine ⟨?_, hl⟩
    simp only [Event.onStore, next, Queue.requeue, hq, List.map_map]
    refine List.map_congr_left fun r _ => ?_
    by_cases hr : r.msgId = msgId
    · simp [untag, hr]
    · simp [untag, hr, Ne.symm hr]

end Machine

/-! ### What a pass does -/

section Pass
variable {isEmpty : τ → Bool} {delay maxRetries ts : ℤ}

/-- The entry that is sent, counted and with the time of the pass. -/
def again (ts : ℤ) (r : RetryMsg τ) : RetryMsg τ :=
  { r with timestamp := ts, retryCount := r.retryCount + 1 }

theorem retryPass_sent {r : RetryMsg τ} (q : List (RetryMsg τ))
    (h : Sent isEmpty delay maxRetries ts r) :
    retryPass isEmpty delay maxRetries ts (r :: q) = (again ts r :: q, some r) := by
  have hdue : ts - r.timestamp > delay := h.1
  have htype : ¬ (r.msgType = msgPlayerLeave ∨ r.msgType = msgMapChange) := h.2.2
  rw [retryPass, if_pos hdue, if_neg h.2.1, if_neg htype, again]

theorem retryPass_dropped {r : RetryMsg τ} (q : List (RetryMsg τ)) (hdue : Due delay ts r)
    (h : ¬ Sent isEmpty delay maxRetries ts r) :
    retryPass isEmpty delay maxRetries ts (r :: q) = retryPass isEmpty delay maxRetries ts q := by
  have hdue' : ts - r.timestamp > delay := hdue
  rw [retryPass, if_pos hdue']
  by_cases hgive : isEmpty r.message = true ∨ r.retryCount > maxRetries
  · rw [if_pos hgive]
  · have htype : r.msgType = msgPlayerLeave ∨ r.msgType = msgMapChange :=
      not_not.mp fun htype => h ⟨hdue, hgive, htype⟩
    rw [if_neg hgive, if_pos htype]

theorem retryPass_kept {r : RetryMsg τ} (q : List (RetryMsg τ)) (h : ¬ Due delay ts r) :
    retryPass isEmpty delay maxRetries ts (r :: q) =
      (r :: (retryPass isEmpty delay maxRetries ts q).1,
        (retryPass isEmpty delay maxRetries ts q).2) := by
  have hdue : ¬ ts - r.timestamp > delay := h
  rw [retryPass, if_neg hdue]

variable (isEmpty delay maxRetries ts) in
/-- **A pass** drops entries and sends nothing, or drops entries in front of the one it sends. -/
theorem retryPass_cases : ∀ q : List (RetryMsg τ),
    (∃ q', retryPass isEmpty delay maxRetries ts q = (q', none) ∧ q'.Sublist q) ∨
    ∃ pre pre' r post, q = pre ++ r :: post ∧ pre'.Sublist pre ∧
      Sent isEmpty delay maxRetries ts r ∧
      retryPass isEmpty delay maxRetries ts q = (pre' ++ again ts r :: post, some r)
  | [] => Or.inl ⟨[], rfl, .slnil⟩
  | r :: q => by
    have ih := retryPass_cases q
    by_cases hsent : Sent isEmpty delay maxRetries ts r
    · exact Or.inr ⟨[], [], r, q, rfl, .slnil, hsent, retryPass_sent q hsent⟩
    · by_cases hdue : Due delay ts r
      · rw [retryPass_dropped q hdue hsent]
        rcases ih with ⟨q', hq', hsub⟩ | ⟨pre, pre', r', post, rfl, hsub, hr', hq'⟩
        · exact Or.inl ⟨q', hq', hsub.cons r⟩
        · exact Or.inr ⟨r :: pre, pre', r', post, rfl, hsub.cons r, hr', hq'⟩
      · rw [retryPass_kept q hdue]
        rcases ih with ⟨q', hq', hsub⟩ | ⟨pre, pre', r', post, rfl, hsub, hr', hq'⟩
        · exact Or.inl ⟨r :: q', by rw [hq'], hsub.cons_cons r⟩
        · exact Or.inr ⟨r :: pre, r :: pre', r', post, rfl, hsub.cons_cons r, hr', by rw [hq']; rfl⟩

/-- **The entry that is sent** is the first one that can be. -/
theorem retryPass_eq_some_iff {r : RetryMsg τ} : ∀ q : List (RetryMsg τ),
    (retryPass isEmpty delay maxRetries ts q).2 = some r ↔
      Reaches isEmpty delay maxRetries ts q r ∧ Sent isEmpty delay maxRetries ts r
  | [] => by
    refine iff_of_false nofun ?_
    rintro ⟨⟨pre, post, hq, -⟩, -⟩
    cases pre <;> cases hq
  | r₀ :: q => by
    have ih := retryPass_eq_some_iff (r := r) q
    rw [reaches_cons]
    by_cases hsent : Sent isEmpty delay maxRetries ts r₀
    · rw [retryPass_sent q hsent, Option.some.injEq]
      constructor
      · rintro rfl
        exact ⟨Or.inl ⟨rfl, hsent.1⟩, hsent⟩
      · rintro ⟨⟨rfl, -⟩ | ⟨hno, -⟩, -⟩
        · rfl
        · exact absurd hsent hno
    · have hpass : (retryPass isEmpty delay maxRetries ts (r₀ :: q)).2 =
          (retryPass isEmpty delay maxRetries ts q).2 := by
        by_cases hdue : Due delay ts r₀
        · rw [retryPass_dropped q hdue hsent]
        · rw [retryPass_kept q hdue]
      rw [hpass, ih]
      refine and_congr_left fun hr => ?_
      rw [and_iff_right hsent]
      refine (or_iff_right ?_).symm
      rintro ⟨rfl, -⟩
      exact hsent hr

end Pass

/-! ### One entry over a run -/

section Runs
variable [DecidableEq τ] (isEmpty : τ → Bool) (delay maxRetries : ℤ)

/-- **What every reachable queue has**: its numbers are different and were given before, and the
count of entry `i` is the one it started with and its sends, as long as nothing resets it. -/
structure Tracks (r₀ : RetryMsg τ) (i : ℕ) (s : Tagged τ) : Prop where
  tags : (s.entries.map tagOf).Nodup
  fresh : ∀ r ∈ s.entries, tagOf r < s.fresh
  known : i < s.fresh
  entry : ∀ r ∈ s.entries, tagOf r = i →
    r.msgId = r₀.msgId ∧ r.retryCount = r₀.retryCount + s.sends i

/-- **Entry `i` was not sent more often than the maximum says**; in every frame at most one entry is
sent, and those that stay keep their order. -/
structure Bounded (i : ℕ) (s : Tagged τ) : Prop where
  sends : s.sends i ≤ maxRetries
  one : ∀ ready ts, (next isEmpty delay maxRetries s (.frame ready ts)).sent = s.sent ∨
    ∃ r ∈ s.entries, (next isEmpty delay maxRetries s (.frame ready ts)).sent = s.sent ++ [r]
  order : ∀ ready ts,
    ((next isEmpty delay maxRetries s (.frame ready ts)).entries.map tagOf).Sublist
      (s.entries.map tagOf)

/-- **The step that does not send too often.** An entry that began at 0 is not sent when its count
is the maximum. -/
def NotExhausted (r₀ : RetryMsg τ) (i : ℕ) (s : Tagged τ) : Event τ → Prop
  | .frame ready ts => ready = true → r₀.retryCount = 0 →
    ∀ r ∈ s.entries, tagOf r = i → r.retryCount = maxRetries →
      ¬ (Reaches (fun m => isEmpty m.2) delay maxRetries ts s.entries r ∧
        Sent (fun m => isEmpty m.2) delay maxRetries ts r)
  | _ => True

variable {r₀ : RetryMsg τ} {i : ℕ} {s : Tagged τ}

omit [DecidableEq τ] in
theorem sends_append (s : Tagged τ) (r : Entry τ) (i : ℕ) :
    ({ s with sent := s.sent ++ [r] } : Tagged τ).sends i =
      s.sends i + if tagOf r = i then 1 else 0 := by
  simp [Tagged.sends, List.countP_append, List.countP_cons]

omit [DecidableEq τ] in
theorem Tracks.sublist (h : Tracks r₀ i s) {q : List (Entry τ)} (hsub : q.Sublist s.entries) :
    Tracks r₀ i { s with entries := q } where
  tags := h.tags.sublist (hsub.map tagOf)
  fresh r hr := h.fresh r (hsub.subset hr)
  known := h.known
  entry r hr := h.entry r (hsub.subset hr)

omit [DecidableEq τ] in
theorem tracks_init (lastTs : ℤ) (q : List (RetryMsg τ)) (hi : i < q.length) :
    Tracks q[i] i (.init lastTs q) := by
  have hmem {r : Entry τ} (hr : r ∈ (Tagged.init lastTs q).entries) :
      ∃ (n : ℕ) (h : n < q.length), r = tag n q[n] := by
    obtain ⟨⟨r', n⟩, hr', rfl⟩ := List.mem_map.mp hr
    obtain ⟨hn, he⟩ := List.mem_zipIdx' hr'
    exact ⟨n, hn, congrArg (tag n) he⟩
  refine ⟨?_, fun r hr => ?_, hi, fun r hr htag => ?_⟩
  · have htags : (Tagged.init lastTs q).entries.map tagOf = List.range' 0 q.length := by
      rw [Tagged.init, List.map_map, ← List.zipIdx_map_snd 0 q]
      rfl
    rw [htags]
    exact List.nodup_range'
  · obtain ⟨n, hn, rfl⟩ := hmem hr
    exact hn
  · obtain ⟨n, hn, rfl⟩ := hmem hr
    obtain rfl : n = i := htag
    exact ⟨rfl, rfl⟩

theorem frame_cases (ready : Bool) (ts : ℤ) (s : Tagged τ) :
    (∃ q, q.Sublist s.entries ∧
      next isEmpty delay maxRetries s (.frame ready ts) = { s with entries := q }) ∨
    ∃ pre pre' r post, ready = true ∧ s.entries = pre ++ r :: post ∧ pre'.Sublist pre ∧
      Sent (fun m => isEmpty m.2) delay maxRetries ts r ∧
      (retryPass (fun m => isEmpty m.2) delay maxRetries ts s.entries).2 = some r ∧
      next isEmpty delay maxRetries s (.frame ready ts) =
        { s with entries := pre' ++ again ts r :: post, sent := s.sent ++ [r] } := by
  cases ready with
  | false => exact Or.inl ⟨s.entries, .refl _, rfl⟩
  | true =>
    rcases retryPass_cases (fun m => isEmpty m.2) delay maxRetries ts s.entries with
      ⟨q, hq, hsub⟩ | ⟨pre, pre', r, post, hsplit, hsub, hsent, hq⟩
    · refine Or.inl ⟨q, hsub, ?_⟩
      simp [next, pass, hq]
    · refine Or.inr ⟨pre, pre', r, post, rfl, hsplit, hsub, hsent, by rw [hq], ?_⟩
      simp [next, pass, hq]

omit [DecidableEq τ] in
/-- **An entry that is sent** keeps its place and its number, and its count goes with the sends. -/
theorem Tracks.sent_again (h : Tracks r₀ i s) {pre pre' post : List (Entry τ)} {r : Entry τ}
    (hsplit : s.entries = pre ++ r :: post) (hsub : pre'.Sublist pre) (ts : ℤ) :
    Tracks r₀ i { s with entries := pre' ++ again ts r :: post, sent := s.sent ++ [r] } := by
  have htags := h.tags
  rw [hsplit, List.map_append, List.map_cons] at htags
  -- the entries beside the one that is sent have other numbers
  have hother {r' : Entry τ} (hr' : r' ∈ pre ∨ r' ∈ post) : tagOf r ≠ tagOf r' := by
    intro heq
    rw [List.nodup_middle, List.nodup_cons] at htags
    refine htags.1 (heq ▸ List.mem_append.mpr ?_)
    exact hr'.imp List.mem_map_of_mem List.mem_map_of_mem
  have hmem {r' : Entry τ} (hr' : r' ∈ pre' ++ again ts r :: post) :
      r' = again ts r ∨ r' ∈ pre ∨ r' ∈ post := by
    rcases List.mem_append.mp hr' with hr' | hr'
    · exact Or.inr (Or.inl (hsub.subset hr'))
    · exact (List.mem_cons.mp hr').imp_right Or.inr
  have hold {r' : Entry τ} (hr' : r' ∈ pre ∨ r' ∈ post) : r' ∈ s.entries := by
    rw [hsplit, List.mem_append, List.mem_cons]
    exact hr'.imp_right Or.inr
  have hr : r ∈ s.entries := by
    rw [hsplit]
    exact List.mem_append_right _ List.mem_cons_self
  refine ⟨?_, fun r' hr' => ?_, h.known, fun r' hr' htag => ?_⟩
  · rw [List.map_append, List.map_cons]
    exact htags.sublist ((hsub.map tagOf).append_right _)
  · rcases hmem hr' with rfl | hr'
    · exact h.fresh r hr
    · exact h.fresh r' (hold hr')
  · change r'.msgId = r₀.msgId ∧ r'.retryCount = r₀.retryCount +
      ({ s with sent := s.sent ++ [r] } : Tagged τ).sends i
    rw [sends_append]
    rcases hmem hr' with rfl | hr'
    · obtain ⟨hid, hcount⟩ := h.entry r hr htag
      have htag' : tagOf r = i := htag
      rw [if_pos htag']
      exact ⟨hid, by rw [again, hcount, Nat.add_assoc]⟩
    · rw [if_neg (htag ▸ hother hr')]
      exact h.entry r' (hold hr') htag

theorem Tracks.frame (h : Tracks r₀ i s) (ready : Bool) (ts : ℤ) :
    Tracks r₀ i (next isEmpty delay maxRetries s (.frame ready ts)) := by
  rcases frame_cases isEmpty delay maxRetries ready ts s with
    ⟨q, hsub, he⟩ | ⟨pre, pre', r, post, -, hsplit, hsub, -, -, he⟩
  · rw [he]
    exact h.sublist hsub
  · rw [he]
    exact h.sent_again hsplit hsub ts

theorem Tracks.step (h : Tracks r₀ i s) {e : Event τ} (he : e ≠ .requeue r₀.msgId) :
    Tracks r₀ i (next isEmpty delay maxRetries s e) := by
  cases e with
  | frame ready ts => exact h.frame isEmpty delay maxRetries ready ts
  | save now text msgType msgId table =>
    have hne {r : Entry τ} (hr : r ∈ s.entries) : tagOf r ≠ s.fresh := (h.fresh r hr).ne
    refine ⟨?_, fun r hr => ?_, h.known.trans (Nat.lt_succ_self _), fun r hr htag => ?_⟩
    · simp only [next, List.map_append, List.map_cons, List.map_nil]
      refine List.nodup_append.mpr ⟨h.tags, List.nodup_singleton _, fun n hn m hm => ?_⟩
      obtain ⟨r, hr, rfl⟩ := List.mem_map.mp hn
      rw [List.mem_singleton.mp hm]
      exact hne hr
    · rcases List.mem_append.mp hr with hr | hr
      · exact (h.fresh r hr).trans (Nat.lt_succ_self _)
      · rw [List.mem_singleton.mp hr]
        exact Nat.lt_succ_self _
    · rcases List.mem_append.mp hr with hr | hr
      · exact h.entry r hr htag
      · rw [List.mem_singleton.mp hr] at htag
        exact absurd htag h.known.ne'
  | delete msgId table => exact h.sublist List.filter_sublist
  | acceptUpload uid => exact h.sublist List.eraseP_sublist
  | clear => exact h.sublist List.filter_sublist
  | deleteAll table => exact h.sublist List.filter_sublist
  | requeue msgId =>
    have htag (r : Entry τ) :
        tagOf (if r.msgId = msgId then { r with timestamp := 0, retryCount := 0 } else r) =
          tagOf r := by
      split_ifs <;> rfl
    refine ⟨?_, fun r hr => ?_, h.known, fun r hr hi => ?_⟩
    · have htags : (next isEmpty delay maxRetries s (.requeue msgId)).entries.map tagOf =
          s.entries.map tagOf := by
        rw [next, List.map_map]
        exact List.map_congr_left fun r _ => htag r
      rw [htags]
      exact h.tags
    · obtain ⟨r', hr', rfl⟩ := List.mem_map.mp hr
      rw [htag]
      exact h.fresh r' hr'
    · obtain ⟨r', hr', rfl⟩ := List.mem_map.mp hr
      rw [htag] at hi
      obtain ⟨hid, hcount⟩ := h.entry r' hr' hi
      have hno : r'.msgId ≠ msgId := fun hm => he (by rw [← hid, hm])
      rw [if_neg hno]
      exact ⟨hid, hcount⟩

/-- What a frame does in any state. -/
theorem frame_law (s : Tagged τ) (ready : Bool) (ts : ℤ) :
    ((next isEmpty delay maxRetries s (.frame ready ts)).sent = s.sent ∨
      ∃ r ∈ s.entries,
        (next isEmpty delay maxRetries s (.frame ready ts)).sent = s.sent ++ [r]) ∧
    ((next isEmpty delay maxRetries s (.frame ready ts)).entries.map tagOf).Sublist
      (s.entries.map tagOf) := by
  rcases frame_cases isEmpty delay maxRetries ready ts s with
    ⟨q, hsub, he⟩ | ⟨pre, pre', r, post, -, hsplit, hsub, -, -, he⟩
  · rw [he]
    exact ⟨Or.inl rfl, hsub.map tagOf⟩
  · rw [he]
    refine ⟨Or.inr ⟨r, ?_, rfl⟩, ?_⟩
    · rw [hsplit]
      exact List.mem_append_right _ List.mem_cons_self
    · rw [hsplit, List.map_append, List.map_append, List.map_cons, List.map_cons]
      exact (hsub.map tagOf).append_right _

theorem bounded_iff : Bounded isEmpty delay maxRetries i s ↔ s.sends i ≤ maxRetries :=
  ⟨Bounded.sends, fun h => ⟨h, fun ready ts => (frame_law isEmpty delay maxRetries s ready ts).1,
    fun ready ts => (frame_law isEmpty delay maxRetries s ready ts).2⟩⟩

/-- **The step**: the entry is sent too often exactly where it began at 0, its count is the maximum
and the pass sends it. -/
theorem bounded_next_iff (h : Tracks r₀ i s) (hs : Bounded isEmpty delay maxRetries i s)
    (e : Event τ) : Bounded isEmpty delay maxRetries i (next isEmpty delay maxRetries s e) ↔
      NotExhausted isEmpty delay maxRetries r₀ i s e := by
  rw [bounded_iff]
  cases e with
  | frame ready ts =>
    rcases frame_cases isEmpty delay maxRetries ready ts s with
      ⟨q, -, he⟩ | ⟨pre, pre', r, post, rfl, hsplit, -, hsent, hout, he⟩
    · rw [he]
      refine iff_of_true hs.sends ?_
      rintro rfl - r hr htag hmax ⟨hreach, hsent⟩
      have hout := (retryPass_eq_some_iff s.entries).mpr ⟨hreach, hsent⟩
      have hnone := congrArg Tagged.sent he
      simp [next, pass, hout] at hnone
    · have hsends : (next isEmpty delay maxRetries s (.frame true ts)).sends i =
          s.sends i + if tagOf r = i then 1 else 0 := by
        rw [he]
        exact sends_append s r i
      have hr : r ∈ s.entries := by
        rw [hsplit]
        exact List.mem_append_right _ List.mem_cons_self
      rw [hsends]
      by_cases htag : tagOf r = i
      · have hcount := (h.entry r hr htag).2
        have hle : ¬ (r.retryCount : ℤ) > maxRetries := fun hgt => hsent.2.1 (Or.inr hgt)
        rw [if_pos htag]
        constructor
        · rintro hbound - hzero r' hr' htag' hmax -
          rw [(h.entry r' hr' htag').2] at hmax
          push_cast at hbound hmax
          omega
        · intro hno
          by_contra hbound
          refine hno rfl ?_ r hr htag ?_ ((retryPass_eq_some_iff s.entries).mp hout)
          · push_cast at hbound
            omega
          · push_cast at hbound
            omega
      · rw [if_neg htag, Nat.add_zero]
        refine iff_of_true hs.sends ?_
        rintro - - r' hr' htag' - hr''
        have heq := hout.symm.trans ((retryPass_eq_some_iff s.entries).mpr hr'')
        exact htag (Option.some.inj heq ▸ htag')
  | save now text msgType msgId table =>
    exact iff_of_true hs.sends trivial
  | delete msgId table => exact iff_of_true hs.sends trivial
  | acceptUpload uid => exact iff_of_true hs.sends trivial
  | clear => exact iff_of_true hs.sends trivial
  | deleteAll table => exact iff_of_true hs.sends trivial
  | requeue msgId => exact iff_of_true hs.sends trivial

/-- **An entry is sent again no more often than the maximum says**, over every run that does not
reset it, exactly where no pass sends it when its count is the maximum, if it began at 0. -/
theorem resend_bounded_iff (hmax : 0 ≤ maxRetries) (lastTs : ℤ) (q : List (RetryMsg τ))
    (hi : i < q.length) (es : List (Event τ)) (hreset : ∀ e ∈ es, e ≠ .requeue q[i].msgId) :
    (∀ es', es' <+: es → Bounded isEmpty delay maxRetries i
      (run (next isEmpty delay maxRetries) (.init lastTs q) es')) ↔
    Along (next isEmpty delay maxRetries) (NotExhausted isEmpty delay maxRetries q[i] i)
      (.init lastTs q) es := by
  have hJ : ∀ (s : Tagged τ) (e : Event τ), e ≠ .requeue q[i].msgId → Tracks q[i] i s →
      Tracks q[i] i (next isEmpty delay maxRetries s e) :=
    fun s e he h => h.step isEmpty delay maxRetries he
  have hstep : ∀ (s : Tagged τ) (e : Event τ), e ≠ .requeue q[i].msgId → Tracks q[i] i s →
      Bounded isEmpty delay maxRetries i s →
        (Bounded isEmpty delay maxRetries i (next isEmpty delay maxRetries s e) ↔
          NotExhausted isEmpty delay maxRetries q[i] i s e) :=
    fun s e _ h hs => bounded_next_iff isEmpty delay maxRetries h hs e
  exact forall_prefix_iff_of hJ hstep hreset (tracks_init lastTs q hi)
    ((bounded_iff isEmpty delay maxRetries).mpr hmax)

end Runs

/-- An ADD_RECORD that was never sent again, and one that was sent once. -/
def sampleQueue : List (RetryMsg String) :=
  [⟨0, msgAddRecord, 1, 0, .outgoingQueue, "m"⟩, ⟨1, msgAddRecord, 2, 0, .outgoingQueue, "n"⟩]

/-- Five frames; each gets to the pass. -/
def sampleFrames : List (Event String) :=
  [.frame true 10, .frame true 20, .frame true 30, .frame true 40, .frame true 50]

theorem resend_bounded_sample : Bounded String.isEmpty 5 4 1
    (run (next String.isEmpty 5 4) (.init 0 sampleQueue) sampleFrames) := by
  refine (resend_bounded_iff String.isEmpty 5 4 (by decide) 0 sampleQueue (i := 1) (by decide)
    sampleFrames (by simp [sampleFrames])).mpr ?_ _ (List.prefix_refl _)
  exact ⟨fun _ h => absurd h (by decide), fun _ h => absurd h (by decide),
    fun _ h => absurd h (by decide), fun _ h => absurd h (by decide),
    fun _ h => absurd h (by decide), trivial⟩

/-- **Five sends with a maximum of four.** -/
theorem sent_once_more :
    ¬ Bounded String.isEmpty 5 4 0
      (run (next String.isEmpty 5 4) (.init 0 sampleQueue) sampleFrames) := fun h =>
  absurd h.sends (by decide +kernel)

end KzGlobal.Storage.Resend
