import KzGlobal.Lib.Merge
import KzGlobal.Replay.Text
import KzGlobal.Shutdown.Threads

/-! # Flushing the log

The threads push their lines to queues of their own, and `kz_log_flush` on the main thread emits the
lines of all queues from before a cutoff: it goes through the fronts of the queues for the oldest
line, emits it, pops it, and begins again until no front is from before the cutoff. Each queue is in
the order of its times, so the flush is complete and ordered (`kzLogFlush_isFlush`). The threads'
machine takes the lines in the same steps (`mainStep_drain`). -/

namespace KzGlobal.Shutdown.Flush

open KzGlobal.Krp.Format KzGlobal.Replay.Text KzGlobal.Lib.Merge
open KzGlobal.Shutdown.Threads (ThreadsState LogQueue cutoffOf oldest mainStep)

variable {ι : Type*}

/-- `log_entry`. -/
structure LogEntry where
  nanoTs : ℕ
  message : Bytes
  deriving DecidableEq

/-- `g_log_queues`: a queue is in it once. -/
structure LogQueues (ι : Type*) where
  gLogQueues : List ι
  nodup : gLogQueues.Nodup

/-- No queue is registered. -/
def LogQueues.empty : LogQueues ι := ⟨[], List.nodup_nil⟩

section Registration

variable [DecidableEq ι]

/-- `kz_log_addq`: a queue is registered once. -/
def kzLogAddq (queue : ι) (s : LogQueues ι) : LogQueues ι :=
  if h : queue ∈ s.gLogQueues then s
  else ⟨s.gLogQueues ++ [queue], List.nodup_append.mpr ⟨s.nodup, List.nodup_singleton queue,
    fun _ ha _ hb heq => h (List.mem_singleton.mp hb ▸ heq ▸ ha)⟩⟩

/-- `kz_log_removeq`. -/
def kzLogRemoveq (queue : ι) (s : LogQueues ι) : LogQueues ι :=
  ⟨s.gLogQueues.filter (· ≠ queue), s.nodup.filter _⟩

end Registration

/-! ### The oldest line -/

/-- One queue in the pass over the queues, with the best one so far and its front. -/
def onQueue (cutoff : ℕ) (entries : ι → List LogEntry) (oldestEntry : Option (ι × LogEntry))
    (q : ι) : Option (ι × LogEntry) :=
  match (entries q).head? with
  | none => oldestEntry
  | some current =>
    if current.nanoTs < cutoff then
      match oldestEntry with
      | none => some (q, current)
      | some best => if current.nanoTs < best.2.nanoTs then some (q, current) else some best
    else oldestEntry

/-- The queue with the oldest line from before the cutoff at its front, and the line. -/
def oldestEntry (cutoff : ℕ) (qs : List ι) (entries : ι → List LogEntry) : Option (ι × LogEntry) :=
  qs.foldl (onQueue cutoff entries) none

/-- A front from before the cutoff. -/
def front (cutoff : ℕ) (entries : ι → List LogEntry) (q : ι) : Option (ι × LogEntry) :=
  match (entries q).head? with
  | none => none
  | some current => if current.nanoTs < cutoff then some (q, current) else none

theorem mem_front {cutoff : ℕ} {entries : ι → List LogEntry} {q q' : ι} {e : LogEntry} :
    (q', e) ∈ front cutoff entries q ↔ q' = q ∧ e ∈ (entries q).head? ∧ e.nanoTs < cutoff := by
  unfold front
  cases (entries q).head? with
  | none => simp
  | some current =>
    by_cases h : current.nanoTs < cutoff
    · simp only [if_pos h, Option.mem_def, Option.some.injEq, Prod.mk.injEq]
      constructor
      · rintro ⟨rfl, rfl⟩
        exact ⟨rfl, rfl, h⟩
      · rintro ⟨rfl, rfl, -⟩
        exact ⟨rfl, rfl⟩
    · simp only [if_neg h, Option.mem_def, reduceCtorEq, Option.some.injEq, false_iff]
      rintro ⟨-, rfl, h'⟩
      exact h h'

/-- **The pass finds the least front**, the first of them. -/
theorem oldestEntry_eq_argmin (cutoff : ℕ) (qs : List ι) (entries : ι → List LogEntry) :
    oldestEntry cutoff qs entries =
      (qs.filterMap (front cutoff entries)).argmin fun e => e.2.nanoTs := by
  unfold oldestEntry List.argmin
  rw [List.foldl_filterMap]
  congr 1
  funext best q
  unfold onQueue front List.argAux
  cases (entries q).head? with
  | none => rfl
  | some current =>
    by_cases h : current.nanoTs < cutoff
    · simp only [if_pos h]
      cases best with
      | none => rfl
      | some best => rfl
    · simp only [if_neg h]

theorem oldestEntry_eq_none {cutoff : ℕ} {qs : List ι} {entries : ι → List LogEntry}
    (h : oldestEntry cutoff qs entries = none) :
    ∀ q ∈ qs, ∀ e ∈ (entries q).head?, ¬ e.nanoTs < cutoff := by
  rw [oldestEntry_eq_argmin, List.argmin_eq_none, List.filterMap_eq_nil_iff] at h
  intro q hq e he hlt
  have hmem : (q, e) ∈ front cutoff entries q := mem_front.mpr ⟨rfl, he, hlt⟩
  rw [h q hq] at hmem
  exact nomatch hmem

theorem oldestEntry_eq_some {cutoff : ℕ} {qs : List ι} {entries : ι → List LogEntry} {q : ι}
    {e : LogEntry} (h : oldestEntry cutoff qs entries = some (q, e)) :
    q ∈ qs ∧ e ∈ (entries q).head? ∧ e.nanoTs < cutoff ∧
      ∀ q' ∈ qs, ∀ e' ∈ (entries q').head?, e'.nanoTs < cutoff → e.nanoTs ≤ e'.nanoTs := by
  rw [oldestEntry_eq_argmin] at h
  obtain ⟨q₀, hq₀, hmem⟩ := List.mem_filterMap.mp (List.argmin_mem h)
  obtain ⟨rfl, he, hlt⟩ := mem_front.mp hmem
  refine ⟨hq₀, he, hlt, fun q' hq' e' he' hlt' => ?_⟩
  have hmem' : (q', e') ∈ qs.filterMap (front cutoff entries) :=
    List.mem_filterMap.mpr ⟨q', hq', mem_front.mpr ⟨rfl, he', hlt'⟩⟩
  have hle := List.le_of_mem_argmin hmem' h
  exact hle

/-! ### The flush -/

variable [DecidableEq ι]

/-- The loop of the flush: the lines it emits, with their queues, and what the queues hold after
it. `none` is a loop of more than `fuel` passes. -/
def flushLoop (cutoff : ℕ) (qs : List ι) :
    ℕ → (ι → List LogEntry) → Option (List (ι × LogEntry) × (ι → List LogEntry))
  | 0, _ => none
  | fuel + 1, entries =>
    match oldestEntry cutoff qs entries with
    | none => some ([], entries)
    | some (bestQ, entry) =>
      (flushLoop cutoff qs fuel (Function.update entries bestQ (entries bestQ).tail)).map
        fun r => ((bestQ, entry) :: r.1, r.2)

/-- `kz_log_flush`: the entries up to the cutoff, and what is left. -/
def kzLogFlush (now nanoDelay : ℕ) (fuel : ℕ) (s : LogQueues ι) (entries : ι → List LogEntry) :
    Option (List (ι × LogEntry) × (ι → List LogEntry)) :=
  flushLoop (cutoffOf now nanoDelay) s.gLogQueues fuel entries

/-- **The loop is a flush**, and has at most one pass more than there are lines. -/
theorem flushLoop_isFlush (cutoff : ℕ) (qs : List ι) (n : ℕ) : ∀ entries : ι → List LogEntry,
    size qs entries = n → Sorted LogEntry.nanoTs qs entries → ∃ out entries',
      (∀ fuel, n < fuel → flushLoop cutoff qs fuel entries = some (out, entries')) ∧
      IsFlush LogEntry.nanoTs cutoff qs entries entries' out := by
  induction n using Nat.strong_induction_on with
  | _ n ih =>
    intro entries hn hs
    cases hbest : oldestEntry cutoff qs entries with
    | none =>
      refine ⟨[], entries, fun fuel hfuel => ?_, IsFlush.nil hs (oldestEntry_eq_none hbest)⟩
      obtain ⟨fuel, rfl⟩ := Nat.exists_eq_succ_of_ne_zero (by omega : fuel ≠ 0)
      rw [flushLoop, hbest]
    | some best =>
      obtain ⟨q, e⟩ := best
      obtain ⟨hq, he, hlt, hleast⟩ := oldestEntry_eq_some hbest
      obtain ⟨rest, hfront⟩ := List.head?_eq_some_iff.mp he
      have hless := size_update hq hfront
      obtain ⟨out, entries', hrun, hflush⟩ :=
        ih _ (hn ▸ hless) (Function.update entries q rest) rfl (hs.update hfront)
      refine ⟨(q, e) :: out, entries', fun fuel hfuel => ?_, hflush.cons hs hq hfront hlt hleast⟩
      obtain ⟨fuel, rfl⟩ := Nat.exists_eq_succ_of_ne_zero (by omega : fuel ≠ 0)
      have htail : (entries q).tail = rest := by rw [hfront, List.tail_cons]
      rw [flushLoop, hbest]
      simp only [htail, hrun fuel (by omega), Option.map_some]

/-- **The flush is a complete ordered merge.** It ends; the lines from before the cutoff are
emitted, each once, in the order of their times and of their queues; and the others stay. -/
theorem kzLogFlush_isFlush (now nanoDelay : ℕ) (s : LogQueues ι) (entries : ι → List LogEntry)
    (hs : Sorted LogEntry.nanoTs s.gLogQueues entries) : ∃ out entries',
      (∀ fuel, size s.gLogQueues entries < fuel →
        kzLogFlush now nanoDelay fuel s entries = some (out, entries')) ∧
      IsFlush LogEntry.nanoTs (cutoffOf now nanoDelay) s.gLogQueues entries entries' out ∧
      out.Perm (s.gLogQueues.flatMap fun q =>
        ((entries q).filter fun e => e.nanoTs < cutoffOf now nanoDelay).map (Prod.mk q)) := by
  obtain ⟨out, entries', hrun, hflush⟩ := flushLoop_isFlush (cutoffOf now nanoDelay) s.gLogQueues
    (size s.gLogQueues entries) entries rfl hs
  exact ⟨out, entries', hrun, hflush, hflush.perm s.nodup⟩

/-- Two queues, one of which is registered twice. -/
def sampleQueues : LogQueues LogQueue :=
  kzLogAddq .wsLog (kzLogAddq .parseLog (kzLogAddq .wsLog .empty))

/-- Entries on both sides of the cutoff. -/
def sampleEntries : LogQueue → List LogEntry
  | .wsLog => [⟨10, str "a"⟩, ⟨40, str "b"⟩, ⟨70, str "c"⟩]
  | .parseLog => [⟨40, str "d"⟩, ⟨49, str "e"⟩, ⟨50, str "f"⟩]
  | _ => []

theorem kzLogFlush_isFlush_sample :
    (kzLogFlush 100 50 7 sampleQueues sampleEntries).map (fun r => r.1.map fun e => e.2.message) =
        some [str "a", str "b", str "d", str "e"] ∧
      ∃ out entries', kzLogFlush 100 50 7 sampleQueues sampleEntries = some (out, entries') ∧
        IsFlush LogEntry.nanoTs (cutoffOf 100 50) sampleQueues.gLogQueues sampleEntries entries'
          out := by
  refine ⟨by decide, ?_⟩
  have hs : Sorted LogEntry.nanoTs sampleQueues.gLogQueues sampleEntries := by
    unfold Sorted
    decide
  obtain ⟨out, entries', hrun, hflush, -⟩ := kzLogFlush_isFlush 100 50 sampleQueues sampleEntries hs
  exact ⟨out, entries', hrun 7 (by decide), hflush⟩

/-! ### The machine of the threads -/

/-- What the machine keeps of the lines. -/
def times (entries : LogQueue → List LogEntry) (q : LogQueue) : List ℕ :=
  (entries q).map LogEntry.nanoTs

theorem times_update (entries : LogQueue → List LogEntry) (q : LogQueue) (rest : List LogEntry) :
    times (Function.update entries q rest) =
      Function.update (times entries) q (rest.map LogEntry.nanoTs) := by
  funext q'
  by_cases h : q' = q
  · subst h
    rw [times, Function.update_self, Function.update_self]
  · rw [times, Function.update_of_ne h, Function.update_of_ne h, times]

/-- The pass over the queues, as the machine takes it. -/
def onTimes (cutoff : ℕ) (logs : LogQueue → List ℕ) (best : Option (LogQueue × ℕ)) (q : LogQueue) :
    Option (LogQueue × ℕ) :=
  match (logs q).head?, best with
  | some ts, none => if ts < cutoff then some (q, ts) else none
  | some ts, some (q', ts') => if ts < cutoff ∧ ts < ts' then some (q, ts) else some (q', ts')
  | none, best => best

theorem onTimes_times (cutoff : ℕ) (entries : LogQueue → List LogEntry)
    (best : Option (LogQueue × LogEntry)) (q : LogQueue) :
    onTimes cutoff (times entries) (best.map (Prod.map id LogEntry.nanoTs)) q =
      (onQueue cutoff entries best q).map (Prod.map id LogEntry.nanoTs) := by
  unfold onTimes onQueue times
  rw [List.head?_map]
  cases (entries q).head? with
  | none => rfl
  | some current =>
    cases best with
    | none =>
      by_cases hcut : current.nanoTs < cutoff
      · simp [hcut]
      · simp [hcut]
    | some best =>
      obtain ⟨bestQ, oldestEntry⟩ := best
      by_cases hcut : current.nanoTs < cutoff
      · by_cases hlt : current.nanoTs < oldestEntry.nanoTs
        · simp [hcut, hlt]
        · simp [hcut, hlt]
      · simp [hcut]

theorem oldest_times (cutoff : ℕ) (entries : LogQueue → List LogEntry) :
    oldest cutoff (times entries) =
      (oldestEntry cutoff Threads.gLogQueues entries).map Prod.fst := by
  have hfold : Threads.gLogQueues.foldl (onTimes cutoff (times entries))
      (Option.map (Prod.map id LogEntry.nanoTs) none) =
      (Threads.gLogQueues.foldl (onQueue cutoff entries) none).map (Prod.map id LogEntry.nanoTs) :=
    List.foldl_hom (Option.map (Prod.map id LogEntry.nanoTs)) (onTimes_times cutoff entries)
  calc oldest cutoff (times entries)
      = (Threads.gLogQueues.foldl (onTimes cutoff (times entries)) none).map Prod.fst := rfl
    _ = ((oldestEntry cutoff Threads.gLogQueues entries).map
          (Prod.map id LogEntry.nanoTs)).map Prod.fst := by
        rw [oldestEntry, ← hfold, Option.map_none]
    _ = (oldestEntry cutoff Threads.gLogQueues entries).map Prod.fst := by
        rw [Option.map_map]
        rfl

/-- **The machine flushes the same way**: a step for each line, and one that finds no more. -/
theorem mainStep_drain {cutoff : ℕ} {rest : List Threads.MainStep}
    {entries' : LogQueue → List LogEntry} (fuel : ℕ) : ∀ {out : List (LogQueue × LogEntry)}
    {entries : LogQueue → List LogEntry} {s : ThreadsState},
    flushLoop cutoff Threads.gLogQueues fuel entries = some (out, entries') →
    s.logs = times entries → s.main = .drain cutoff :: rest →
    mainStep^[out.length + 1] s = { s with logs := times entries', main := rest } := by
  induction fuel with
  | zero => exact nofun
  | succ fuel ih =>
    intro out entries s hrun hlogs hmain
    rw [flushLoop] at hrun
    have hstep : mainStep s = Threads.onMainStep rest (.drain cutoff) s := by
      unfold mainStep
      rw [hmain]
    have holdest := oldest_times cutoff entries
    rw [← hlogs] at holdest
    simp only [Threads.onMainStep, holdest] at hstep
    cases hbest : oldestEntry cutoff Threads.gLogQueues entries with
    | none =>
      rw [hbest] at hrun hstep
      obtain ⟨rfl, rfl⟩ := Prod.mk.inj (Option.some.inj hrun)
      simp only [List.length_nil, Nat.zero_add, Function.iterate_one]
      rw [hstep, ← hlogs]
      rfl
    | some best =>
      obtain ⟨q, e⟩ := best
      rw [hbest] at hrun hstep
      obtain ⟨⟨out', entries''⟩, hrun', heq⟩ := Option.map_eq_some_iff.mp hrun
      obtain ⟨rfl, rfl⟩ := Prod.mk.inj heq
      have hlogs' : Function.update s.logs q (s.logs q).tail =
          times (Function.update entries q (entries q).tail) := by
        rw [times_update, hlogs]
        unfold times
        rw [List.map_tail]
      have hnext := ih (s := mainStep s) hrun' (by rw [hstep, ← hlogs']; rfl)
        (by rw [hstep]; exact hmain)
      rw [List.length_cons, Function.iterate_succ_apply, hnext, hstep]
      rfl

end KzGlobal.Shutdown.Flush
