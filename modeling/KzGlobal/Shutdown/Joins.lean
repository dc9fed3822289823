import KzGlobal.Shutdown.Threads

/-! # Whether the shutdown ends

The main thread notifies without the mutex of the threads, so a thread that has found its predicate
false and does not sleep yet misses the notify of the shutdown. And after the flush of the shutdown
nobody takes lines from the log queues, so the threads may log only as many lines as there is room
for. These are the two ways to a deadlock: where neither happens, the main thread never waits for a
thread that cannot go on (`never_deadlocked`). -/

namespace KzGlobal.Shutdown.Joins

open KzGlobal.Lib.Runs KzGlobal.Shutdown.Threads

variable {s : ThreadsState} {t t' : Worker} {q : LogQueue}

/-- The thread tries to push a line to a full queue. -/
def Spinning (t : Worker) (s : ThreadsState) : Prop :=
  ∃ stage q acts ts, (s.worker t).pc = .acting stage (.log q :: acts) ∧
    (s.worker t).entry = some ts ∧ logCapacity ≤ (s.logs q).length

/-- **The shutdown is deadlocked**: the main thread waits for the writer, the uploads or the parser
to end, and that thread sleeps or tries to push a line to a full queue. -/
def Deadlocked (s : ThreadsState) : Prop :=
  ∃ t rest, t ≠ .compress ∧ s.main = .join t :: rest ∧ ((s.worker t).pc = .asleep ∨ Spinning t s)

/-! ### The lines to come -/

/-- The items that a thread other than the compression has not begun with. -/
def waiting (stage : Stage) (queue : List (List Act)) : List (List Act) :=
  match stage with
  | .init => queue
  | .item => queue.tail

/-- What such a thread still does with what it has. -/
def toCome (w : WorkerState) : List Act :=
  match w.pc with
  | .acting stage acts => acts ++ (waiting stage w.queue).flatten
  | _ => w.queue.flatten

/-- The lines in a log queue and those that the writer, the uploads and the parser still push to
it. -/
def total (q : LogQueue) (s : ThreadsState) : ℕ :=
  (s.logs q).length +
    ([Worker.writer, .upload, .parser].map fun t => (toCome (s.worker t)).count (.log q)).sum

/-- What the main thread does after the flush of the shutdown. -/
def uninit : List MainStep := kzRpUninit ++ kzPbUninit

/-- The flush of the shutdown is over. -/
def Flushed (s : ThreadsState) : Prop := s.shutdown = true ∧ s.main <:+ uninit

/-- The step pushes a line that is not one of those to come, or adds one to them: a line of the
WebSocket thread or of the compression, or the writer finds the queue of the compression full. -/
def LogsMore (s : ThreadsState) (q : LogQueue) : Event → Prop
  | .webSocketLog _ => q = .wsLog ∧ (s.logs q).length < logCapacity
  | .workerStep .compress =>
    ∃ stage acts ts, (s.worker .compress).pc = .acting stage (.log q :: acts) ∧
      (s.worker .compress).entry = some ts ∧ (s.logs q).length < logCapacity
  | .workerStep t =>
    q = .writerLog ∧ ∃ stage lines acts, (s.worker t).pc = .acting stage (.compress lines :: acts) ∧
      capacity .compress ≤ (s.worker .compress).queue.length
  | _ => False

/-- **The step that leaves a way out.** At the shutdown's notify the thread is not on its way to
sleep; when the flush of the shutdown ends there is room for all lines to come; and another line
finds room beside them. -/
structure InTime (s : ThreadsState) (e : Event) : Prop where
  awake : e = .mainStep → s.shutdown = true → ∀ t rest, s.main = .notify t :: rest → t ≠ .compress →
    (s.worker t).pc ≠ .checked
  room : e = .mainStep → s.shutdown = true → ∀ cutoff rest, s.main = .drain cutoff :: rest →
    oldest cutoff s.logs = none → ∀ q, total q s ≤ logCapacity
  spare : Flushed s → ∀ q, LogsMore s q e → total q s < logCapacity

/-! ### What a step of a thread does -/

@[simp] theorem worker_setWorker (t : Worker) (w : WorkerState) (s : ThreadsState) :
    (s.setWorker t w).worker = Function.update s.worker t w := rfl

@[simp] theorem logs_setWorker (t : Worker) (w : WorkerState) (s : ThreadsState) :
    (s.setWorker t w).logs = s.logs := rfl

/-- The flags, the main thread and the clock stay. -/
def Frame (s s' : ThreadsState) : Prop :=
  s'.krpRunning = s.krpRunning ∧ s'.pbRunning = s.pbRunning ∧ s'.main = s.main ∧
    s'.shutdown = s.shutdown

theorem frame_notify (t : Worker) (s : ThreadsState) : Frame s (notify t s) := by
  unfold notify
  split_ifs
  · exact ⟨rfl, rfl, rfl, rfl⟩
  · exact ⟨rfl, rfl, rfl, rfl⟩

theorem worker_notify (t t' : Worker) (s : ThreadsState) : (notify t s).worker t' = s.worker t' ∨
    t' = t ∧ (s.worker t).pc = .asleep ∧
    (notify t s).worker t' = { s.worker t' with pc := .locked } := by
  unfold notify
  split_ifs with hpc
  · by_cases ht : t' = t
    · subst ht
      exact Or.inr ⟨rfl, hpc, Function.update_self ..⟩
    · exact Or.inl (Function.update_of_ne ht _ _)
  · exact Or.inl rfl

/-- The thread is on its way to sleep or asleep. -/
def Dozing (w : WorkerState) : Prop := w.pc = .checked ∨ w.pc = .asleep

/-- What a thread leaves of the others: only the compression gets an item or is woken, and no log
queue gets shorter. -/
structure Leaves (s s' : ThreadsState) : Prop where
  frame : Frame s s'
  others : ∀ t', t' ≠ .compress → s'.worker t' = s.worker t'
  logs : ∀ q, (s.logs q).length ≤ (s'.logs q).length

theorem leaves_refl (s : ThreadsState) : Leaves s s :=
  ⟨⟨rfl, rfl, rfl, rfl⟩, fun _ _ => rfl, fun _ => le_rfl⟩

theorem length_le_push (s : ThreadsState) (q q' : LogQueue) (ts : ℕ) :
    (s.logs q).length ≤ (Function.update s.logs q' (s.logs q' ++ [ts]) q).length := by
  by_cases hq : q = q'
  · subst hq
    rw [Function.update_self, List.length_append]
    omega
  · rw [Function.update_of_ne hq]

theorem leaves_notify (s : ThreadsState) : Leaves s (notify .compress s) where
  frame := frame_notify .compress s
  others t' ht := (worker_notify .compress t' s).resolve_right fun h => ht h.1
  logs q := by
    unfold notify
    split_ifs
    · exact le_rfl
    · exact le_rfl

theorem not_dozing_acting {w : WorkerState} {stage : Stage} {acts : List Act}
    (hpc : w.pc = .acting stage acts) :
    ¬ Dozing w := by
  unfold Dozing
  rw [hpc, not_or]
  exact ⟨nofun, nofun⟩

/-- **The next thing a thread does** changes the thread itself and leaves the others. -/
theorem onAct_cases {stage : Stage} {a : Act} {acts : List Act}
    (hpc : (s.worker t).pc = .acting stage (a :: acts)) :
    onAct t stage acts a s = s ∨
      ∃ s₁ w, onAct t stage acts a s = s₁.setWorker t w ∧ Leaves s s₁ ∧ ¬ Dozing w := by
  cases a with
  | log q =>
    unfold onAct
    dsimp only
    split
    · exact Or.inr ⟨s, _, rfl, leaves_refl s, not_dozing_acting hpc⟩
    · rename_i ts _
      split_ifs
      · exact Or.inr ⟨_, _, rfl,
          ⟨⟨rfl, rfl, rfl, rfl⟩, fun _ _ => rfl, fun q' => length_le_push s q' q ts⟩,
          not_dozing_acting rfl⟩
      · exact Or.inl rfl
  | compress lines =>
    unfold onAct
    dsimp only
    split_ifs
    · exact Or.inr ⟨_, _, rfl, ⟨⟨rfl, rfl, rfl, rfl⟩, fun _ ht => Function.update_of_ne ht _ _,
        fun _ => le_rfl⟩, not_dozing_acting rfl⟩
    · exact Or.inr ⟨s, _, rfl, leaves_refl s, not_dozing_acting rfl⟩
  | notifyCompress => exact Or.inr ⟨_, _, rfl, leaves_notify s, not_dozing_acting rfl⟩

theorem toCome_acting {w : WorkerState} {stage : Stage} {acts : List Act}
    (hpc : w.pc = .acting stage acts) :
    toCome w = acts ++ (waiting stage w.queue).flatten := by
  rw [toCome, hpc]

/-- **A thread does the next thing or goes on in its loop.** There it still has the same to do, and
it goes to sleep only while its flag is set. -/
theorem workerStep_acts_or (t : Worker) (s : ThreadsState) :
    (∃ stage a acts, (s.worker t).pc = .acting stage (a :: acts) ∧
      workerStep t s = onAct t stage acts a s) ∨ workerStep t s = s ∨
      ∃ w, workerStep t s = s.setWorker t w ∧ (t ≠ .compress → toCome w = toCome (s.worker t)) ∧
        (Dozing w → Dozing (s.worker t) ∨ s.running t = true) := by
  unfold workerStep
  dsimp only
  split
  · rename_i stage a acts hact
    exact Or.inl ⟨stage, a, acts, hact, rfl⟩
  · rename_i hact
    exact Or.inr (Or.inr ⟨_, rfl, fun _ => (toCome_acting hact).symm,
      fun hd => hd.elim nofun nofun⟩)
  · rename_i hact
    refine Or.inr (Or.inr ⟨_, rfl, fun ht => ?_, fun hd => hd.elim nofun nofun⟩)
    rw [toCome_acting hact, if_neg ht]
    rfl
  · rename_i houter
    refine Or.inr (Or.inr ⟨_, rfl, fun _ => ?_, fun hd => ?_⟩)
    · rw [toCome, toCome, houter]
      dsimp only
      split_ifs
      · rfl
      · rfl
    · unfold Dozing at hd
      dsimp only at hd
      split_ifs at hd
      · exact hd.elim nofun nofun
      · exact hd.elim nofun nofun
  · rename_i hinner
    split
    · refine Or.inr (Or.inr ⟨_, rfl, fun _ => ?_, fun hd => hd.elim nofun nofun⟩)
      rw [toCome, toCome, hinner]
    · rename_i item rest hqueue
      refine Or.inr (Or.inr ⟨_, rfl, fun ht => ?_, fun hd => absurd hd (not_dozing_acting rfl)⟩)
      rw [toCome, toCome, hinner, if_neg ht, hqueue]
      rfl
  · rename_i hlocked
    refine Or.inr (Or.inr ⟨_, rfl, fun _ => ?_, fun hd => ?_⟩)
    · rw [toCome, toCome, hlocked]
      dsimp only
      split_ifs
      · rfl
      · rfl
    · unfold Dozing at hd
      dsimp only at hd
      split_ifs at hd with hpred
      · exact hd.elim nofun nofun
      · exact Or.inr (by simpa using (not_or.mp hpred).2)
  · rename_i hchecked
    refine Or.inr (Or.inr ⟨_, rfl, fun _ => ?_, fun _ => Or.inl (Or.inl hchecked)⟩)
    rw [toCome, toCome, hchecked]
  · exact Or.inr (Or.inl rfl)
  · exact Or.inr (Or.inl rfl)

/-- **What a step of a thread does**: nothing, or it changes the thread itself and leaves the
others. -/
theorem workerStep_cases (t : Worker) (s : ThreadsState) : workerStep t s = s ∨
    ∃ s₁ w, workerStep t s = s₁.setWorker t w ∧ Leaves s s₁ ∧
      (Dozing w → Dozing (s.worker t) ∨ s.running t = true) := by
  rcases workerStep_acts_or t s with ⟨stage, a, acts, hpc, hstep⟩ | heq | ⟨w, heq, -, hd⟩
  · rw [hstep]
    refine (onAct_cases hpc).imp_right ?_
    rintro ⟨s₁, w, heq, hleaves, hd⟩
    exact ⟨s₁, w, heq, hleaves, fun hw => absurd hw hd⟩
  · exact Or.inl heq
  · exact Or.inr ⟨s, w, heq, leaves_refl s, hd⟩

theorem frame_workerStep (t : Worker) (s : ThreadsState) : Frame s (workerStep t s) := by
  rcases workerStep_cases t s with heq | ⟨s₁, w, heq, hleaves, -⟩
  · rw [heq]
    exact (leaves_refl s).frame
  · rw [heq]
    exact hleaves.frame

theorem dozing_of_setWorker {w : WorkerState} (h : Dozing ((s.setWorker t w).worker t'))
    (hw : ¬ Dozing w) :
    Dozing (s.worker t') := by
  by_cases htt : t' = t
  · subst htt
    rw [worker_setWorker, Function.update_self] at h
    exact absurd h hw
  · rwa [worker_setWorker, Function.update_of_ne htt] at h

/-- **A thread goes to sleep only while its flag is set.** -/
theorem dozing_workerStep (ht : t' ≠ .compress) (h : Dozing ((workerStep t s).worker t')) :
    Dozing (s.worker t') ∨ s.running t' = true := by
  rcases workerStep_cases t s with heq | ⟨s₁, w, heq, hleaves, hd⟩
  · rw [heq] at h
    exact Or.inl h
  · rw [heq, worker_setWorker] at h
    by_cases htt : t' = t
    · subst htt
      rw [Function.update_self] at h
      exact hd h
    · rw [Function.update_of_ne htt, hleaves.others t' ht] at h
      exact Or.inl h

/-- A step of another thread leaves a thread alone, and no thread takes lines from a log queue. -/
theorem workerStep_others (t : Worker) (s : ThreadsState) :
    (∀ t', t' ≠ t → t' ≠ .compress → (workerStep t s).worker t' = s.worker t') ∧
      ∀ q, (s.logs q).length ≤ ((workerStep t s).logs q).length := by
  rcases workerStep_cases t s with heq | ⟨s₁, w, heq, hleaves, -⟩
  · rw [heq]
    exact ⟨fun _ _ _ => rfl, fun _ => le_rfl⟩
  · rw [heq]
    refine ⟨fun t' htt ht => ?_, hleaves.logs⟩
    rw [worker_setWorker, Function.update_of_ne htt, hleaves.others t' ht]

/-! ### The lines to come get fewer -/

theorem total_setWorker (s : ThreadsState) (w : WorkerState) (ht : t ≠ .compress) :
    total q (s.setWorker t w) + (toCome (s.worker t)).count (.log q) =
    total q s + (toCome w).count (.log q) := by
  unfold total
  rw [logs_setWorker, worker_setWorker]
  cases t with
  | compress => exact absurd rfl ht
  | _ =>
    simp only [List.map_cons, List.map_nil, List.sum_cons, List.sum_nil, Function.update_self,
      ne_eq, reduceCtorEq, not_false_eq_true, Function.update_of_ne]
    omega

theorem total_setWorker_compress (s : ThreadsState) (w : WorkerState) :
    total q (s.setWorker .compress w) = total q s := by
  unfold total
  rw [logs_setWorker, worker_setWorker]
  simp only [List.map_cons, List.map_nil, ne_eq, reduceCtorEq, not_false_eq_true,
    Function.update_of_ne]

theorem total_setWorker_eq {w : WorkerState} (hw : t ≠ .compress → toCome w = toCome (s.worker t)) :
    total q (s.setWorker t w) = total q s := by
  by_cases ht : t = .compress
  · subst ht
    exact total_setWorker_compress s w
  · have h := total_setWorker (q := q) s w ht
    rw [hw ht] at h
    omega

theorem total_notify (t : Worker) (s : ThreadsState) : total q (notify t s) = total q s := by
  unfold notify
  split_ifs with hpc
  · exact total_setWorker_eq fun _ => by rw [toCome, toCome, hpc]
  · rfl

theorem total_push (s : ThreadsState) (q' : LogQueue) (ts : ℕ) :
    total q { s with logs := Function.update s.logs q' (s.logs q' ++ [ts]) } =
    total q s + if q = q' then 1 else 0 := by
  unfold total
  dsimp only
  by_cases hq : q = q'
  · subst hq
    rw [Function.update_self, if_pos rfl, List.length_append, List.length_singleton]
    omega
  · rw [Function.update_of_ne hq, if_neg hq]
    omega

/-- An item that is handed to the compression goes to another queue, and where that is full the
writer logs a line more. -/
theorem logsMore_of_full (ht : t ≠ .compress) {stage : Stage} {lines : List LogQueue}
    {acts : List Act} (hpc : (s.worker t).pc = .acting stage (.compress lines :: acts))
    (hfull : ¬ (s.worker .compress).queue.length < capacity .compress) :
    LogsMore s .writerLog (.workerStep t) := by
  have h : LogQueue.writerLog = .writerLog ∧ ∃ stage lines acts,
      (s.worker t).pc = .acting stage (.compress lines :: acts) ∧
        capacity .compress ≤ (s.worker .compress).queue.length :=
    ⟨rfl, stage, lines, acts, hpc, not_lt.mp hfull⟩
  cases t with
  | compress => exact absurd rfl ht
  | _ => exact h

theorem total_setActs {stage : Stage} {acts : List Act} (hpc : (s.worker t).pc = .acting stage acts)
    (ht : t ≠ .compress) (acts' : List Act) (entry : Option ℕ) :
    total q (s.setWorker t ⟨.acting stage acts', (s.worker t).queue, entry⟩) + acts.count (.log q) =
      total q s + acts'.count (.log q) := by
  have h := total_setWorker (q := q) s ⟨.acting stage acts', (s.worker t).queue, entry⟩ ht
  rw [toCome_acting hpc, toCome_acting rfl, List.count_append, List.count_append] at h
  dsimp only at h
  omega

theorem total_log {stage : Stage} {q' : LogQueue} {acts : List Act}
    (hpc : (s.worker t).pc = .acting stage (.log q' :: acts)) (h : total q s ≤ logCapacity)
    (hmore : LogsMore s q (.workerStep t) → total q s < logCapacity) :
    total q (onAct t stage acts (.log q') s) ≤ logCapacity := by
  unfold onAct
  dsimp only
  split
  · refine (total_setWorker_eq fun _ => ?_).trans_le h
    rfl
  · rename_i ts hentry
    by_cases hlen : (s.logs q').length < logCapacity
    · rw [if_pos hlen]
      have hpush := total_push (q := q) s q' ts
      by_cases ht : t = .compress
      · subst ht
        rw [total_setWorker_compress, hpush]
        by_cases hq : q = q'
        · subst hq
          rw [if_pos rfl]
          exact hmore ⟨stage, acts, ts, hpc, hentry, hlen⟩
        · rwa [if_neg hq]
      · have hmid :
            (({ s with logs := Function.update s.logs q' (s.logs q' ++ [ts]) } :
            ThreadsState).worker t).pc =
            .acting stage (.log q' :: acts) := hpc
        have hset := total_setActs (q := q) hmid ht acts none
        rw [hpush, List.count_cons] at hset
        by_cases hq : q = q'
        · subst hq
          rw [if_pos rfl, beq_self_eq_true, if_pos rfl] at hset
          dsimp only at hset ⊢
          omega
        · have hne : ¬ (Act.log q' == Act.log q) = true := by simpa using Ne.symm hq
          rw [if_neg hq, if_neg hne] at hset
          dsimp only at hset ⊢
          omega
    · rwa [if_neg hlen]

theorem total_compress {stage : Stage} {lines : List LogQueue} {acts : List Act}
    (hpc : (s.worker t).pc = .acting stage (.compress lines :: acts)) (h : total q s ≤ logCapacity)
    (hmore : LogsMore s q (.workerStep t) → total q s < logCapacity) :
    total q (onAct t stage acts (.compress lines) s) ≤ logCapacity := by
  unfold onAct
  dsimp only
  by_cases hlen : (s.worker .compress).queue.length < capacity .compress
  · rw [if_pos hlen]
    have hcompress :
        total q (s.setQueue .compress ((s.worker .compress).queue ++ [lines.map .log])) =
        total q s :=
      total_setWorker_compress s _
    by_cases ht : t = .compress
    · subst ht
      exact ((total_setWorker_compress _ _).trans hcompress).trans_le h
    · have hmid :
          ((s.setQueue .compress ((s.worker .compress).queue ++ [lines.map .log])).worker t).pc =
          .acting stage (.compress lines :: acts) := by
        unfold ThreadsState.setQueue
        rwa [worker_setWorker, Function.update_of_ne ht]
      have hset := total_setActs (q := q) hmid ht (.notifyCompress :: acts)
        ((s.setQueue .compress ((s.worker .compress).queue ++ [lines.map .log])).worker t).entry
      rw [hcompress] at hset
      simp only [List.count_cons, beq_iff_eq, reduceCtorEq, if_false] at hset
      unfold ThreadsState.setPc
      dsimp only
      omega
  · rw [if_neg hlen]
    unfold ThreadsState.setPc
    by_cases ht : t = .compress
    · subst ht
      exact (total_setWorker_compress _ _).trans_le h
    · have hset := total_setActs (q := q) hpc ht (.log .writerLog :: .notifyCompress :: acts)
        (s.worker t).entry
      simp only [List.count_cons, beq_iff_eq, reduceCtorEq, if_false, Act.log.injEq] at hset
      by_cases hq : LogQueue.writerLog = q
      · subst hq
        have hlt := hmore (logsMore_of_full ht hpc hlen)
        rw [if_pos rfl] at hset
        dsimp only
        omega
      · rw [if_neg hq] at hset
        dsimp only
        omega

theorem total_notifyCompress {stage : Stage} {acts : List Act}
    (hpc : (s.worker t).pc = .acting stage (.notifyCompress :: acts))
    (h : total q s ≤ logCapacity) :
    total q (onAct t stage acts .notifyCompress s) ≤ logCapacity := by
  unfold onAct
  dsimp only
  have hnotify := total_notify (q := q) .compress s
  by_cases ht : t = .compress
  · subst ht
    exact ((total_setWorker_compress _ _).trans hnotify).trans_le h
  · have hworker := (leaves_notify s).others t ht
    have hset := total_setActs (q := q)
      (hworker ▸ hpc) ht acts ((notify .compress s).worker t).entry
    simp only [List.count_cons, beq_iff_eq, reduceCtorEq, if_false] at hset
    unfold ThreadsState.setPc
    dsimp only
    omega

/-- **A step of a thread**: the lines in the queue and to come fit, if one that is not among them
does. -/
theorem total_workerStep (h : total q s ≤ logCapacity)
    (hmore : LogsMore s q (.workerStep t) → total q s < logCapacity) :
    total q (workerStep t s) ≤ logCapacity := by
  rcases workerStep_acts_or t s with ⟨stage, a, acts, hpc, hstep⟩ | heq | ⟨w, heq, hw, -⟩
  · rw [hstep]
    cases a with
    | log q' => exact total_log hpc h hmore
    | compress lines => exact total_compress hpc h hmore
    | notifyCompress => exact total_notifyCompress hpc h
  · rwa [heq]
  · rw [heq]
    exact (total_setWorker_eq hw).trans_le h

/-! ### What the shutdown keeps -/

/-- The flag that a thread reads is cleared by this step. -/
def storeOf : Worker → MainStep
  | .parser => .storePbRunning
  | _ => .storeKrpRunning

theorem store_before_notify {main : List MainStep} (h : main <:+ uninit) (t : Worker)
    (hno : .notify t ∉ main) : storeOf t ∉ main := by
  have hall : ∀ k ≤ uninit.length, storeOf t ∈ uninit.drop k → .notify t ∈ uninit.drop k := by
    cases t <;> decide
  obtain ⟨pre, hpre⟩ := h
  have hdrop : uninit.drop pre.length = main := by rw [← hpre, List.drop_left]
  have hlen : pre.length ≤ uninit.length := by
    rw [← hpre, List.length_append]
    omega
  rw [← hdrop] at hno ⊢
  exact fun hmem => hno (hall _ hlen hmem)

theorem mem_uninit (t : Worker) : storeOf t ∈ uninit ∧ .notify t ∈ uninit := by cases t <;> decide

theorem not_suffix_uninit (a : MainStep) : ¬ a :: uninit <:+ uninit := fun h => by
  have hlen := h.length_le
  rw [List.length_cons] at hlen
  omega

/-- **What keeps the shutdown from a deadlock.** A thread that was notified stays awake, and after
the flush there is room for all lines to come. -/
structure Safe (s : ThreadsState) : Prop where
  before : s.shutdown = false → ∀ t, .join t ∉ s.main
  steps : s.shutdown = true →
    s.main = fnGameShutdown ∨ (∃ cutoff, s.main = .drain cutoff :: uninit) ∨ s.main <:+ uninit
  stopped : s.shutdown = true → ∀ t, storeOf t ∉ s.main → s.running t = false
  awake : s.shutdown = true → ∀ t, t ≠ .compress → .notify t ∉ s.main → ¬ Dozing (s.worker t)
  room : Flushed s → ∀ q, total q s ≤ logCapacity

theorem safe_init (lines : List LogQueue) : Safe (.init lines) where
  before _ _ := List.not_mem_nil
  steps h := by cases h
  stopped h := by cases h
  awake h := by cases h
  room h := by cases h.1

/-- **No thread that the main thread waits for is stuck.** -/
theorem Safe.not_deadlocked (h : Safe s) : ¬ Deadlocked s := by
  rintro ⟨t, rest, ht, hm, hstuck⟩
  have hshut : s.shutdown = true := by
    by_contra hno
    exact h.before (by simpa using hno) t (hm ▸ List.mem_cons_self)
  have hsuffix : s.main <:+ uninit := by
    rcases h.steps hshut with heq | ⟨cutoff, heq⟩ | hsuffix
    · rw [hm] at heq
      cases heq
    · rw [hm] at heq
      cases heq
    · exact hsuffix
  rcases hstuck with hasleep | ⟨stage, q, acts, ts, hpc, -, hfull⟩
  · -- the notify comes before the join
    have hall : ∀ k ≤ uninit.length, (uninit.drop k).head? = some (.join t) →
        .notify t ∉ uninit.drop k := by
      cases t <;> decide
    obtain ⟨pre, hpre⟩ := hsuffix
    have hdrop : uninit.drop pre.length = s.main := by rw [← hpre, List.drop_left]
    have hlen : pre.length ≤ uninit.length := by
      rw [← hpre, List.length_append]
      omega
    have hno : .notify t ∉ s.main := by
      rw [← hdrop]
      exact hall _ hlen (by rw [hdrop, hm]; rfl)
    exact h.awake hshut t ht hno (Or.inr hasleep)
  · -- the line that it tries to push is one of those to come
    have hroom := h.room ⟨hshut, hsuffix⟩ q
    have hcount : 0 < (toCome (s.worker t)).count (.log q) := by
      rw [toCome_acting hpc]
      exact List.count_pos_iff.mpr List.mem_cons_self
    unfold total at hroom
    cases t with
    | compress => exact absurd rfl ht
    | _ =>
      simp only [List.map_cons, List.map_nil, List.sum_cons, List.sum_nil] at hroom
      omega

theorem Safe.not_running (h : Safe s) (hs : s.shutdown = true) (t : Worker)
    (hno : .notify t ∉ s.main) :
    s.running t = false := by
  have hmem := (mem_uninit t).2
  refine h.stopped hs t ?_
  rcases h.steps hs with heq | ⟨cutoff, heq⟩ | hsuffix
  · exact absurd (heq ▸ List.mem_cons_of_mem _ hmem) hno
  · exact absurd (heq ▸ List.mem_cons_of_mem _ hmem) hno
  · exact store_before_notify hsuffix t hno

/-! ### One step -/

theorem Safe.mono {s' : ThreadsState} (h : Safe s) (hf : Frame s s')
    (hdoze : ∀ t, t ≠ .compress → Dozing (s'.worker t) → Dozing (s.worker t) ∨ s.running t = true)
    (htotal : Flushed s → ∀ q, total q s' ≤ logCapacity) : Safe s' := by
  obtain ⟨hkrp, hpb, hmain, hshut⟩ := hf
  have hrunning (t : Worker) : s'.running t = s.running t := by
    cases t with
    | parser => exact hpb
    | _ => exact hkrp
  constructor
  · rw [hshut, hmain]
    exact h.before
  · rw [hshut, hmain]
    exact h.steps
  · intro hs t ht
    rw [hrunning]
    exact h.stopped (hshut ▸ hs) t (hmain ▸ ht)
  · intro hs t ht hno hd
    rw [hshut] at hs
    rw [hmain] at hno
    rcases hdoze t ht hd with hd | hrun
    · exact h.awake hs t ht hno hd
    · rw [h.not_running hs t hno] at hrun
      cases hrun
  · intro hflush
    exact htotal ⟨hshut ▸ hflush.1, hmain ▸ hflush.2⟩

theorem safe_call (h : Safe s) (c : Call) : Safe (next s (.call c)) := by
  unfold next
  dsimp only
  by_cases hidle : s.main = [] ∧ s.shutdown = false
  · rw [if_pos hidle]
    cases c with
    | gameShutdown =>
      refine ⟨nofun, fun _ => Or.inl rfl, fun _ t hno => ?_, fun _ t _ hno => ?_, fun hflush => ?_⟩
      · exact absurd (List.mem_cons_of_mem _ (mem_uninit t).1) hno
      · exact absurd (List.mem_cons_of_mem _ (mem_uninit t).2) hno
      · exact absurd hflush.2 (not_suffix_uninit _)
    | startFrame =>
      refine ⟨fun _ t hmem => ?_, nofun, nofun, nofun, fun hflush => nomatch hflush.1⟩
      rw [callSteps, List.mem_singleton] at hmem
      cases hmem
    | queueItem t' item withNotify =>
      refine ⟨fun _ t hmem => ?_, nofun, nofun, nofun, fun hflush => nomatch hflush.1⟩
      rw [callSteps, List.mem_singleton] at hmem
      cases hmem
  · rw [if_neg hidle]
    exact h

theorem safe_before (h : Safe s) (hs : s.shutdown = false) : Safe (mainStep s) := by
  have hjoin := h.before hs
  have hsafe (s' : ThreadsState) (hshut : s'.shutdown = s.shutdown)
      (hmain : ∀ t, .join t ∉ s'.main) : Safe s' := by
    rw [hs] at hshut
    refine ⟨fun _ => hmain, ?_, ?_, ?_, fun hflush => ?_⟩
    · rw [hshut]
      nofun
    · rw [hshut]
      nofun
    · rw [hshut]
      nofun
    · rw [Flushed, hshut] at hflush
      cases hflush.1
  unfold mainStep
  rcases hm : s.main with _ | ⟨a, rest⟩
  · exact h
  · dsimp only
    rw [hm] at hjoin
    have hrest (t : Worker) : .join t ∉ rest := fun hmem => hjoin t (List.mem_cons_of_mem a hmem)
    have hcons (t : Worker) {b : MainStep} (hb : .join t ≠ b) : .join t ∉ b :: rest :=
      List.not_mem_cons_of_ne_of_not_mem hb (hrest t)
    cases a with
    | flush nanoDelay => exact hsafe _ rfl fun t => hcons t nofun
    | drain cutoff =>
      unfold onMainStep
      dsimp only
      split
      · exact hsafe _ rfl (hm ▸ hjoin)
      · exact hsafe _ rfl hrest
    | push t' item withNotify =>
      unfold onMainStep
      dsimp only
      split_ifs
      · exact hsafe _ rfl fun t => hcons t nofun
      · exact hsafe _ rfl hrest
      · exact hsafe _ rfl hrest
    | notify t' => exact hsafe _ (frame_notify t' s).2.2.2 hrest
    | storeKrpRunning => exact hsafe _ rfl hrest
    | storePbRunning => exact hsafe _ rfl hrest
    | join t' => exact absurd List.mem_cons_self (hjoin t')

theorem safe_uninit {s' : ThreadsState} (hs : s'.shutdown = true) (hsuffix : s'.main <:+ uninit)
    (hstopped : ∀ t, storeOf t ∉ s'.main → s'.running t = false)
    (hawake : ∀ t, t ≠ .compress → .notify t ∉ s'.main → ¬ Dozing (s'.worker t))
    (hroom : ∀ q, total q s' ≤ logCapacity) : Safe s' where
  before hs' := by
    rw [hs] at hs'
    cases hs'
  steps _ := Or.inr (Or.inr hsuffix)
  stopped _ := hstopped
  awake _ := hawake
  room _ := hroom

theorem safe_after (h : Safe s) (hs : s.shutdown = true) (hin : InTime s .mainStep) {a : MainStep}
    {rest : List MainStep} (hm : s.main = a :: rest) (hsuffix : a :: rest <:+ uninit) :
    Safe (onMainStep rest a s) := by
  have hrest : rest <:+ uninit := (List.suffix_cons a rest).trans hsuffix
  have hroom := h.room ⟨hs, hm ▸ hsuffix⟩
  have hmem : a ∈ uninit := hsuffix.subset List.mem_cons_self
  have hmem' {b : MainStep} (hb : b ≠ a) (hno : b ∉ rest) : b ∉ s.main := by
    rw [hm]
    exact List.not_mem_cons_of_ne_of_not_mem hb hno
  have hstopped := h.stopped hs
  have hawake := h.awake hs
  cases a with
  | flush nanoDelay => exact absurd hmem (by simp [uninit, kzRpUninit, kzPbUninit])
  | drain cutoff => exact absurd hmem (by simp [uninit, kzRpUninit, kzPbUninit])
  | push t item withNotify => exact absurd hmem (by simp [uninit, kzRpUninit, kzPbUninit])
  | notify t =>
    obtain ⟨hkrp, hpb, -, hshut⟩ := frame_notify t s
    refine safe_uninit (hshut.trans hs) hrest (fun t' hno => ?_) (fun t' ht hno hd => ?_)
      fun q => ?_
    · have h' := hstopped t' (hmem' (by cases t' <;> nofun) hno)
      cases t' with
      | parser => exact hpb.trans h'
      | _ => exact hkrp.trans h'
    · change Dozing ((notify t s).worker t') at hd
      by_cases htt : t' = t
      · subst htt
        have hpc := hin.awake rfl hs t' rest hm ht
        unfold notify at hd
        split_ifs at hd with hasleep
        · exact absurd hd (by simp [Dozing, ThreadsState.setPc])
        · exact hd.elim hpc hasleep
      · rcases worker_notify t t' s with heq | ⟨heq, -⟩
        · rw [heq] at hd
          exact hawake t' ht (hmem' (by simpa using htt) hno) hd
        · exact htt heq
    · exact (total_notify t s).trans_le (hroom q)
  | storeKrpRunning =>
    refine safe_uninit hs hrest (fun t hno => ?_)
      (fun t ht hno => hawake t ht (hmem' nofun hno)) hroom
    cases t with
    | parser => exact hstopped .parser (hmem' nofun hno)
    | _ => rfl
  | storePbRunning =>
    refine safe_uninit hs hrest (fun t hno => ?_)
      (fun t ht hno => hawake t ht (hmem' nofun hno)) hroom
    cases t with
    | parser => rfl
    | writer => exact hstopped .writer (hmem' nofun hno)
    | upload => exact hstopped .upload (hmem' nofun hno)
    | compress => exact hstopped .compress (hmem' nofun hno)
  | join t =>
    unfold onMainStep
    dsimp only
    split_ifs
    · refine safe_uninit hs hrest (fun t hno => ?_)
        (fun t ht hno => hawake t ht (hmem' nofun hno)) hroom
      exact hstopped t (hmem' (by cases t <;> nofun) hno)
    · exact h

theorem safe_shutdown (h : Safe s) (hs : s.shutdown = true) (hin : InTime s .mainStep) :
    Safe (mainStep s) := by
  unfold mainStep
  rcases hm : s.main with _ | ⟨a, rest⟩
  · exact h
  · dsimp only
    rcases h.steps hs with heq | ⟨cutoff, heq⟩ | hsuffix
    · -- the flush reads the clock
      rw [hm, fnGameShutdown, List.cons.injEq] at heq
      obtain ⟨rfl, rfl⟩ := heq
      refine ⟨fun hs' => ?_, fun _ => Or.inr (Or.inl ⟨_, rfl⟩), fun _ t hno => ?_,
        fun _ t _ hno => ?_, fun hflush => ?_⟩
      · change s.shutdown = false at hs'
        rw [hs] at hs'
        cases hs'
      · exact absurd (List.mem_cons_of_mem _ (mem_uninit t).1) hno
      · exact absurd (List.mem_cons_of_mem _ (mem_uninit t).2) hno
      · exact absurd hflush.2 (not_suffix_uninit _)
    · -- an entry is taken, or the flush ends
      have hroom := hin.room rfl hs cutoff uninit heq
      rw [hm, List.cons.injEq] at heq
      obtain ⟨rfl, rfl⟩ := heq
      unfold onMainStep
      dsimp only
      split
      · refine h.mono ⟨rfl, rfl, rfl, rfl⟩ (fun _ _ hd => Or.inl hd) fun hflush => ?_
        exact absurd (hm ▸ hflush.2) (not_suffix_uninit _)
      · rename_i hnone
        refine safe_uninit hs List.suffix_rfl (fun t hno => ?_) (fun t _ hno => ?_) (hroom hnone)
        · exact absurd (mem_uninit t).1 hno
        · exact absurd (mem_uninit t).2 hno
    · exact safe_after h hs hin hm (hm ▸ hsuffix)

/-- **One step in time** keeps the shutdown from a deadlock. -/
theorem next_safe (s : ThreadsState) (e : Event) (h : Safe s) (hin : InTime s e) :
    Safe (next s e) := by
  have hroom (hflush : Flushed s) (q : LogQueue) : total q s ≤ logCapacity := h.room hflush q
  cases e with
  | clock now => exact h.mono ⟨rfl, rfl, rfl, rfl⟩ (fun _ _ hd => Or.inl hd) hroom
  | call c => exact safe_call h c
  | mainStep =>
    by_cases hs : s.shutdown = true
    · exact safe_shutdown h hs hin
    · exact safe_before h (by simpa using hs)
  | workerStep t =>
    refine h.mono (frame_workerStep t s) (fun _ ht => dozing_workerStep ht) fun hflush q => ?_
    exact total_workerStep (hroom hflush q) (hin.spare hflush q)
  | timeout =>
    unfold next
    dsimp only
    split_ifs with hasleep
    · refine h.mono ⟨rfl, rfl, rfl, rfl⟩
        (fun t ht hd => Or.inl (dozing_of_setWorker hd fun hw => hw.elim nofun nofun))
        fun hflush q => ?_
      exact (total_setWorker_compress s _).trans_le (hroom hflush q)
    · exact h
  | webSocketLog ts =>
    unfold next
    dsimp only
    by_cases hlen : (s.logs .wsLog).length < logCapacity
    · rw [if_pos hlen]
      refine h.mono ⟨rfl, rfl, rfl, rfl⟩ (fun _ _ hd => Or.inl hd) fun hflush q => ?_
      rw [total_push]
      by_cases hq : q = .wsLog
      · subst hq
        rw [if_pos rfl]
        exact hin.spare hflush .wsLog ⟨rfl, hlen⟩
      · rw [if_neg hq]
        exact hroom hflush q
    · rw [if_neg hlen]
      exact h

/-! ### Runs -/

/-- **No deadlock, over every run**: where every step is in time, the main thread never waits for
the writer, the uploads or the parser while that thread sleeps or tries to push a line to a full
queue. -/
theorem never_deadlocked (lines : List LogQueue) (es : List Event)
    (h : Along next InTime (.init lines) es)
    (es' : List Event) (hp : es' <+: es) : ¬ Deadlocked (run next (.init lines) es') := by
  obtain ⟨post, rfl⟩ := hp
  exact ((along_append.mp h).1.run next_safe (safe_init lines)).not_deadlocked

section Sample

/-- A check that is enough for a step to be in time. -/
def quiet (s : ThreadsState) : Event → Bool
  | .mainStep =>
    match s.main with
    | .notify t :: _ => t = .compress ∨ (s.worker t).pc ≠ .checked
    | .drain _ :: _ => gLogQueues.all fun q => total q s ≤ logCapacity
    | _ => true
  | .workerStep t =>
    match (s.worker t).pc with
    | .acting _ (.log _ :: _) => t ≠ .compress
    | .acting _ (.compress _ :: _) => false
    | _ => true
  | .webSocketLog _ => false
  | _ => true

theorem inTime_of_quiet {e : Event} (h : quiet s e = true) : InTime s e where
  awake he _ t rest hm ht := by
    subst he
    simpa [quiet, hm, ht] using h
  room he _ cutoff rest hm _ q := by
    subst he
    have hall := h
    simp only [quiet, hm, List.all_eq_true, decide_eq_true_eq] at hall
    exact hall q (by cases q <;> decide)
  spare _ q hlogs := by
    exfalso
    cases e with
    | webSocketLog ts => cases h
    | workerStep t =>
      cases t with
      | compress =>
        obtain ⟨stage, acts, ts, hpc, -⟩ := hlogs
        simp [quiet, hpc] at h
      | _ =>
        obtain ⟨-, stage, lines, acts, hpc, -⟩ := hlogs
        simp [quiet, hpc] at h
    | _ => exact hlogs

/-- The writer logs a line of its first item and goes to sleep. Then the game shuts down, and the
main thread comes to the first join. -/
def sampleWork : List Event :=
  .workerStep .writer :: .clock 5 ::
    .call (.queueItem .writer [.log .writerLog] true) :: List.replicate 2 .mainStep ++
    List.replicate 8 (.workerStep .writer) ++ .call .gameShutdown :: List.replicate 7 .mainStep

/-- The threads end, and the main thread goes through the joins. -/
def sampleJoins : List Event :=
  List.replicate 2 (.workerStep .writer) ++ [.workerStep .upload, .workerStep .compress] ++
    List.replicate 5 .mainStep ++ [.workerStep .parser, .mainStep]

theorem sample_inTime : Along next InTime (.init []) (sampleWork ++ sampleJoins) := by
  have hquiet : Along next (fun s e => quiet s e = true) (.init [])
      (sampleWork ++ sampleJoins) := by
    decide +kernel
  exact hquiet.mono fun _ _ => inTime_of_quiet

/-- The main thread waits for a writer that was asleep and is awake again, and the shutdown ends. -/
theorem sample_not_deadlocked :
    (run next (.init []) sampleWork).main = .join .writer :: kzRpUninit.drop 5 ++ kzPbUninit ∧
      ¬ Deadlocked (run next (.init []) sampleWork) ∧
      (run next (.init []) (sampleWork ++ sampleJoins)).main = [] :=
  ⟨by decide +kernel,
    never_deadlocked [] _ sample_inTime sampleWork (List.prefix_append sampleWork sampleJoins),
    by decide +kernel⟩

end Sample

/-! ### A deadlock -/

theorem deadlocked_stays (s : ThreadsState) (e : Event) (h : Deadlocked s) :
    Deadlocked (next s e) := by
  have h' := h
  obtain ⟨t, rest, ht, hm, hstuck⟩ := h
  have hkeep (s' : ThreadsState) (hmain : s'.main = s.main) (hworker : s'.worker t = s.worker t)
      (hlogs : ∀ q, (s.logs q).length ≤ (s'.logs q).length) : Deadlocked s' := by
    refine ⟨t, rest, ht, hmain.trans hm, ?_⟩
    rw [hworker, Spinning, hworker]
    refine hstuck.imp_right ?_
    rintro ⟨stage, q, acts, ts, hpc, hentry, hfull⟩
    exact ⟨stage, q, acts, ts, hpc, hentry, hfull.trans (hlogs q)⟩
  cases e with
  | clock now => exact hkeep _ rfl rfl fun _ => le_rfl
  | call c =>
    unfold next
    dsimp only
    rw [if_neg fun hidle => by rw [hm] at hidle; cases hidle.1]
    exact h'
  | mainStep =>
    have hdone : (s.worker t).pc ≠ .done := by
      rcases hstuck with hasleep | ⟨_, _, _, _, hpc, -⟩
      · rw [hasleep]
        nofun
      · rw [hpc]
        nofun
    have hblocked : mainStep s = s := by
      rw [mainStep, hm]
      exact if_neg hdone
    change Deadlocked (mainStep s)
    rwa [hblocked]
  | workerStep t' =>
    by_cases htt : t = t'
    · -- a thread that is stuck does nothing
      subst htt
      have hstay : workerStep t s = s := by
        rcases hstuck with hasleep | ⟨stage, q, acts, ts, hpc, hentry, hfull⟩
        · simp only [workerStep, hasleep]
        · simp only [workerStep, hpc, onAct, hentry, if_neg (not_lt.mpr hfull)]
      change Deadlocked (workerStep t s)
      rwa [hstay]
    · obtain ⟨hworker, hlogs⟩ := workerStep_others t' s
      exact hkeep _ (frame_workerStep t' s).2.2.1 (hworker t htt ht) hlogs
  | timeout =>
    unfold next
    dsimp only
    split_ifs
    · exact hkeep _ rfl (Function.update_of_ne ht _ _) fun _ => le_rfl
    · exact h'
  | webSocketLog ts =>
    unfold next
    dsimp only
    split_ifs
    · exact hkeep _ rfl rfl fun q => length_le_push s q .wsLog ts
    · exact h'

section Sample

/-- The writer finds its predicate false; the game shuts down; and then the writer goes to sleep. -/
def sampleLostWakeup : List Event :=
  List.replicate 4 (.workerStep .writer) ++ .call .gameShutdown :: List.replicate 6 .mainStep ++
    [.workerStep .writer]

/-- **The main thread waits for a writer that sleeps.** -/
theorem wakeup_lost : Deadlocked (run next (.init []) sampleLostWakeup) :=
  ⟨.writer, [.join .upload, .join .compress] ++ kzPbUninit, nofun, rfl, Or.inl rfl⟩

end Sample

end KzGlobal.Shutdown.Joins
