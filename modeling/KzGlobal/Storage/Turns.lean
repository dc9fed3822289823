import KzGlobal.Storage.Resend

/-! # Whose turn it is to be sent again

A retry pass sends the first entry that is due, and the entries behind it wait for another pass. An
entry in front may be due again before, so it is not its place alone that an entry waits for. But
every pass that sends another entry uses up one of the sends that this one has left, and saved
entries go to the end; so an entry gets its turn within as many passes as the entries in front of it
have sends left, and one more (`turn_comes`). Only a reset of the counts gives back what is used
up. -/

namespace KzGlobal.Storage.Turns

open KzGlobal.Lib.Runs KzGlobal.Storage.Queue KzGlobal.Storage.NoReply KzGlobal.Storage.Resend

variable {τ : Type} {isEmpty : τ → Bool} {delay maxRetries ts : ℤ}

/-! ### Sends that are left -/

/-- How often an entry can still be sent. -/
def budget (maxRetries : ℤ) (r : RetryMsg τ) : ℕ := (maxRetries + 1 - r.retryCount).toNat

/-- How often some entries can still be sent. -/
def budgets (maxRetries : ℤ) (q : List (RetryMsg τ)) : ℕ := (q.map (budget maxRetries)).sum

theorem budgets_append (p q : List (RetryMsg τ)) :
    budgets maxRetries (p ++ q) = budgets maxRetries p + budgets maxRetries q := by
  rw [budgets, List.map_append, List.sum_append]
  rfl

theorem budgets_sublist {p q : List (RetryMsg τ)} (h : p.Sublist q) :
    budgets maxRetries p ≤ budgets maxRetries q := by
  induction h with
  | slnil => exact le_rfl
  | cons r _ ih => exact ih.trans (Nat.le_add_left ..)
  | cons_cons r _ ih => exact Nat.add_le_add_left ih _

theorem budgets_tag : ∀ (k : ℕ) (q : List (RetryMsg τ)),
    budgets maxRetries ((q.zipIdx k).map fun r => tag r.2 r.1) = budgets maxRetries q
  | _, [] => rfl
  | k, r :: q => by
    have ih := budgets_tag (k + 1) q
    unfold budgets at ih ⊢
    rw [List.zipIdx_cons, List.map_cons, List.map_cons, List.sum_cons, ih]
    rfl

theorem budget_again {r : RetryMsg τ} (h : Sent isEmpty delay maxRetries ts r) :
    budget maxRetries (again ts r) + 1 = budget maxRetries r := by
  have hle : (r.retryCount : ℤ) ≤ maxRetries := not_lt.mp fun hgt => h.2.1 (Or.inr hgt)
  unfold budget again
  push_cast
  omega

/-- **A pass that sends an entry** uses up one of their sends. -/
theorem budgets_retryPass {q : List (RetryMsg τ)} {r : RetryMsg τ}
    (h : (retryPass isEmpty delay maxRetries ts q).2 = some r) :
    budgets maxRetries (retryPass isEmpty delay maxRetries ts q).1 + 1 ≤ budgets maxRetries q := by
  rcases retryPass_cases isEmpty delay maxRetries ts q with
    ⟨q', hq', -⟩ | ⟨pre, pre', r', post, rfl, hsub, hsent, hq'⟩
  · rw [hq'] at h
    cases h
  · have hpre : budgets maxRetries pre' ≤ budgets maxRetries pre := budgets_sublist hsub
    have hr := budget_again hsent
    have hcons (x : RetryMsg τ) :
        budgets maxRetries (x :: post) = budget maxRetries x + budgets maxRetries post := rfl
    rw [hq', budgets_append, budgets_append, hcons, hcons]
    omega

/-- A pass that sends one of the entries in front does not get to the others, and else it goes on
behind them. -/
theorem retryPass_append (q : List (RetryMsg τ)) : ∀ p : List (RetryMsg τ),
    retryPass isEmpty delay maxRetries ts (p ++ q) =
      match (retryPass isEmpty delay maxRetries ts p).2 with
      | some r => ((retryPass isEmpty delay maxRetries ts p).1 ++ q, some r)
      | none => ((retryPass isEmpty delay maxRetries ts p).1 ++
          (retryPass isEmpty delay maxRetries ts q).1, (retryPass isEmpty delay maxRetries ts q).2)
  | [] => rfl
  | r :: p => by
    rw [List.cons_append]
    by_cases hsent : Sent isEmpty delay maxRetries ts r
    · rw [retryPass_sent _ hsent, retryPass_sent _ hsent]
      rfl
    · by_cases hdue : Due delay ts r
      · rw [retryPass_dropped _ hdue hsent, retryPass_dropped _ hdue hsent, retryPass_append q p]
      · rw [retryPass_kept _ hdue, retryPass_kept _ hdue, retryPass_append q p]
        rcases hp : (retryPass isEmpty delay maxRetries ts p).2
        · rfl
        · rfl

theorem tags_retryPass {isEmpty : ℕ × τ → Bool} (q : List (Entry τ)) :
    ((retryPass isEmpty delay maxRetries ts q).1.map tagOf).Sublist (q.map tagOf) := by
  rcases retryPass_cases isEmpty delay maxRetries ts q with
    ⟨q', hq', hsub⟩ | ⟨pre, pre', r, post, rfl, hsub, -, hq'⟩
  · rw [hq']
    exact hsub.map tagOf
  · rw [hq', List.map_append, List.map_append, List.map_cons, List.map_cons]
    exact (hsub.map tagOf).append_right _

/-! ### One entry over a run -/

/-- A frame that gets to the retry queue. -/
def isPass : Resend.Event τ → Bool
  | .frame ready _ => ready
  | _ => false

/-- Entry `i` has had its turn: it was sent, or is no longer in the queue. -/
def Served (i : ℕ) (s : Tagged τ) : Prop := i ∉ s.entries.map tagOf ∨ 0 < s.sends i

/-- Entry `i` waits as it was, and those in front of it have at most `n` sends left. -/
def Waits (maxRetries : ℤ) (r₀ : RetryMsg τ) (i n : ℕ) (s : Tagged τ) : Prop :=
  ∃ pre r post, s.entries = pre ++ r :: post ∧ tagOf r = i ∧ r.timestamp = r₀.timestamp ∧
    budgets maxRetries pre ≤ n

section Runs
variable {r₀ : RetryMsg τ} {i n : ℕ} {s : Tagged τ}

theorem Waits.mono {m : ℕ} (h : Waits maxRetries r₀ i n s) (hnm : n ≤ m) :
    Waits maxRetries r₀ i m s := by
  obtain ⟨pre, r, post, hsplit, htag, hts, hle⟩ := h
  exact ⟨pre, r, post, hsplit, htag, hts, hle.trans hnm⟩

theorem Waits.sublist (ht : Tracks r₀ i s) (h : Waits maxRetries r₀ i n s)
    {q : List (Entry τ)} (hsub : q.Sublist s.entries) :
    Served i { s with entries := q } ∨ Waits maxRetries r₀ i n { s with entries := q } := by
  obtain ⟨pre, r, post, hsplit, rfl, hts, hle⟩ := h
  have htags := ht.tags
  rw [hsplit, List.map_append, List.map_cons, List.nodup_middle, List.nodup_cons] at htags
  rw [hsplit] at hsub
  obtain ⟨q₁, q₂, rfl, h₁, h₂⟩ := List.sublist_append_iff.mp hsub
  rcases List.sublist_cons_iff.mp h₂ with h₂ | ⟨q₃, rfl, h₃⟩
  · refine Or.inl (Or.inl fun hmem => htags.1 ?_)
    rw [← List.map_append]
    exact ((h₁.append h₂).map tagOf).subset hmem
  · exact Or.inr ⟨q₁, r, q₃, rfl, rfl, hts, (budgets_sublist h₁).trans hle⟩

/-- **A pass while entry `i` is due** gives it its turn, or uses up a send of one in front. -/
theorem Waits.pass (ht : Tracks r₀ i s) (h : Waits maxRetries r₀ i n s)
    (hdue : delay < ts - r₀.timestamp) :
    Served i (pass isEmpty delay maxRetries ts s) ∨
      ∃ m, m + 1 ≤ n ∧ Waits maxRetries r₀ i m (pass isEmpty delay maxRetries ts s) := by
  obtain ⟨pre, r, post, hsplit, rfl, hts, hle⟩ := h
  have htags := ht.tags
  rw [hsplit, List.map_append, List.map_cons, List.nodup_middle, List.nodup_cons] at htags
  unfold Resend.pass
  rw [hsplit, retryPass_append]
  rcases hsome : (retryPass (fun m => isEmpty m.2) delay maxRetries ts pre).2 with _ | r'
  · left
    simp only [hsome]
    have hdue' : Due delay ts r := by
      unfold Due
      rw [hts]
      exact hdue
    by_cases hsent : Sent (fun m => isEmpty m.2) delay maxRetries ts r
    · right
      rw [retryPass_sent _ hsent]
      simp [Tagged.sends]
    · refine Or.inl fun hmem => htags.1 ?_
      rw [retryPass_dropped _ hdue' hsent, List.map_append] at hmem
      exact ((tags_retryPass pre).append (tags_retryPass post)).subset hmem
  · right
    simp only [hsome]
    have hbudget := budgets_retryPass hsome
    exact ⟨_, hbudget.trans hle, _, r, post, rfl, rfl, hts, le_rfl⟩

section Machine
variable [DecidableEq τ]

theorem Served.next (ht : Tracks r₀ i s) (h : Served i s) (e : Resend.Event τ)
    (he : ∀ id, e ≠ .requeue id) : Served i (Resend.next isEmpty delay maxRetries s e) := by
  have hsent : s.sends i ≤ (Resend.next isEmpty delay maxRetries s e).sends i := by
    cases e with
    | frame ready ts =>
      rcases (frame_law isEmpty delay maxRetries s ready ts).1 with hs | ⟨r, -, hs⟩
      · rw [Tagged.sends, Tagged.sends, hs]
      · rw [Tagged.sends, Tagged.sends, hs, List.countP_append]
        exact Nat.le_add_right ..
    | _ => exact le_rfl
  have hkeep : i ∈ (Resend.next isEmpty delay maxRetries s e).entries.map tagOf →
      i ∈ s.entries.map tagOf := by
    have hsub {q : List (Entry τ)} (h : q.Sublist s.entries) (hm : i ∈ q.map tagOf) :
        i ∈ s.entries.map tagOf := (h.map tagOf).subset hm
    cases e with
    | frame ready ts => exact fun hm => (frame_law isEmpty delay maxRetries s ready ts).2.subset hm
    | save now text msgType msgId table =>
      intro hm
      simp only [Resend.next, List.map_append, List.mem_append, List.map_cons, List.map_nil,
        List.mem_singleton] at hm
      exact hm.resolve_right fun hi => ht.known.ne hi
    | delete msgId table => exact hsub List.filter_sublist
    | acceptUpload uid => exact hsub List.eraseP_sublist
    | clear => exact hsub List.filter_sublist
    | deleteAll table => exact hsub List.filter_sublist
    | requeue msgId => exact absurd rfl (he msgId)
  rcases h with h | h
  · exact Or.inl fun hm => h (hkeep hm)
  · exact Or.inr (h.trans_le hsent)

/-- What is no pass leaves entry `i` waiting as before, or takes it out of the queue. -/
theorem Waits.next (ht : Tracks r₀ i s) (h : Waits maxRetries r₀ i n s) {e : Resend.Event τ}
    (he : ∀ id, e ≠ .requeue id) (hpass : isPass e = false) :
    Served i (Resend.next isEmpty delay maxRetries s e) ∨
      Waits maxRetries r₀ i n (Resend.next isEmpty delay maxRetries s e) := by
  cases e with
  | frame ready ts =>
    obtain rfl : ready = false := hpass
    exact Or.inr h
  | save now text msgType msgId table =>
    obtain ⟨pre, r, post, hsplit, htag, hts, hle⟩ := h
    right
    dsimp only [Resend.next]
    rw [hsplit, List.append_assoc, List.cons_append]
    exact ⟨pre, r, _, rfl, htag, hts, hle⟩
  | delete msgId table => exact h.sublist ht List.filter_sublist
  | acceptUpload uid => exact h.sublist ht List.eraseP_sublist
  | clear => exact h.sublist ht List.filter_sublist
  | deleteAll table => exact h.sublist ht List.filter_sublist
  | requeue msgId => exact absurd rfl (he msgId)

theorem served_run : ∀ {es : List (Resend.Event τ)} {s : Tagged τ}, Tracks r₀ i s → Served i s →
    (∀ id, .requeue id ∉ es) → Served i (run (Resend.next isEmpty delay maxRetries) s es)
  | [], _, _, h, _ => h
  | e :: es, s, ht, h, he => by
    have he' : ∀ id, e ≠ .requeue id := fun id h => he id (h ▸ List.mem_cons_self)
    rw [run_cons]
    exact served_run (ht.step isEmpty delay maxRetries (he' _)) (h.next ht e he')
      fun id hm => he id (List.mem_cons_of_mem _ hm)

/-- **More passes than there are sends left in front** of a waiting entry give it its turn. -/
theorem Waits.served : ∀ {es : List (Resend.Event τ)} {s : Tagged τ} {n : ℕ}, Tracks r₀ i s →
    Waits maxRetries r₀ i n s → (∀ id, .requeue id ∉ es) →
    (∀ ts, .frame true ts ∈ es → delay < ts - r₀.timestamp) → n < es.countP isPass →
    Served i (run (Resend.next isEmpty delay maxRetries) s es)
  | [], _, _, _, _, _, _, hn => absurd hn (Nat.not_lt_zero _)
  | e :: es, s, n, ht, h, he, hdue, hn => by
    have he' : ∀ id, e ≠ .requeue id := fun id h => he id (h ▸ List.mem_cons_self)
    have hes : ∀ id, .requeue id ∉ es := fun id hm => he id (List.mem_cons_of_mem _ hm)
    have hdues : ∀ ts, .frame true ts ∈ es → delay < ts - r₀.timestamp :=
      fun ts hm => hdue ts (List.mem_cons_of_mem _ hm)
    have ht' := ht.step isEmpty delay maxRetries (he' _)
    rw [List.countP_cons] at hn
    rw [run_cons]
    rcases hpass : isPass e
    · rw [hpass] at hn
      rcases h.next ht he' hpass with hs | hw
      · exact served_run ht' hs hes
      · exact hw.served ht' hes hdues (by simpa using hn)
    · -- only a frame is a pass
      rw [if_pos hpass] at hn
      cases e with
      | frame ready ts =>
        obtain rfl : ready = true := hpass
        rcases h.pass ht (hdue ts List.mem_cons_self) with hs | ⟨m, hm, hw⟩
        · exact served_run ht' hs hes
        · exact hw.served ht' hes hdues (by omega)
      | _ => cases hpass

/-- **An entry gets its turn**: whatever else happens to the queue, in a run that resets no counts
it is sent, or taken out of the queue, before the passes at which it is due outnumber the sends that
the entries in front of it have left. -/
theorem turn_comes (lastTs : ℤ) (q : List (RetryMsg τ)) (hi : i < q.length)
    {es : List (Resend.Event τ)} (hreset : ∀ id, .requeue id ∉ es)
    (hdue : ∀ ts, .frame true ts ∈ es → delay < ts - q[i].timestamp)
    (hpasses : budgets maxRetries (q.take i) < es.countP isPass) :
    Served i (run (Resend.next isEmpty delay maxRetries) (.init lastTs q) es) := by
  have hsplit : (Tagged.init lastTs q).entries = ((q.take i).zipIdx.map fun r => tag r.2 r.1) ++
      tag i q[i] :: ((q.drop (i + 1)).zipIdx (i + 1)).map fun r => tag r.2 r.1 := by
    have hq : q = q.take i ++ q[i] :: q.drop (i + 1) := by simp
    have hlen : 0 + (q.take i).length = i := by rw [List.length_take]; omega
    conv_lhs => rw [Tagged.init, hq, List.zipIdx_append, hlen, List.zipIdx_cons, List.map_append,
      List.map_cons]
  have hwaits : Waits maxRetries q[i] i (budgets maxRetries (q.take i)) (.init lastTs q) :=
    ⟨_, tag i q[i], _, hsplit, rfl, rfl, (budgets_tag 0 (q.take i)).le⟩
  exact hwaits.served (tracks_init lastTs q hi) hreset hdue hpasses

end Machine

end Runs

/-- The second message is sent in the sixth pass at the latest: the first has five sends left. -/
theorem turn_comes_sample : Served 1 (run (next String.isEmpty 5 4) (.init 0 sampleQueue)
    (sampleFrames ++ [.save 51 "o" msgAddRecord 3 .outgoingQueue, .frame true 60])) := by
  refine turn_comes 0 sampleQueue (i := 1) (by decide) ?_ ?_ ?_
  · simp [sampleFrames]
  · intro ts hts
    simp [sampleFrames] at hts
    change 5 < ts - 0
    omega
  · decide

end KzGlobal.Storage.Turns
