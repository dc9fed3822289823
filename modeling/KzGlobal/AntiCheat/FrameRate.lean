import KzGlobal.AntiCheat.Checks
import KzGlobal.Lib.Runs

/-! # Whose frame rate is logged

The frames of a player are counted for about a second, and the rates of the seconds averaged; the
second time in a row that the average is too high it is logged. All of this is done in `float`s.
What is logged of a player depends on the seconds of this player alone (`rates_outputs`), and
rounding is monotone, so bounds on the seconds bound the average: who keeps to the limit in every
second is never logged (`legal_not_logged`), and who has 101 frames a second for thirteen seconds is
(`illegal_logged`). -/

namespace KzGlobal.AntiCheat.FrameRate

open KzGlobal.Lib.Rounding KzGlobal.Lib.Runs KzGlobal.Krp.Format
  KzGlobal.AntiCheat.Checks

/-! ### Seconds -/

/-- The frames of a second, and how long it was. -/
abbrev Second := ℕ × ℚ

/-- The call ends a second of the player. -/
def EndsSecond (p : ℕ) (s : AcState) : Event → Prop
  | .frame _ time maxClients playing =>
    1 ≤ float (time - s.lastTime) ∧ (1 ≤ p ∧ p ≤ maxClients) ∧ playing p = true
  | _ => False

instance (p : ℕ) (s : AcState) (e : Event) : Decidable (EndsSecond p s e) := by
  cases e <;> unfold EndsSecond <;> infer_instance

/-- How long the second is that the call ends. -/
def duration (s : AcState) : Event → ℚ
  | .frame _ time _ _ => float (time - s.lastTime)
  | _ => 0

/-- The ticks of the player in the second that goes on, after the call. A second begins anew when
the player connects, and when the time goes back. -/
def ticks (p : ℕ) (s : AcState) (n : ℕ) (e : Event) : ℕ :=
  match e with
  | .postthink id _ _ => if id = p then n + 1 else n
  | .connect id => if id = p then 0 else n
  | .frame _ time _ _ => if float (time - s.lastTime) < 0 ∨ EndsSecond p s e then 0 else n
  | _ => n

/-- The seconds of the player in a run, the first of which has had `n` ticks. -/
def seconds (p : ℕ) : AcState → ℕ → List Event → List Second
  | _, _, [] => []
  | s, n, e :: es =>
    (if EndsSecond p s e then [(n, duration s e)] else []) ++
      seconds p (next s e) (ticks p s n e) es

/-- The rates of the player that are logged. -/
def rates (p : ℕ) (out : List Output) : List ℚ :=
  out.filterMap fun
    | .illegalFps id fps => if id = p then some fps else none
    | _ => none

/-- What is logged of the seconds of a player. -/
def verdicts : ℚ → ℕ → List Second → List ℚ
  | _, _, [] => []
  | avg, warns, x :: xs =>
    let (avg, warns, log) := judge avg warns (secondFps x.1 x.2)
    log.toList ++ verdicts avg warns xs

theorem verdicts_cons (avg : ℚ) (warns : ℕ) (x : Second) (xs : List Second) :
    verdicts avg warns (x :: xs) = (judge avg warns (secondFps x.1 x.2)).2.2.toList ++
      verdicts (judge avg warns (secondFps x.1 x.2)).1 (judge avg warns (secondFps x.1 x.2)).2.1
        xs := rfl

/-! ### One call -/

theorem rates_append (p : ℕ) (a b : List Output) : rates p (a ++ b) = rates p a ++ rates p b :=
  List.filterMap_append ..

@[simp] theorem rates_nil (p : ℕ) : rates p [] = [] := rfl

theorem rates_of_no_fps {p : ℕ} {out : List Output} (h : ∀ fps, .illegalFps p fps ∉ out) :
    rates p out = [] := by
  refine List.filterMap_eq_nil_iff.mpr fun o ho => ?_
  cases o with
  | illegalFps id fps =>
    refine if_neg ?_
    rintro rfl
    exact h fps ho
  | _ => rfl

theorem rates_queries (base : ℕ → ℕ → UInt32) (p id : ℕ) : rates p (queries base id) = [] := by
  refine rates_of_no_fps fun fps h => ?_
  obtain ⟨x, -, hx⟩ := List.mem_map.mp h
  cases hx

theorem rates_log (p : ℕ) (log : Option ℚ) :
    rates p (log.toList.map (.illegalFps p)) = log.toList := by
  cases log with
  | none => rfl
  | some fps => exact congrArg Option.toList (if_pos rfl)

theorem rates_log_of_ne {p id : ℕ} (h : id ≠ p) (log : Option ℚ) :
    rates p (log.toList.map (.illegalFps id)) = [] := by
  refine rates_of_no_fps fun fps hm => ?_
  obtain ⟨fps', -, he⟩ := List.mem_map.mp hm
  exact h (Output.illegalFps.inj he).1

section Loop
variable (base : ℕ → ℕ → UInt32) (time delta : ℚ) (tick : Bool) (playing : ℕ → Bool)

theorem acPlayer_tick (id : ℕ) (q : PlayerAc) :
    let r := acPlayer base time delta true id q
    let v := judge q.wavgFps q.fpsWarns (secondFps q.totalFrames delta)
    (r.1.wavgFps, r.1.fpsWarns, r.1.totalFrames) = (v.1, v.2.1, 0) ∧
      rates id r.2 = v.2.2.toList := by
  dsimp only [acPlayer]
  rw [if_pos (rfl : true = true)]
  split_ifs
  · rw [rates_append, rates_queries, rates_log]
    exact ⟨rfl, rfl⟩
  · rw [rates_append, rates_log]
    exact ⟨rfl, rfl⟩

theorem acPlayer_idle (id : ℕ) (q : PlayerAc) :
    let r := acPlayer base time delta false id q
    (r.1.wavgFps, r.1.fpsWarns, r.1.totalFrames) = (q.wavgFps, q.fpsWarns, q.totalFrames) ∧
      rates id r.2 = [] := by
  dsimp only [acPlayer]
  rw [if_neg Bool.false_ne_true]
  split_ifs
  · exact ⟨rfl, rates_queries ..⟩
  · exact ⟨rfl, rfl⟩

theorem rates_acPlayer_of_ne {p id : ℕ} (h : id ≠ p) (q : PlayerAc) :
    rates p (acPlayer base time delta tick id q).2 = [] := by
  dsimp only [acPlayer]
  split_ifs <;> simp only [rates_append, rates_queries, rates_log_of_ne h, List.append_nil] <;> rfl

/-- **The loop does with each player what it does with this one alone.** -/
theorem acLoop_foldl (p : ℕ) : ∀ {l : List ℕ}, l.Nodup → ∀ acc : (ℕ → PlayerAc) × List Output,
    (l.foldl (acLoop base time delta tick playing) acc).1 p =
        (if p ∈ l ∧ playing p = true then (acPlayer base time delta tick p (acc.1 p)).1
          else acc.1 p) ∧
      rates p (l.foldl (acLoop base time delta tick playing) acc).2 = rates p acc.2 ++
        if p ∈ l ∧ playing p = true then rates p (acPlayer base time delta tick p (acc.1 p)).2
          else []
  | [], _, acc => by simp
  | i :: l, hl, acc => by
    obtain ⟨hi, hl⟩ := List.nodup_cons.mp hl
    obtain ⟨h1, h2⟩ := acLoop_foldl p hl (acLoop base time delta tick playing acc i)
    rw [List.foldl_cons, h1, h2]
    unfold acLoop
    rcases eq_or_ne i p with rfl | hne
    · have hno : ¬ (i ∈ l ∧ playing i = true) := fun h => hi h.1
      simp only [hno, if_false, List.append_nil, List.mem_cons_self, true_and]
      by_cases hp : playing i = true
      · simp only [hp, if_true, Function.update_self, rates_append, and_self]
      · simp only [hp, Bool.false_eq_true, if_false, List.append_nil, and_self]
    · have hmem : p ∈ i :: l ↔ p ∈ l := by simp [hne.symm]
      simp only [hmem]
      by_cases hp : playing i = true
      · simp only [hp, if_true, Function.update_of_ne hne.symm, rates_append,
          rates_acPlayer_of_ne base time delta tick hne, List.append_nil, and_self]
      · simp only [hp, Bool.false_eq_true, if_false, and_self]

end Loop

/-- What a call leaves of the average and the warnings of a player, and what it logs. -/
structure Judged (p : ℕ) (s : AcState) (e : Event) (avg : ℚ) (warns : ℕ) (log : List ℚ) : Prop where
  wavgFps : ((next s e).player p).wavgFps = avg
  fpsWarns : ((next s e).player p).fpsWarns = warns
  rates : rates p (step s e).2 = log

section Step
variable {p : ℕ} {s : AcState} {e : Event} {time : ℚ}

/-- A frame of the server does with each player in the game what `acPlayer` does. -/
theorem kzAcFrame_player (base : ℕ → ℕ → UInt32) (maxClients : ℕ) (playing : ℕ → Bool)
    (h : ¬ float (time - s.lastTime) < 0) (tick : Bool)
    (htick : tick = true ↔ 1 ≤ float (time - s.lastTime)) :
    let r := acPlayer base time (float (time - s.lastTime)) tick p (s.player p)
    (kzAcFrame base time maxClients playing s).1.player p =
        (if (1 ≤ p ∧ p ≤ maxClients) ∧ playing p = true then r.1 else s.player p) ∧
      rates p (kzAcFrame base time maxClients playing s).2 =
        if (1 ≤ p ∧ p ≤ maxClients) ∧ playing p = true then rates p r.2 else [] := by
  have hdec : decide (1 < float (time - s.lastTime) ∨ float (time - s.lastTime) = 1) = tick := by
    rw [Bool.eq_iff_iff, htick, decide_eq_true_iff, le_iff_lt_or_eq, eq_comm (a := (1 : ℚ))]
  have hmem : p ∈ List.range' 1 maxClients ↔ 1 ≤ p ∧ p ≤ maxClients := by
    rw [List.mem_range'_1]
    omega
  obtain ⟨h1, h2⟩ := acLoop_foldl base time (float (time - s.lastTime)) tick playing p
    (List.nodup_range' (s := 1) (n := maxClients)) (s.player, [])
  simp only [hmem] at h1 h2
  dsimp only [kzAcFrame]
  rw [if_neg h, hdec]
  exact ⟨h1, h2⟩

theorem step_endsSecond (h : EndsSecond p s e) :
    Judged p s e (judge (s.player p).wavgFps (s.player p).fpsWarns
        (secondFps (s.player p).totalFrames (duration s e))).1
      (judge (s.player p).wavgFps (s.player p).fpsWarns
        (secondFps (s.player p).totalFrames (duration s e))).2.1
      (judge (s.player p).wavgFps (s.player p).fpsWarns
        (secondFps (s.player p).totalFrames (duration s e))).2.2.toList ∧
      ((next s e).player p).totalFrames = 0 := by
  cases e with
  | frame base time maxClients playing =>
    obtain ⟨h1, hp⟩ := h
    obtain ⟨hplayer, hrates⟩ := kzAcFrame_player base maxClients playing (p := p)
      (not_lt.mpr (zero_le_one.trans h1)) true (iff_of_true rfl h1)
    rw [if_pos hp] at hplayer hrates
    obtain ⟨hq, hr⟩ := acPlayer_tick base time (float (time - s.lastTime)) p (s.player p)
    simp only [Prod.mk.injEq] at hq
    refine ⟨⟨?_, ?_, hrates.trans hr⟩, ?_⟩ <;> unfold next step <;> dsimp only <;> rw [hplayer]
    · exact hq.1
    · exact hq.2.1
    · exact hq.2.2
  | _ => exact h.elim

theorem kzAcFrame_back (base : ℕ → ℕ → UInt32) (maxClients : ℕ) (playing : ℕ → Bool)
    (h : float (time - s.lastTime) < 0) : kzAcFrame base time maxClients playing s =
      (⟨fun i => { s.player i with lastQueryTime := 0, totalFrames := 0 }, time⟩, []) := by
  dsimp only [kzAcFrame]
  rw [if_pos h]

theorem illegalFps_notMem_querycvarResult {maxClients : ℕ} {ingame : ℕ → Bool} {id : ℕ}
    {requestId : UInt32} {cvar value : Bytes} {fps : ℚ} : .illegalFps p fps ∉
      kzAcQuerycvarResult maxClients ingame id requestId cvar value := by
  unfold kzAcQuerycvarResult
  split
  · exact List.not_mem_nil
  · split
    · exact List.not_mem_nil
    · split_ifs <;> simp

theorem step_other (h : ¬ EndsSecond p s e) (hc : e ≠ .connect p) :
    Judged p s e (s.player p).wavgFps (s.player p).fpsWarns [] ∧
      ((next s e).player p).totalFrames = ticks p s (s.player p).totalFrames e := by
  cases e with
  | frame base time maxClients playing =>
    by_cases hback : float (time - s.lastTime) < 0
    · have ht : ticks p s (s.player p).totalFrames (.frame base time maxClients playing) = 0 :=
        if_pos (Or.inl hback)
      rw [ht]
      refine ⟨⟨?_, ?_, ?_⟩, ?_⟩ <;>
        simp only [next, step, kzAcFrame_back base maxClients playing hback, rates_nil]
    · have ht : ticks p s (s.player p).totalFrames (.frame base time maxClients playing) =
          (s.player p).totalFrames := if_neg (not_or.mpr ⟨hback, h⟩)
      rw [ht]
      obtain ⟨hplayer, hrates⟩ := kzAcFrame_player base maxClients playing (p := p) hback
        (decide (1 ≤ float (time - s.lastTime))) decide_eq_true_iff
      by_cases hp : (1 ≤ p ∧ p ≤ maxClients) ∧ playing p = true
      · -- the player is in the game, but the second is not over
        have htick : ¬ 1 ≤ float (time - s.lastTime) := fun h1 => h ⟨h1, hp⟩
        rw [if_pos hp, decide_eq_false htick] at hplayer hrates
        obtain ⟨hq, hr⟩ := acPlayer_idle base time (float (time - s.lastTime)) p (s.player p)
        simp only [Prod.mk.injEq] at hq
        refine ⟨⟨?_, ?_, hrates.trans hr⟩, ?_⟩ <;> simp only [next, step, hplayer, hq]
      · rw [if_neg hp] at hplayer hrates
        refine ⟨⟨?_, ?_, hrates⟩, ?_⟩ <;> simp only [next, step, hplayer]
  | connect id =>
    have hne : p ≠ id := fun he => hc (he ▸ rfl)
    rw [ticks, if_neg hne.symm]
    refine ⟨⟨?_, ?_, rates_nil p⟩, ?_⟩ <;>
      simp only [next, step, kzAcConnect, AcState.set_of_ne hne]
  | cmd id ucmd =>
    change _ ∧ _ = (s.player p).totalFrames
    rcases eq_or_ne p id with rfl | hne
    · refine ⟨⟨?_, ?_, rates_nil p⟩, ?_⟩ <;> simp only [next, step, kzAcCmd, AcState.set_self]
    · refine ⟨⟨?_, ?_, rates_nil p⟩, ?_⟩ <;>
        simp only [next, step, kzAcCmd, AcState.set_of_ne hne]
  | postthink id button maxspeed =>
    have hr : rates p (step s (.postthink id button maxspeed)).2 = [] := by
      refine rates_of_no_fps fun fps hm => ?_
      simp only [step, kzAcPostthink, List.mem_append] at hm
      rcases hm with hm | hm <;> split_ifs at hm <;> simp at hm
    rw [ticks]
    rcases eq_or_ne p id with rfl | hne
    · rw [if_pos rfl]
      refine ⟨⟨?_, ?_, hr⟩, ?_⟩ <;> simp only [next, step, kzAcPostthink, AcState.set_self]
    · rw [if_neg hne.symm]
      refine ⟨⟨?_, ?_, hr⟩, ?_⟩ <;> simp only [next, step, kzAcPostthink, AcState.set_of_ne hne]
  | querycvarResult maxClients ingame id requestId cvar value =>
    exact ⟨⟨rfl, rfl, rates_of_no_fps fun fps => illegalFps_notMem_querycvarResult⟩, rfl⟩

theorem step_connect (p : ℕ) (s : AcState) : Judged p s (.connect p) 0 0 [] ∧
    ((next s (.connect p)).player p).totalFrames = 0 := by
  refine ⟨⟨?_, ?_, rates_nil p⟩, ?_⟩ <;> simp only [next, step, kzAcConnect, AcState.set_self]

/-- **The ticks are counted.** -/
theorem totalFrames_next (p : ℕ) (s : AcState) (e : Event) :
    ((next s e).player p).totalFrames = ticks p s (s.player p).totalFrames e := by
  by_cases h : EndsSecond p s e
  · rw [(step_endsSecond h).2]
    cases e with
    | frame base time maxClients playing => exact (if_pos (Or.inr h)).symm
    | _ => exact h.elim
  · by_cases hc : e = .connect p
    · rw [hc, (step_connect p s).2]
      exact (if_pos rfl).symm
    · exact (step_other h hc).2

end Step

/-! ### Bounds -/

theorem float_mono {x y : ℚ} (hx : 0 ≤ x) (h : x ≤ y) : float x ≤ float y :=
  binary32.round_mono (by decide) hx h

theorem float_nonneg {x : ℚ} (h : 0 ≤ x) : 0 ≤ float x := binary32.round_nonneg h

theorem float_natCast {n : ℕ} (h : n < 2 ^ 24) : float n = n :=
  binary32.round_natCast h (by decide)

theorem weighted_nonneg {avg fps : ℚ} (ha : 0 ≤ avg) (hf : 0 ≤ fps) : 0 ≤ weighted avg fps := by
  have h2 := float_nonneg (div_nonneg (float_nonneg (mul_nonneg zero_le_two ha)) zero_le_three)
  have h1 := float_nonneg (div_nonneg (float_nonneg (mul_nonneg zero_le_one hf)) zero_le_three)
  exact float_nonneg (add_nonneg h2 h1)

/-- **The average is monotone**, whatever is rounded on the way. -/
theorem weighted_mono {avg avg' fps fps' : ℚ} (ha : 0 ≤ avg) (haa : avg ≤ avg') (hf : 0 ≤ fps)
    (hff : fps ≤ fps') : weighted avg fps ≤ weighted avg' fps' := by
  have third {c x x' : ℚ} (hc : 0 ≤ c) (hx : 0 ≤ x) (hxx : x ≤ x') :
      0 ≤ float (float (c * x) / 3) ∧ float (float (c * x) / 3) ≤ float (float (c * x') / 3) := by
    have h0 := div_nonneg (float_nonneg (mul_nonneg hc hx)) zero_le_three
    refine ⟨float_nonneg h0, float_mono h0 ?_⟩
    exact div_le_div_of_nonneg_right
      (float_mono (mul_nonneg hc hx) (mul_le_mul_of_nonneg_left hxx hc)) zero_le_three
  obtain ⟨h2, h2'⟩ := third zero_le_two ha haa
  obtain ⟨h1, h1'⟩ := third zero_le_one hf hff
  exact float_mono (add_nonneg h2 h1) (add_le_add h2' h1')

theorem secondFps_nonneg (n : ℕ) {delta : ℚ} (hd : 1 ≤ delta) : 0 ≤ secondFps n delta :=
  float_nonneg (div_nonneg (float_nonneg n.cast_nonneg) (zero_le_one.trans hd))

section Second
variable {n : ℕ} {delta : ℚ} (hn : n < 2 ^ 24) (hd : 1 ≤ delta)
include hn hd

theorem secondFps_le (h : n ≤ acMaxFps * delta) : secondFps n delta ≤ acMaxFps := by
  have hmax : float acMaxFps = acMaxFps := by decide +kernel
  rw [secondFps, float_natCast hn]
  calc float (n / delta) ≤ float acMaxFps :=
        float_mono (div_nonneg n.cast_nonneg (zero_le_one.trans hd))
          ((div_le_iff₀ (one_pos.trans_le hd)).mpr h)
    _ = acMaxFps := hmax

theorem le_secondFps {m : ℕ} (hm : m < 2 ^ 24) (h : m * delta ≤ n) : m ≤ secondFps n delta := by
  rw [secondFps, float_natCast hn]
  calc (m : ℚ) = float m := (float_natCast hm).symm
    _ ≤ float (n / delta) :=
        float_mono m.cast_nonneg ((le_div_iff₀ (one_pos.trans_le hd)).mpr h)

end Second

theorem judge_of_le {avg fps : ℚ} {warns : ℕ} (h : weighted avg fps ≤ acMaxFps) :
    judge avg warns fps = (weighted avg fps, 0, none) := by
  dsimp only [judge]
  rw [if_neg (not_lt.mpr h)]

theorem judge_of_lt {avg fps : ℚ} {warns : ℕ} (h : acMaxFps < weighted avg fps) :
    judge avg warns fps = if 1 < warns + 1 then (weighted avg fps, 0, some (weighted avg fps))
      else (weighted avg fps, warns + 1, none) := by
  dsimp only [judge]
  rw [if_pos h]

theorem judge_fst (avg fps : ℚ) (warns : ℕ) : (judge avg warns fps).1 = weighted avg fps := by
  dsimp only [judge]
  split_ifs <;> rfl

theorem judge_warns_le (avg fps : ℚ) (warns : ℕ) : (judge avg warns fps).2.1 ≤ 1 := by
  dsimp only [judge]
  split_ifs with h1 h2
  · exact Nat.zero_le _
  · exact not_lt.mp h2
  · exact Nat.zero_le _

theorem one_le_duration {p : ℕ} {s : AcState} {e : Event} (h : EndsSecond p s e) :
    1 ≤ duration s e := by
  cases e with
  | frame base time maxClients playing => exact h.1
  | _ => exact h.elim

theorem one_le_of_mem_seconds {p : ℕ} : ∀ {es : List Event} {s : AcState} {n : ℕ} {x : Second},
    x ∈ seconds p s n es → 1 ≤ x.2
  | [], _, _, _, h => absurd h List.not_mem_nil
  | e :: es, s, n, x, h => by
    rcases List.mem_append.mp h with h | h
    · split_ifs at h with he
      · rw [List.mem_singleton.mp h]
        exact one_le_duration he
      · cases h
    · exact one_le_of_mem_seconds h

/-! ### Runs -/

/-- What is logged of a player who stays is what is logged of the player's seconds. -/
theorem rates_outputs {p : ℕ} : ∀ {es : List Event} (s : AcState), .connect p ∉ es →
    rates p (outputs s es) = verdicts (s.player p).wavgFps (s.player p).fpsWarns
      (seconds p s (s.player p).totalFrames es)
  | [], _, _ => rfl
  | e :: es, s, hc => by
    have hne : e ≠ .connect p := fun he => hc (he ▸ List.mem_cons_self)
    have ih := rates_outputs (next s e) fun h => hc (List.mem_cons_of_mem _ h)
    rw [totalFrames_next] at ih
    rw [outputs, rates_append, ih, seconds]
    by_cases h : EndsSecond p s e
    · obtain ⟨hj, -⟩ := step_endsSecond h
      rw [if_pos h, List.singleton_append, verdicts_cons, hj.rates, hj.wavgFps, hj.fpsWarns]
    · obtain ⟨hj, -⟩ := step_other h hne
      rw [if_neg h, List.nil_append, hj.rates, hj.wavgFps, hj.fpsWarns, List.nil_append]

/-- The average and the warnings of a player who has kept to the limit. -/
def Legal (p : ℕ) (s : AcState) : Prop :=
  0 ≤ (s.player p).wavgFps ∧ (s.player p).wavgFps ≤ acMaxFps

theorem rates_of_legal {p : ℕ} : ∀ {es : List Event} {s : AcState}, Legal p s →
    (∀ x ∈ seconds p s (s.player p).totalFrames es, x.1 < 2 ^ 24 ∧ x.1 ≤ acMaxFps * x.2) →
    rates p (outputs s es) = []
  | [], _, _, _ => rfl
  | e :: es, s, ⟨h0, hmax⟩, hx => by
    rw [seconds] at hx
    have hlegal : Legal p (next s e) ∧ rates p (step s e).2 = [] := by
      by_cases h : EndsSecond p s e
      · obtain ⟨hj, -⟩ := step_endsSecond h
        rw [if_pos h] at hx
        obtain ⟨hn, hle⟩ := hx _ List.mem_cons_self
        have hd := one_le_duration h
        have hf := secondFps_nonneg (s.player p).totalFrames hd
        have havg : weighted (s.player p).wavgFps (secondFps (s.player p).totalFrames
            (duration s e)) ≤ acMaxFps :=
          (weighted_mono h0 hmax hf (secondFps_le hn hd hle)).trans (by decide +kernel)
        rw [judge_of_le havg] at hj
        exact ⟨⟨hj.wavgFps ▸ weighted_nonneg h0 hf, hj.wavgFps ▸ havg⟩, hj.rates⟩
      · by_cases hc : e = .connect p
        · obtain ⟨hj, -⟩ := step_connect p s
          rw [hc]
          exact ⟨⟨hj.wavgFps.ge, hj.wavgFps.trans_le (by decide +kernel)⟩, hj.rates⟩
        · obtain ⟨hj, -⟩ := step_other h hc
          exact ⟨⟨hj.wavgFps ▸ h0, hj.wavgFps ▸ hmax⟩, hj.rates⟩
    rw [outputs, rates_append, hlegal.2, List.nil_append]
    refine rates_of_legal hlegal.1 fun x hxs => hx x ?_
    rw [totalFrames_next] at hxs
    exact List.mem_append_right _ hxs

/-- What is known of the entries of a player at any time. -/
def Bounded (p : ℕ) (s : AcState) : Prop :=
  0 ≤ (s.player p).wavgFps ∧ (s.player p).fpsWarns ≤ 1

/-- The least average after some seconds of 101 frames each. -/
def least : ℕ → ℚ
  | 0 => 0
  | m + 1 => weighted (least m) 101

theorem least_nonneg : ∀ m, 0 ≤ least m
  | 0 => le_rfl
  | m + 1 => weighted_nonneg (least_nonneg m) (by norm_num)

theorem acMaxFps_lt_least : acMaxFps < least 12 ∧ acMaxFps < least 13 := by decide +kernel

/-- After `m` seconds of many frames, the rest up to the thirteenth gets something logged. By the
twelfth there is a warning. -/
theorem verdicts_ne_nil : ∀ {xs : List Second} {m : ℕ} {avg : ℚ} {warns : ℕ}, m ≤ 12 →
    13 ≤ m + xs.length → least m ≤ avg → warns ≤ 1 → (m = 12 → warns = 1) →
    (∀ x ∈ xs, 101 ≤ secondFps x.1 x.2) → verdicts avg warns xs ≠ []
  | [], m, _, _, hm, hl, _, _, _, _ => by
    rw [List.length_nil] at hl
    omega
  | x :: xs, m, avg, warns, hm, hl, havg, hw, hwarn, hx => by
    rw [List.forall_mem_cons] at hx
    have hnext : least (m + 1) ≤ weighted avg (secondFps x.1 x.2) :=
      weighted_mono (least_nonneg m) havg (by norm_num) hx.1
    rw [List.length_cons] at hl
    rw [verdicts_cons]
    rcases hm.lt_or_eq with hlt | rfl
    · -- before the twelfth second
      rcases hlog : (judge avg warns (secondFps x.1 x.2)).2.2 with _ | fps
      · refine fun h => verdicts_ne_nil (m := m + 1) hlt (by omega) ?_ (judge_warns_le ..) ?_ hx.2
          (List.append_eq_nil_iff.mp h).2
        · rw [judge_fst]
          exact hnext
        · intro h12
          rw [h12] at hnext
          rw [judge_of_lt (acMaxFps_lt_least.1.trans_le hnext)] at hlog ⊢
          by_cases h1 : 1 < warns + 1
          · rw [if_pos h1] at hlog
            cases hlog
          · rw [if_neg h1]
            change warns + 1 = 1
            omega
      · exact List.cons_ne_nil _ _
    · -- the second that is logged
      rw [judge_of_lt (acMaxFps_lt_least.2.trans_le hnext), hwarn rfl, if_pos (by decide)]
      exact List.cons_ne_nil _ _

theorem bounded_next {p : ℕ} (s : AcState) (e : Event) (h : Bounded p s) :
    Bounded p (next s e) := by
  by_cases he : EndsSecond p s e
  · obtain ⟨hj, -⟩ := step_endsSecond he
    refine ⟨?_, hj.fpsWarns ▸ judge_warns_le ..⟩
    rw [hj.wavgFps, judge_fst]
    exact weighted_nonneg h.1 (secondFps_nonneg _ (one_le_duration he))
  · by_cases hc : e = .connect p
    · obtain ⟨hj, -⟩ := step_connect p s
      rw [hc]
      exact ⟨hj.wavgFps.ge, hj.fpsWarns.trans_le zero_le_one⟩
    · obtain ⟨hj, -⟩ := step_other he hc
      exact ⟨hj.wavgFps ▸ h.1, hj.fpsWarns ▸ h.2⟩

/-- **Who keeps to the limit in every second is never logged**, whatever is rounded and whatever the
other players do. -/
theorem legal_not_logged {p : ℕ} {es : List Event}
    (h : ∀ x ∈ seconds p .init 0 es, x.1 < 2 ^ 24 ∧ x.1 ≤ acMaxFps * x.2) :
    rates p (outputs .init es) = [] :=
  rates_of_legal ⟨le_rfl, show (0 : ℚ) ≤ acMaxFps by decide +kernel⟩ h

/-- Some seconds of `n` frames each of the first player. -/
def sampleSeconds (n count : ℕ) : List Event :=
  (List.range count).flatMap fun k => List.replicate n (.postthink 1 0 0) ++
    [.frame (fun _ _ => 0) (k + 1 : ℕ) 1 fun _ => true]

theorem legal_not_logged_sample : rates 1 (outputs .init (sampleSeconds 100 2)) = [] := by
  have hs : seconds 1 .init 0 (sampleSeconds 100 2) = List.replicate 2 (100, 1) := by
    decide +kernel
  refine legal_not_logged fun x hx => ?_
  rw [hs] at hx
  rw [List.eq_of_mem_replicate hx]
  exact ⟨by decide, by decide +kernel⟩

/-- **Who has 101 frames a second is logged**, at the latest after thirteen seconds in the game. -/
theorem illegal_logged {p : ℕ} {es₀ es : List Event} (hc : .connect p ∉ es)
    (h : ∀ x ∈ seconds p (run next .init es₀) ((run next .init es₀).player p).totalFrames es,
      x.1 < 2 ^ 24 ∧ 101 * x.2 ≤ x.1)
    (hl : 13 ≤ (seconds p (run next .init es₀)
      ((run next .init es₀).player p).totalFrames es).length) :
    rates p (outputs (run next .init es₀) es) ≠ [] := by
  have hb : Bounded p (run next .init es₀) :=
    run_invariant bounded_next ⟨le_rfl, Nat.zero_le _⟩ es₀
  rw [rates_outputs _ hc]
  refine verdicts_ne_nil (m := 0) (by decide) (by omega) hb.1 hb.2
    (fun h0 => by cases h0) fun x hx => ?_
  obtain ⟨hn, hle⟩ := h x hx
  have h101 := le_secondFps (m := 101) hn (one_le_of_mem_seconds hx) (by decide)
    (by exact_mod_cast hle)
  exact_mod_cast h101

theorem illegal_logged_sample :
    rates 1 (outputs (run next .init []) (sampleSeconds 101 13)) ≠ [] := by
  have hs : seconds 1 .init 0 (sampleSeconds 101 13) = List.replicate 13 (101, 1) := by
    decide +kernel
  refine illegal_logged (fun h => ?_) (fun x hx => ?_) ?_
  · simp [sampleSeconds] at h
  · rw [List.eq_of_mem_replicate (hs ▸ hx : x ∈ _)]
    exact ⟨by decide, by norm_num⟩
  · exact (congrArg List.length hs).ge

end KzGlobal.AntiCheat.FrameRate
