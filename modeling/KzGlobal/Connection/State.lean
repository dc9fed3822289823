import KzGlobal.Connection.Socket

/-! # Whether the recorded state is true

The handlers record every event, so the state is that of the last event once its handler is done.
`kz_ws_start` records `Initialized` after it started the socket; where the Open of the new session
was recorded before that, the connection is open and the state stays `Initialized`. This is the only
way to a wrong state (`state_true_iff`). -/

namespace KzGlobal.Connection.State

open KzGlobal.Lib.Runs KzGlobal.Krp.Format KzGlobal.Replay.Text KzGlobal.Storage.Queue
  KzGlobal.Connection.Socket

variable {τ : Type} {isEmpty : τ → Bool} {s s' : ConnState τ}

/-- A call of `kz_ws_start` is in progress. -/
def Starting (s : ConnState τ) : Prop := .storeInitialized ∈ s.main

/-- **The recorded state is true**: while no call of `kz_ws_start` and no event handler is in
progress, it is `Connected` exactly if the last event of the session was Open. -/
def TrueState (s : ConnState τ) : Prop :=
  ¬ Starting s → s.handler = [] → (s.websocketState = .connected ↔ s.lastEvent = some .opened)

/-! ### What the threads are in the middle of -/

/-- What follows in the calls of the main thread. -/
structure Sequence (main : List MainStep) : Prop where
  start_last : ∀ url token rest, .start url token :: rest <:+ main → rest = []
  startSocket_next : ∀ rest, .startSocket :: rest <:+ main → rest = [.storeInitialized]
  storeInitialized_last : ∀ rest, .storeInitialized :: rest <:+ main → rest = []

theorem Sequence.nil : Sequence [] where
  start_last _ _ _ h := absurd (List.suffix_nil.mp h) (List.cons_ne_nil _ _)
  startSocket_next _ h := absurd (List.suffix_nil.mp h) (List.cons_ne_nil _ _)
  storeInitialized_last _ h := absurd (List.suffix_nil.mp h) (List.cons_ne_nil _ _)

theorem Sequence.tail {a : MainStep} {rest : List MainStep} (h : Sequence (a :: rest)) :
    Sequence rest where
  start_last url token post hp := h.start_last url token post (hp.trans (List.suffix_cons a rest))
  startSocket_next post hp := h.startSocket_next post (hp.trans (List.suffix_cons a rest))
  storeInitialized_last post hp := h.storeInitialized_last post (hp.trans (List.suffix_cons a rest))

theorem Sequence.cons {a : MainStep} {rest : List MainStep} (h : Sequence rest)
    (hstart : ∀ url token, a = .start url token → rest = [])
    (hsocket : a = .startSocket → rest = [.storeInitialized])
    (hinit : a = .storeInitialized → rest = []) :
    Sequence (a :: rest) where
  start_last url token post hp := by
    rcases List.suffix_cons_iff.mp hp with heq | hp
    · rw [List.cons.injEq] at heq
      rw [heq.2]
      exact hstart url token heq.1.symm
    · exact h.start_last url token post hp
  startSocket_next post hp := by
    rcases List.suffix_cons_iff.mp hp with heq | hp
    · rw [List.cons.injEq] at heq
      rw [heq.2]
      exact hsocket heq.1.symm
    · exact h.startSocket_next post hp
  storeInitialized_last post hp := by
    rcases List.suffix_cons_iff.mp hp with heq | hp
    · rw [List.cons.injEq] at heq
      rw [heq.2]
      exact hinit heq.1.symm
    · exact h.storeInitialized_last post hp

theorem sequence_start (url token : Bytes) : Sequence [.start url token] :=
  Sequence.nil.cons (fun _ _ _ => rfl) nofun nofun

theorem sequence_kzWsStart (url token : Bytes) : Sequence (kzWsStart url token) := by
  have hinit : Sequence [.storeInitialized] := Sequence.nil.cons nofun nofun fun _ => rfl
  have hsocket : Sequence [.startSocket, .storeInitialized] := hinit.cons nofun (fun _ => rfl) nofun
  have hpolicy : Sequence [.applyAutoReconnectPolicy, .startSocket, .storeInitialized] :=
    hsocket.cons nofun nofun nofun
  unfold kzWsStart
  by_cases hempty : url = [] ∨ token = []
  · rw [if_pos hempty]
    exact .nil
  · rw [if_neg hempty]
    by_cases hscheme : ¬ str "wss://" <+: url
    · rw [if_pos hscheme]
      exact .nil
    · rw [if_neg hscheme]
      exact hpolicy.cons nofun nofun nofun

theorem Sequence.stopIf {main : List MainStep} (h : Sequence main) (st : WSState) :
    Sequence ((if st ≠ .uninitialized then [.stop] else []) ++ main) := by
  by_cases hst : st ≠ .uninitialized
  · rw [if_pos hst]
    exact h.cons nofun nofun nofun
  · rw [if_neg hst]
    exact h

theorem sequence_callSteps (st : WSState) (c : Call) : Sequence (callSteps st c) := by
  cases c with
  | start url token => exact sequence_start url token
  | stop => exact Sequence.nil.cons nofun nofun nofun
  | reconnect url token =>
    unfold callSteps reconnect
    dsimp only
    by_cases hempty : url = [] ∨ token = []
    · rw [if_pos hempty]
      exact .nil
    · rw [if_neg hempty]
      exact (sequence_start url token).stopIf st
  | settingsChanged url token =>
    unfold callSteps settingsChanged
    dsimp only
    by_cases hempty : url = [] ∨ token = []
    · rw [if_pos hempty]
      exact .nil
    · rw [if_neg hempty]
      have hreset : Sequence [.resetAutoReconnectPolicy, .start url token] :=
        (sequence_start url token).cons nofun nofun nofun
      exact hreset.stopIf st
  | runTasks frame => exact Sequence.nil.cons nofun nofun nofun

/-- **What every reachable state has.** The handler in progress records the last event, and there is
none while the socket does not run. -/
structure Handles (s : ConnState τ) : Prop where
  sequence : Sequence s.main
  records : ∀ st, .storeState st ∈ s.handler →
    ∃ e, s.lastEvent = some e ∧ (st = .connected ↔ e = .opened)
  stopped : s.running = false → s.handler = []

/-- The event handler in progress records the state later. -/
def Records (s : ConnState τ) : Prop := ∃ st, .storeState st ∈ s.handler

/-- **What keeps the state true**: a state that is not true is about to be recorded. -/
def Settled (s : ConnState τ) : Prop :=
  Starting s ∨ Records s ∨ (s.websocketState = .connected ↔ s.lastEvent = some .opened)

theorem records_begin (e : SocketEvent) : ∃ st, .storeState st ∈ kzWsOnmessage e ∧
    ∀ st', .storeState st' ∈ kzWsOnmessage e → (st' = .connected ↔ e = .opened) := by
  cases e with
  | opened => exact ⟨.connected, by simp [kzWsOnmessage], by simp [kzWsOnmessage]⟩
  | closed code =>
    refine ⟨.disconnected, ?_, ?_⟩
    · unfold kzWsOnmessage
      dsimp only
      split_ifs <;> simp
    · unfold kzWsOnmessage
      dsimp only
      split_ifs <;> simp [kzWsForbidAutoReconnect]
  | error httpStatus =>
    unfold kzWsOnmessage
    dsimp only
    split_ifs <;> simp [kzWsForbidAutoReconnect]

/-! ### Steps that leave the state alone -/

/-- The recorded state, the last event and the handler stay, and the socket is stopped only while no
event is handled. -/
structure Quiet (s s' : ConnState τ) : Prop where
  state : s'.websocketState = s.websocketState
  lastEvent : s'.lastEvent = s.lastEvent
  handler : s'.handler = s.handler
  stopped : s'.running = false → s.running = false ∨ s.handler = []

theorem Quiet.of_eq (hstate : s'.websocketState = s.websocketState)
    (hlast : s'.lastEvent = s.lastEvent)
    (hhandler : s'.handler = s.handler) (hrunning : s'.running = s.running) : Quiet s s' :=
  ⟨hstate, hlast, hhandler, fun h => Or.inl (hrunning ▸ h)⟩

theorem Quiet.trans {s'' : ConnState τ} (h : Quiet s s') (h' : Quiet s' s'') : Quiet s s'' where
  state := h'.state.trans h.state
  lastEvent := h'.lastEvent.trans h.lastEvent
  handler := h'.handler.trans h.handler
  stopped hr := by
    rcases h'.stopped hr with hr | hidle
    · exact h.stopped hr
    · exact Or.inr (h.handler ▸ hidle)

theorem Handles.quiet (h : Handles s) (hq : Quiet s s') (hseq : Sequence s'.main) : Handles s' where
  sequence := hseq
  records := by
    rw [hq.handler, hq.lastEvent]
    exact h.records
  stopped hr := by
    rw [hq.handler]
    exact (hq.stopped hr).elim h.stopped id

theorem Settled.quiet (h : Settled s) (hq : Quiet s s') (hstart : Starting s → Starting s') :
    Settled s' := by
  unfold Settled Records
  rw [hq.handler, hq.state, hq.lastEvent]
  exact h.imp_left hstart

theorem settled_quiet_iff (hq : Quiet s s') (hmain : s'.main = s.main) :
    Settled s' ↔ Settled s := by
  unfold Settled Records Starting
  rw [hq.handler, hq.state, hq.lastEvent, hmain]

theorem Quiet.send (h : Quiet s s') (m : τ) : Quiet s (kzWsSendMsg isEmpty m s') := by
  unfold kzWsSendMsg
  split_ifs
  · exact h
  · exact h.trans (.of_eq rfl rfl rfl rfl)

variable (isEmpty) in
theorem main_send (m : τ) (s : ConnState τ) : (kzWsSendMsg isEmpty m s).main = s.main := by
  unfold kzWsSendMsg
  split_ifs
  · rfl
  · rfl

theorem Quiet.retryStep (h : Quiet s s') (frame : Frame) :
    Quiet s (retryStep isEmpty frame s') := by
  have hstore (store : Store τ) : Quiet s { s' with store := store } :=
    h.trans (.of_eq rfl rfl rfl rfl)
  unfold Socket.retryStep
  dsimp only
  split
  · split_ifs
    · exact (hstore _).send _
    · exact hstore _
  · exact hstore _

variable (isEmpty) in
theorem main_retryStep (frame : Frame) (s : ConnState τ) :
    (retryStep isEmpty frame s).main = s.main := by
  unfold retryStep
  dsimp only
  split
  · split_ifs
    · exact main_send ..
    · rfl
  · rfl

variable (isEmpty) in
/-- The steps of the main thread that are not about the start of the socket. -/
theorem quiet_onMainStep {a : MainStep} {rest : List MainStep} (hm : s.main = a :: rest)
    (hseq : Sequence s.main) (hsocket : a ≠ .startSocket) (hinit : a ≠ .storeInitialized) :
    Quiet s (onMainStep isEmpty rest a s) ∧ Sequence (onMainStep isEmpty rest a s).main ∧
      rest <:+ (onMainStep isEmpty rest a s).main := by
  have hrest : Sequence rest := (hm ▸ hseq).tail
  have hsuffix : rest <:+ a :: rest := List.suffix_cons a rest
  cases a with
  | stop =>
    unfold onMainStep
    dsimp only
    split_ifs with hidle
    · exact ⟨⟨rfl, rfl, rfl, fun _ => Or.inr hidle⟩, hrest, List.suffix_rfl⟩
    · exact ⟨.of_eq rfl rfl rfl rfl, hseq, hm ▸ hsuffix⟩
  | start url token =>
    obtain rfl : rest = [] := hseq.start_last url token rest (hm ▸ List.suffix_rfl)
    have hmain : (onMainStep isEmpty [] (.start url token) s).main = kzWsStart url token :=
      List.append_nil _
    refine ⟨.of_eq rfl rfl rfl rfl, ?_, List.nil_suffix⟩
    rw [hmain]
    exact sequence_kzWsStart url token
  | startSocket => exact absurd rfl hsocket
  | storeInitialized => exact absurd rfl hinit
  | checkConnected frame =>
    unfold onMainStep
    dsimp only
    split_ifs
    · exact ⟨.of_eq rfl rfl rfl rfl, hrest.cons nofun nofun nofun, List.suffix_cons ..⟩
    · exact ⟨.of_eq rfl rfl rfl rfl, hrest, List.suffix_rfl⟩
  | sendQueued tasks frame =>
    unfold onMainStep
    dsimp only
    split
    · rename_i message queue tasks _
      have hq : Quiet s
          { s with outgoingQueue := queue, main := .sendQueued tasks frame :: rest } :=
        .of_eq rfl rfl rfl rfl
      refine ⟨hq.send message, ?_, ?_⟩
      · rw [main_send]
        exact hrest.cons nofun nofun nofun
      · rw [main_send]
        exact List.suffix_cons ..
    · exact ⟨.of_eq rfl rfl rfl rfl, hrest.cons nofun nofun nofun, List.suffix_cons ..⟩
    · exact ⟨.of_eq rfl rfl rfl rfl, hrest, List.suffix_rfl⟩
  | retryPass frame =>
    have hq : Quiet s { s with main := rest } := .of_eq rfl rfl rfl rfl
    have hmain : (onMainStep isEmpty rest (.retryPass frame) s).main = rest := main_retryStep ..
    rw [hmain]
    exact ⟨hq.retryStep frame, hrest, List.suffix_rfl⟩
  | _ => exact ⟨.of_eq rfl rfl rfl rfl, hrest, List.suffix_rfl⟩

/-! ### One step -/

/-- **The step that overtakes nothing.** `kz_ws_start` does not record `Initialized` after the Open
of its session was recorded. -/
def NotOvertaken (s : ConnState τ) : Event τ → Prop
  | .mainStep => ∀ rest, s.main = .storeInitialized :: rest → s.lastEvent = some .opened → Records s
  | _ => True

theorem handles_init (store : Store τ) : Handles (.init store) where
  sequence := .nil
  records _ h := absurd h List.not_mem_nil
  stopped _ := rfl

theorem settled_init (store : Store τ) : Settled (.init store) :=
  Or.inr (Or.inr (iff_of_false nofun nofun))

theorem next_startSocket (h : Handles s) {rest : List MainStep}
    (hm : s.main = .startSocket :: rest) :
    Handles (onMainStep isEmpty rest .startSocket s) ∧
    Settled (onMainStep isEmpty rest .startSocket s) := by
  have hrest : Sequence rest := (hm ▸ h.sequence).tail
  obtain rfl : rest = [.storeInitialized] := h.sequence.startSocket_next rest (hm ▸ List.suffix_rfl)
  unfold onMainStep
  dsimp only
  split_ifs with hrun
  · exact ⟨h.quiet (.of_eq rfl rfl rfl rfl) hrest, Or.inl List.mem_cons_self⟩
  · have hidle : s.handler = [] := h.stopped (by simpa using hrun)
    refine ⟨⟨hrest, fun st hst => ?_, fun _ => hidle⟩, Or.inl List.mem_cons_self⟩
    change HandlerStep.storeState st ∈ s.handler at hst
    rw [hidle] at hst
    exact absurd hst List.not_mem_nil

/-- `Initialized` is recorded: the state stays true exactly if no Open was recorded before. -/
theorem next_storeInitialized (h : Handles s) {rest : List MainStep}
    (hm : s.main = .storeInitialized :: rest) :
    Handles (onMainStep isEmpty rest .storeInitialized s) ∧
      (Settled (onMainStep isEmpty rest .storeInitialized s) ↔ NotOvertaken s .mainStep) := by
  obtain rfl : rest = [] := h.sequence.storeInitialized_last rest (hm ▸ List.suffix_rfl)
  refine ⟨⟨.nil, h.records, h.stopped⟩, ?_⟩
  constructor
  · rintro (hstart | hrec | hiff) rest' - hlast
    · exact absurd hstart List.not_mem_nil
    · exact hrec
    · exact absurd (hiff.mpr hlast) nofun
  · intro hno
    by_cases hlast : s.lastEvent = some .opened
    · exact Or.inr (Or.inl (hno [] hm hlast))
    · exact Or.inr (Or.inr (iff_of_false nofun hlast))

theorem notOvertaken_of_ne (h : ∀ rest, s.main ≠ .storeInitialized :: rest) :
    NotOvertaken s .mainStep :=
  fun rest hrest => absurd hrest (h rest)

theorem next_mainStep (h : Handles s) : Handles (mainStep isEmpty s) ∧
    (Settled s → (Settled (mainStep isEmpty s) ↔ NotOvertaken s .mainStep)) := by
  unfold mainStep
  rcases hm : s.main with _ | ⟨a, rest⟩
  · exact ⟨h, fun hset => iff_of_true hset
      (notOvertaken_of_ne fun rest hrest => by rw [hm] at hrest; cases hrest)⟩
  · dsimp only
    have hother (hinit : a ≠ .storeInitialized) : NotOvertaken s .mainStep :=
      notOvertaken_of_ne fun rest' hrest => by
      rw [hm, List.cons.injEq] at hrest
      exact hinit hrest.1
    by_cases hsocket : a = .startSocket
    · subst hsocket
      obtain ⟨h', hset'⟩ := next_startSocket h hm
      exact ⟨h', fun _ => iff_of_true hset' (hother nofun)⟩
    · by_cases hinit : a = .storeInitialized
      · subst hinit
        obtain ⟨h', hiff⟩ := next_storeInitialized h hm
        exact ⟨h', fun _ => hiff⟩
      · obtain ⟨hq, hseq', hsuffix⟩ := quiet_onMainStep isEmpty hm h.sequence hsocket hinit
        refine ⟨h.quiet hq hseq', fun hset => iff_of_true (hset.quiet hq fun hstart => ?_)
          (hother hinit)⟩
        unfold Starting at hstart
        rw [hm, List.mem_cons] at hstart
        exact hsuffix.subset (hstart.resolve_left fun heq => hinit heq.symm)

theorem next_handlerStep (h : Handles s) :
    Handles (handlerStep s) ∧ (Settled s → Settled (handlerStep s)) := by
  unfold handlerStep
  rcases hh : s.handler with _ | ⟨a, rest⟩
  · exact ⟨h, id⟩
  · dsimp only
    have hrun : s.running ≠ false := fun hr => by
      rw [h.stopped hr] at hh
      cases hh
    have hkeep (s' : ConnState τ) (hmain : s'.main = s.main) (hhandler : s'.handler = rest)
        (hlast : s'.lastEvent = s.lastEvent) (hrunning : s'.running = s.running) : Handles s' := by
      refine ⟨hmain ▸ h.sequence, fun st hst => ?_, fun hr => absurd (hrunning ▸ hr) hrun⟩
      rw [hlast]
      exact h.records st (hh ▸ List.mem_cons_of_mem a (hhandler ▸ hst))
    have hother (s' : ConnState τ) (hno : ∀ st, a ≠ .storeState st) (hmain : s'.main = s.main)
        (hhandler : s'.handler = rest) (hlast : s'.lastEvent = s.lastEvent)
        (hstate : s'.websocketState = s.websocketState) (hset : Settled s) : Settled s' := by
      rcases hset with hstart | ⟨st, hst⟩ | hiff
      · exact Or.inl (by unfold Starting; rwa [hmain])
      · rw [hh, List.mem_cons] at hst
        exact Or.inr (Or.inl ⟨st, hhandler ▸ hst.resolve_left (hno st).symm⟩)
      · exact Or.inr (Or.inr (by rwa [hstate, hlast]))
    cases a with
    | storeState st =>
      refine ⟨hkeep _ rfl rfl rfl rfl, fun _ => Or.inr (Or.inr ?_)⟩
      obtain ⟨e, hlast, hiff⟩ := h.records st (hh ▸ List.mem_cons_self)
      change st = .connected ↔ s.lastEvent = some .opened
      rw [hlast, hiff, Option.some.injEq]
    | _ => exact ⟨hkeep _ rfl rfl rfl rfl, hother _ nofun rfl rfl rfl rfl⟩

theorem next_beginEvent (h : Handles s) (e : SocketEvent) :
    Handles (beginEvent e s) ∧ (Settled s → Settled (beginEvent e s)) := by
  unfold beginEvent
  by_cases hrun : s.running = true ∧ s.handler = []
  · obtain ⟨st, hst, hall⟩ := records_begin e
    rw [if_pos hrun]
    refine ⟨⟨h.sequence, fun st' hst' => ⟨e, rfl, hall st' hst'⟩, fun hr => ?_⟩,
      fun _ => Or.inr (Or.inl ⟨st, hst⟩)⟩
    change s.running = false at hr
    rw [hrun.1] at hr
    cases hr
  · rw [if_neg hrun]
    exact ⟨h, id⟩

variable (isEmpty) in
/-- **One step** keeps the state true exactly if it overtakes nothing. -/
theorem next_settled (h : Handles s) (e : Event τ) :
    Handles (next isEmpty s e) ∧ (Settled s → (Settled (next isEmpty s e) ↔ NotOvertaken s e)) := by
  have hquiet {s' : ConnState τ} (hq : Quiet s s') (hmain : s'.main = s.main) :
      Handles s' ∧ (Settled s → (Settled s' ↔ True)) :=
    ⟨h.quiet hq (hmain ▸ h.sequence),
      fun hset => iff_of_true ((settled_quiet_iff hq hmain).mpr hset) trivial⟩
  have hsame : Handles s ∧ (Settled s → (Settled s ↔ True)) := hquiet (.of_eq rfl rfl rfl rfl) rfl
  cases e with
  | call c =>
    unfold next
    dsimp only
    split_ifs with hmain
    · have hq : Quiet s { s with main := callSteps s.websocketState c } := .of_eq rfl rfl rfl rfl
      refine ⟨h.quiet hq (sequence_callSteps _ c),
        fun hset => iff_of_true (hset.quiet hq fun hstart => ?_) trivial⟩
      unfold Starting at hstart
      rw [List.isEmpty_iff.mp hmain] at hstart
      exact absurd hstart List.not_mem_nil
    · exact hsame
  | mainStep => exact next_mainStep h
  | queueMsg now text msgType pushed =>
    unfold next kzWsQueueMsg
    dsimp only
    split_ifs
    · exact hquiet (.of_eq rfl rfl rfl rfl) rfl
    · exact hquiet (.of_eq rfl rfl rfl rfl) rfl
    · exact hsame
  | changeMap mapName =>
    unfold next
    dsimp only
    split_ifs
    · exact hquiet (.of_eq rfl rfl rfl rfl) rfl
    · exact hsame
  | socketEvent e =>
    obtain ⟨h', hset'⟩ := next_beginEvent h e
    exact ⟨h', fun hset => iff_of_true (hset' hset) trivial⟩
  | handlerStep =>
    obtain ⟨h', hset'⟩ := next_handlerStep h
    exact ⟨h', fun hset => iff_of_true (hset' hset) trivial⟩
  | writerSave now record =>
    unfold next
    dsimp only
    split_ifs
    · exact hquiet (.of_eq rfl rfl rfl rfl) rfl
    · exact hsame
  | writerSend =>
    unfold next
    dsimp only
    split
    · rename_i record _
      have hq : Quiet s { s with writer := none } := .of_eq rfl rfl rfl rfl
      exact hquiet (hq.send record) (main_send ..)
    · exact hsame

/-! ### When the handler goes on -/

variable (isEmpty) in
/-- The WebSocket thread goes on with its handler for some steps. -/
def goOn (s : ConnState τ) (n : ℕ) : ConnState τ :=
  run (next isEmpty) s (List.replicate n .handlerStep)

theorem Handles.goOn (h : Handles s) (n : ℕ) : Handles (goOn isEmpty s n) ∧
    (Settled s → Settled (State.goOn isEmpty s n)) := by
  induction n generalizing s with
  | zero => exact ⟨h, id⟩
  | succ n ih =>
    obtain ⟨h', hset'⟩ := next_handlerStep h
    obtain ⟨h'', hset''⟩ := ih h'
    exact ⟨h'', hset'' ∘ hset'⟩

variable (isEmpty) in
theorem goOn_recorded : ∀ {n : ℕ} {s : ConnState τ}, s.handler.length = n → ¬ Records s →
    (goOn isEmpty s n).handler = [] ∧ (goOn isEmpty s n).main = s.main ∧
      (goOn isEmpty s n).websocketState = s.websocketState ∧
      (goOn isEmpty s n).lastEvent = s.lastEvent
  | 0, _, hlen, _ => ⟨List.length_eq_zero_iff.mp hlen, rfl, rfl, rfl⟩
  | n + 1, s, hlen, hno => by
    obtain ⟨a, rest, hh⟩ := List.exists_cons_of_length_eq_add_one hlen
    have hrest : rest.length = n := by simpa [hh] using hlen
    have hstep : handlerStep s = onHandlerStep a { s with handler := rest } := by
      rw [handlerStep, hh]
    have hparts : (handlerStep s).handler = rest ∧ (handlerStep s).main = s.main ∧
        (handlerStep s).websocketState = s.websocketState ∧
          (handlerStep s).lastEvent = s.lastEvent := by
      rw [hstep]
      cases a with
      | storeState st => exact absurd ⟨st, hh ▸ List.mem_cons_self⟩ hno
      | _ => exact ⟨rfl, rfl, rfl, rfl⟩
    obtain ⟨hhandler, hmain, hstate, hlast⟩ := hparts
    have hno' : ¬ Records (handlerStep s) := by
      rintro ⟨st, hst⟩
      rw [hhandler] at hst
      exact hno ⟨st, hh ▸ List.mem_cons_of_mem a hst⟩
    obtain ⟨h1, h2, h3, h4⟩ := goOn_recorded (hhandler ▸ hrest) hno'
    exact ⟨h1, h2.trans hmain, h3.trans hstate, h4.trans hlast⟩

theorem Settled.trueState (h : Settled s) : TrueState s := by
  intro hstart hidle
  rcases h with h | ⟨st, hst⟩ | h
  · exact absurd h hstart
  · rw [hidle] at hst
    exact absurd hst List.not_mem_nil
  · exact h

variable (isEmpty) in
/-- **A state is settled exactly if it is true, and stays so as the handler goes on.** -/
theorem settled_iff (h : Handles s) : Settled s ↔ ∀ n, TrueState (goOn isEmpty s n) := by
  constructor
  · exact fun hset n => ((h.goOn n).2 hset).trueState
  · intro hall
    by_cases hstart : Starting s
    · exact Or.inl hstart
    · by_cases hrec : Records s
      · exact Or.inr (Or.inl hrec)
      · obtain ⟨hidle, hmain, hstate, hlast⟩ := goOn_recorded isEmpty rfl hrec
        have htrue := hall s.handler.length (by unfold Starting; rwa [hmain]) hidle
        rw [hstate, hlast] at htrue
        exact Or.inr (Or.inr htrue)

/-! ### Runs -/

variable (isEmpty) in
/-- **The state is true all along a run**, and as the handler in progress goes on, exactly where no
step records `Initialized` after the Open of the session was recorded. -/
theorem state_true_iff (store : Store τ) (es : List (Event τ)) :
    (∀ es', es' <+: es →
      ∀ n, TrueState (run (next isEmpty) (.init store) (es' ++ List.replicate n .handlerStep))) ↔
      Along (next isEmpty) NotOvertaken (.init store) es := by
  have hstep (s : ConnState τ) (e : Event τ) (hs : Handles s) : Handles (next isEmpty s e) :=
    (next_settled isEmpty hs e).1
  have hreach (es' : List (Event τ)) : Handles (run (next isEmpty) (.init store) es') :=
    run_invariant hstep (handles_init store) es'
  refine Iff.trans ?_ (forall_prefix_iff hstep (fun s e hs => (next_settled isEmpty hs e).2)
    (handles_init store)
    (settled_init store))
  refine forall_congr' fun es' => imp_congr_right fun _ => ?_
  rw [settled_iff isEmpty (hreach es')]
  refine forall_congr' fun n => ?_
  rw [goOn, run, run, run, List.foldl_append]

/-! ### A connection that is not recorded -/

section Sample

/-- The socket is started, and its Open is handled before `kz_ws_start` goes on. -/
def sampleOvertaken : List (Event String) :=
  [.call (.start (str "wss://h") (str "t")), .mainStep, .mainStep, .mainStep, .mainStep,
    .socketEvent .opened] ++ List.replicate 6 .handlerStep ++ [.mainStep]

/-- **The connection is open and the state stays `Initialized`.** -/
theorem open_not_recorded :
    ¬ TrueState (run (next String.isEmpty) (.init ⟨fun _ => .empty, [], 0⟩) sampleOvertaken) := by
  intro h
  have hmain :
      (run (next String.isEmpty) (.init ⟨fun _ => .empty, [], 0⟩) sampleOvertaken).main = [] := rfl
  have hstart :
      ¬ Starting (run (next String.isEmpty) (.init ⟨fun _ => .empty, [], 0⟩) sampleOvertaken) := by
    rw [Starting, hmain]
    exact List.not_mem_nil
  have hstate := (h hstart (by decide)).mpr (by decide)
  revert hstate
  decide

end Sample

end KzGlobal.Connection.State
