import KzGlobal.Connection.State

/-! # Credentials and the policy of reconnecting

`kz_ws_start` is called where the settings change and by the command `reconnect`, which stop the
socket first unless it was never started. So the url and the token change only while no session
runs, a session has a `wss` url and a token (`credentials_safe`), and the flags by which the main
thread and the event handlers rule reconnection agree whenever no handler is in progress. A session
that the server refused is not opened again (`refused_not_reopened`). -/

namespace KzGlobal.Connection.Policy

open KzGlobal.Lib.Runs KzGlobal.Krp.Format KzGlobal.Replay.Text KzGlobal.Storage.Queue
  KzGlobal.Connection.Socket
open KzGlobal.Connection.State (main_send main_retryStep)

variable {τ : Type} {isEmpty : τ → Bool} {s : ConnState τ}

/-! ### The calls of the module -/

/-- The events of the module: no function calls `kz_ws_start` but the two that stop the socket
first. -/
def FromModule : Event τ → Prop
  | .call (.start _ _) => False
  | _ => True

/-- Credentials that may be sent. -/
def Secure (url token : Bytes) : Prop := str "wss://" <+: url ∧ token ≠ []

/-- An event by which the server refuses the module: a policy violation, data it does not accept, or
a token it does not accept. -/
def Refuses : SocketEvent → Prop
  | .opened => False
  | .closed code => code = 1008 ∨ code = 1003
  | .error httpStatus => httpStatus = 401 ∨ httpStatus = 403

instance : DecidablePred Refuses := fun e => by
  cases e <;> unfold Refuses <;> infer_instance

/-! ### Flags -/

/-- What a step of a handler does to `g_ws_auto_reconnect_allowed` and the socket's flag. -/
def onFlags (fl : Bool × Bool) : HandlerStep → Bool × Bool
  | .allowAutoReconnect allowed => (allowed, fl.2)
  | .automaticReconnection on => (fl.1, on)
  | _ => fl

/-- The flags once the handler in progress is done. -/
def flags (s : ConnState τ) : Bool × Bool :=
  s.handler.foldl onFlags (s.autoReconnectAllowed, s.automaticReconnection)

theorem flags_of_idle (h : s.handler = []) :
    flags s = (s.autoReconnectAllowed, s.automaticReconnection) := by
  rw [flags, h]
  rfl

theorem flags_agree_of_idle (h : s.handler = [])
    (hflags : s.autoReconnectAllowed = s.automaticReconnection) : (flags s).1 = (flags s).2 := by
  rw [flags_of_idle h]
  exact hflags

/-- **What a handler makes of both flags**: an Open sets them, a refusal clears them, and any other
event leaves them as they are. -/
theorem foldl_onFlags (e : SocketEvent) (fl : Bool × Bool) :
    (kzWsOnmessage e).foldl onFlags fl =
      if e = .opened then (true, true) else if Refuses e then (false, false) else fl := by
  cases e with
  | opened => rfl
  | closed code =>
    rw [if_neg (by simp)]
    by_cases hcode : code = 1008 ∨ code = 1003
    · rw [kzWsOnmessage, if_pos hcode, if_pos (show Refuses (.closed code) from hcode)]
      rfl
    · rw [kzWsOnmessage, if_neg hcode, if_neg (show ¬ Refuses (.closed code) from hcode)]
      rfl
  | error httpStatus =>
    rw [if_neg (by simp)]
    by_cases hstatus : httpStatus = 401 ∨ httpStatus = 403
    · rw [kzWsOnmessage, if_pos hstatus, if_pos (show Refuses (.error httpStatus) from hstatus)]
      rfl
    · rw [kzWsOnmessage, if_neg hstatus, if_neg (show ¬ Refuses (.error httpStatus) from hstatus)]
      split_ifs
      · rfl
      · rfl

theorem storeState_kzWsOnmessage {e : SocketEvent} {st : WSState}
    (h : .storeState st ∈ kzWsOnmessage e) : st ≠ .uninitialized := by
  rintro rfl
  cases e with
  | opened => simp [kzWsOnmessage] at h
  | closed code =>
    simp only [kzWsOnmessage] at h
    split_ifs at h <;> simp [kzWsForbidAutoReconnect] at h
  | error httpStatus =>
    simp only [kzWsOnmessage] at h
    split_ifs at h <;> simp [kzWsForbidAutoReconnect] at h

/-! ### The invariant -/

/-- What the main thread is in the middle of goes with the state: whatever touches the settings or
starts the socket does it while no session runs. -/
def Ready (s : ConnState τ) : List MainStep → Prop
  | [] => True
  | .stop :: rest => rest = [] ∨ (∃ url token, rest = [.start url token]) ∨
      ∃ url token, rest = [.resetAutoReconnectPolicy, .start url token]
  | .resetAutoReconnectPolicy :: rest => s.running = false ∧ ∃ url token, rest = [.start url token]
  | .start _ _ :: rest => s.running = false ∧ rest = []
  | .configure url token :: rest => s.running = false ∧ Secure url token ∧
      rest = [.applyAutoReconnectPolicy, .startSocket, .storeInitialized]
  | .applyAutoReconnectPolicy :: rest => s.running = false ∧ Secure s.url s.token ∧
      rest = [.startSocket, .storeInitialized]
  | .startSocket :: rest => s.running = false ∧ Secure s.url s.token ∧
      s.autoReconnectAllowed = s.automaticReconnection ∧ rest = [.storeInitialized]
  | .storeInitialized :: rest | .checkConnected _ :: rest | .sendQueued _ _ :: rest
  | .retryPass _ :: rest => rest = []

/-- **What every reachable state has.** -/
structure Guarded (s : ConnState τ) : Prop where
  ready : Ready s s.main
  secure : s.running = true → Secure s.url s.token
  agree : s.running = true → (flags s).1 = (flags s).2
  uninitialized : s.websocketState = .uninitialized →
    s.running = false ∨ s.main = [.storeInitialized]
  states : ∀ st, .storeState st ∈ s.handler → st ≠ .uninitialized
  idle : s.running = false → s.handler = []

theorem guarded_init (store : Store τ) : Guarded (.init store) where
  ready := trivial
  secure h := absurd h Bool.false_ne_true
  agree h := absurd h Bool.false_ne_true
  uninitialized _ := Or.inl rfl
  states _ h := absurd h List.not_mem_nil
  idle _ := rfl

/-! ### Steps that are not about the session -/

/-- The fields of the session are the same. -/
structure SameSession (s s' : ConnState τ) : Prop where
  websocketState : s'.websocketState = s.websocketState
  autoReconnectAllowed : s'.autoReconnectAllowed = s.autoReconnectAllowed
  url : s'.url = s.url
  token : s'.token = s.token
  automaticReconnection : s'.automaticReconnection = s.automaticReconnection
  running : s'.running = s.running
  lastEvent : s'.lastEvent = s.lastEvent
  handler : s'.handler = s.handler

section Same
variable {s' s'' : ConnState τ}

theorem SameSession.refl (s : ConnState τ) : SameSession s s :=
  ⟨rfl, rfl, rfl, rfl, rfl, rfl, rfl, rfl⟩

theorem SameSession.outside (s : ConnState τ) (sent : Option (List (Sent τ))) (store : Store τ)
    (outgoingQueue : List τ) (mapName : Bytes) (main : List MainStep) (writer : Option τ) :
    SameSession s { s with sent, store, outgoingQueue, mapName, main, writer } :=
  ⟨rfl, rfl, rfl, rfl, rfl, rfl, rfl, rfl⟩

theorem SameSession.trans (h : SameSession s s') (h' : SameSession s' s'') : SameSession s s'' where
  websocketState := h'.websocketState.trans h.websocketState
  autoReconnectAllowed := h'.autoReconnectAllowed.trans h.autoReconnectAllowed
  url := h'.url.trans h.url
  token := h'.token.trans h.token
  automaticReconnection := h'.automaticReconnection.trans h.automaticReconnection
  running := h'.running.trans h.running
  lastEvent := h'.lastEvent.trans h.lastEvent
  handler := h'.handler.trans h.handler

theorem SameSession.flags (h : SameSession s s') : flags s' = flags s := by
  rw [Policy.flags, Policy.flags, h.handler, h.autoReconnectAllowed, h.automaticReconnection]

theorem SameSession.ready (h : SameSession s s') {main : List MainStep} (hr : Ready s main) :
    Ready s' main := by
  rcases main with _ | ⟨a, rest⟩
  · trivial
  · cases a <;>
      simpa only [Ready, h.running, h.url, h.token, h.autoReconnectAllowed, h.automaticReconnection]
        using hr

theorem Guarded.same (h : Guarded s) (hs : SameSession s s') (hready : Ready s s'.main)
    (hmain : s.main = [.storeInitialized] → s'.main = [.storeInitialized]) : Guarded s' where
  ready := hs.ready hready
  secure := by
    rw [hs.running, hs.url, hs.token]
    exact h.secure
  agree := by
    rw [hs.running, hs.flags]
    exact h.agree
  uninitialized := by
    rw [hs.websocketState, hs.running]
    exact fun hu => (h.uninitialized hu).imp_right hmain
  states := by
    rw [hs.handler]
    exact h.states
  idle := by
    rw [hs.running, hs.handler]
    exact h.idle

end Same

theorem SameSession.send {s' : ConnState τ} (h : SameSession s s') (m : τ) :
    SameSession s (kzWsSendMsg isEmpty m s') := by
  unfold kzWsSendMsg
  split_ifs
  · exact h
  · exact h.trans (.outside ..)

theorem SameSession.retryStep {s' : ConnState τ} (h : SameSession s s') (frame : Frame) :
    SameSession s (retryStep isEmpty frame s') := by
  have hstore (store : Store τ) : SameSession s { s' with store := store } :=
    h.trans (.outside ..)
  unfold Socket.retryStep
  dsimp only
  split
  · split_ifs
    · exact (hstore _).send _
    · exact hstore _
  · exact hstore _

/-! ### The main thread -/

theorem ready_callSteps (hrun : s.websocketState = .uninitialized → s.running = false) {c : Call}
    (hc : FromModule (.call c : Event τ)) : Ready s (callSteps s.websocketState c) := by
  cases c with
  | start url token => exact hc.elim
  | stop => exact Or.inl rfl
  | reconnect url token =>
    unfold callSteps reconnect
    dsimp only
    split_ifs with hempty hst
    · trivial
    · exact Or.inr (Or.inl ⟨url, token, rfl⟩)
    · exact ⟨hrun (not_not.mp hst), rfl⟩
  | settingsChanged url token =>
    unfold callSteps settingsChanged
    dsimp only
    split_ifs with hempty hst
    · trivial
    · exact Or.inr (Or.inr ⟨url, token, rfl⟩)
    · exact ⟨hrun (not_not.mp hst), url, token, rfl⟩
  | runTasks frame => exact rfl

theorem ready_kzWsStart (hrun : s.running = false) (url token : Bytes) :
    Ready s (kzWsStart url token) := by
  unfold kzWsStart
  by_cases hempty : url = [] ∨ token = []
  · rw [if_pos hempty]
    trivial
  · rw [if_neg hempty]
    by_cases hscheme : ¬ str "wss://" <+: url
    · rw [if_pos hscheme]
      trivial
    · rw [if_neg hscheme]
      exact ⟨hrun, ⟨not_not.mp hscheme, fun h => hempty (Or.inr h)⟩, rfl⟩

theorem Guarded.stopped {s' : ConnState τ} (hrun : s'.running = false) (hidle : s'.handler = [])
    (hready : Ready s' s'.main) : Guarded s' where
  ready := hready
  secure h := by rw [hrun] at h; cases h
  agree h := by rw [hrun] at h; cases h
  uninitialized _ := Or.inl hrun
  states := by
    rw [hidle]
    exact fun _ h => absurd h List.not_mem_nil
  idle _ := hidle

/-- **One step of the main thread.** -/
theorem Guarded.onMainStep (h : Guarded s) {a : MainStep} {rest : List MainStep}
    (hm : s.main = a :: rest) : Guarded (onMainStep isEmpty rest a s) := by
  have hr := h.ready
  rw [hm] at hr
  cases a with
  | stop =>
    unfold Socket.onMainStep
    dsimp only
    split_ifs with hidle
    · refine .stopped rfl hidle ?_
      rcases hr with rfl | ⟨url, token, rfl⟩ | ⟨url, token, rfl⟩
      · trivial
      · exact ⟨rfl, rfl⟩
      · exact ⟨rfl, url, token, rfl⟩
    · exact h
  | resetAutoReconnectPolicy =>
    obtain ⟨hrun, url, token, rfl⟩ := hr
    exact .stopped hrun (h.idle hrun) ⟨hrun, rfl⟩
  | start url token =>
    obtain ⟨hrun, rfl⟩ := hr
    refine .stopped hrun (h.idle hrun) ?_
    change Ready _ (kzWsStart url token ++ [])
    rw [List.append_nil]
    exact ready_kzWsStart hrun url token
  | configure url token =>
    obtain ⟨hrun, hsecure, rfl⟩ := hr
    exact .stopped hrun (h.idle hrun) ⟨hrun, hsecure, rfl⟩
  | applyAutoReconnectPolicy =>
    obtain ⟨hrun, hsecure, rfl⟩ := hr
    exact .stopped hrun (h.idle hrun) ⟨hrun, hsecure, rfl, rfl⟩
  | startSocket =>
    obtain ⟨hrun, hsecure, hflags, rfl⟩ := hr
    have hidle := h.idle hrun
    unfold Socket.onMainStep
    dsimp only
    rw [if_neg (by rw [hrun]; exact Bool.false_ne_true)]
    exact ⟨rfl, fun _ => hsecure, fun _ => flags_agree_of_idle hidle hflags, fun _ => Or.inr rfl,
      h.states, fun hstop => absurd hstop (Bool.false_ne_true ∘ Eq.symm)⟩
  | storeInitialized =>
    obtain rfl : rest = [] := hr
    refine ⟨trivial, h.secure, h.agree, fun hu => ?_, h.states, h.idle⟩
    cases hu
  | checkConnected frame =>
    obtain rfl : rest = [] := hr
    unfold Socket.onMainStep
    dsimp only
    split_ifs
    · refine h.same (.outside ..) rfl fun h0 => ?_
      rw [hm] at h0
      cases h0
    · refine h.same (.outside ..) trivial fun h0 => ?_
      rw [hm] at h0
      cases h0
  | sendQueued tasks frame =>
    obtain rfl : rest = [] := hr
    have hno : s.main = [.storeInitialized] → False := fun h0 => by
      rw [hm] at h0
      cases h0
    unfold Socket.onMainStep
    dsimp only
    split
    · rename_i message queue tasks _
      have hs : SameSession s
          { s with outgoingQueue := queue, main := [.sendQueued tasks frame] } :=
        .outside ..
      refine h.same (hs.send message) ?_ fun h0 => (hno h0).elim
      rw [main_send]
      exact rfl
    · exact h.same (.outside ..) rfl fun h0 => (hno h0).elim
    · exact h.same (.outside ..) trivial fun h0 => (hno h0).elim
  | retryPass frame =>
    obtain rfl : rest = [] := hr
    have hs : SameSession s { s with main := [] } := .outside ..
    have hmain : (Socket.onMainStep isEmpty [] (.retryPass frame) s).main = [] := main_retryStep ..
    refine h.same (hs.retryStep frame) ?_ fun h0 => ?_
    · rw [hmain]
      trivial
    · rw [hm] at h0
      cases h0

/-! ### The other threads -/

theorem flags_onHandlerStep (a : HandlerStep) (s : ConnState τ) :
    ((onHandlerStep a s).autoReconnectAllowed, (onHandlerStep a s).automaticReconnection) =
      onFlags (s.autoReconnectAllowed, s.automaticReconnection) a := by
  cases a <;> rfl

theorem Ready.of_running {s' : ConnState τ} (hrun : s.running = true) {main : List MainStep}
    (hr : Ready s main) : Ready s' main := by
  rcases main with _ | ⟨a, rest⟩
  · trivial
  · have hno : s.running ≠ false := by
      rw [hrun]
      exact Bool.false_ne_true ∘ Eq.symm
    cases a with
    | resetAutoReconnectPolicy | start | configure | applyAutoReconnectPolicy | startSocket =>
      exact absurd hr.1 hno
    | _ => exact hr

theorem onHandlerStep_session (a : HandlerStep) (s : ConnState τ) :
    (onHandlerStep a s).main = s.main ∧ (onHandlerStep a s).running = s.running ∧
      (onHandlerStep a s).url = s.url ∧ (onHandlerStep a s).token = s.token ∧
      (onHandlerStep a s).lastEvent = s.lastEvent ∧ (onHandlerStep a s).handler = s.handler ∧
      ((onHandlerStep a s).websocketState = s.websocketState ∨
        a = .storeState (onHandlerStep a s).websocketState) := by
  cases a with
  | storeState st => exact ⟨rfl, rfl, rfl, rfl, rfl, rfl, Or.inr rfl⟩
  | _ => exact ⟨rfl, rfl, rfl, rfl, rfl, rfl, Or.inl rfl⟩

theorem flags_handlerStep (s : ConnState τ) : flags (handlerStep s) = flags s := by
  unfold Socket.handlerStep
  split
  · rfl
  · rename_i a rest hhandler
    obtain ⟨-, -, -, -, -, hrest, -⟩ := onHandlerStep_session a { s with handler := rest }
    rw [flags, hrest, flags_onHandlerStep, flags, hhandler]
    rfl

theorem Guarded.handlerStep (h : Guarded s) : Guarded (handlerStep s) := by
  have hflags := flags_handlerStep s
  unfold Socket.handlerStep at hflags ⊢
  split at hflags
  · exact h
  · rename_i a rest hhandler
    obtain ⟨hmain, hrun, hurl, htoken, -, hrest, hstate⟩ :=
      onHandlerStep_session a { s with handler := rest }
    have hrunning : s.running = true := by
      by_contra hno
      have hidle := h.idle (Bool.eq_false_iff.mpr hno)
      rw [hhandler] at hidle
      cases hidle
    refine ⟨?_, ?_, ?_, ?_, ?_, ?_⟩
    · rw [hmain]
      exact h.ready.of_running hrunning
    · rw [hrun, hurl, htoken]
      exact h.secure
    · rw [hflags]
      exact fun _ => h.agree hrunning
    · rw [hrun, hmain]
      intro hu
      rcases hstate with hsame | hstore
      · exact h.uninitialized (hsame.symm.trans hu)
      · rw [hu] at hstore
        exact absurd rfl (h.states .uninitialized (hhandler ▸ hstore ▸ List.mem_cons_self))
    · rw [hrest]
      exact fun st hst => h.states st (hhandler ▸ List.mem_cons_of_mem a hst)
    · rw [hrun]
      exact fun hstop => absurd (hrunning.symm.trans hstop) (Bool.false_ne_true ∘ Eq.symm)

theorem flags_beginEvent (hrun : s.running = true) (hidle : s.handler = []) (e : SocketEvent) :
    flags (beginEvent e s) = if e = .opened then (true, true)
      else if Refuses e then (false, false) else flags s := by
  rw [beginEvent, if_pos ⟨hrun, hidle⟩, flags_of_idle hidle]
  exact foldl_onFlags ..

theorem Guarded.beginEvent (h : Guarded s) (e : SocketEvent) : Guarded (beginEvent e s) := by
  by_cases hbegin : s.running = true ∧ s.handler = []
  · obtain ⟨hrun, hidle⟩ := hbegin
    have hagree : (flags (Socket.beginEvent e s)).1 = (flags (Socket.beginEvent e s)).2 := by
      rw [flags_beginEvent hrun hidle]
      split_ifs
      · rfl
      · rfl
      · exact h.agree hrun
    rw [Socket.beginEvent, if_pos ⟨hrun, hidle⟩] at hagree ⊢
    exact ⟨h.ready.of_running hrun, h.secure, fun _ => hagree, h.uninitialized,
      fun st hst => storeState_kzWsOnmessage hst,
      fun hstop => absurd (hrun.symm.trans hstop) (Bool.false_ne_true ∘ Eq.symm)⟩
  · rw [Socket.beginEvent, if_neg hbegin]
    exact h

/-- What is no step of the main thread or of a handler, and no event of the connection or call. -/
def Aside : Event τ → Prop
  | .call _ | .mainStep | .socketEvent _ | .handlerStep => False
  | _ => True

theorem sameSession_next {e : Event τ} (he : Aside e) :
    SameSession s (next isEmpty s e) ∧ (next isEmpty s e).main = s.main := by
  cases e with
  | call c | mainStep | socketEvent e | handlerStep => exact he.elim
  | queueMsg now text msgType pushed =>
    unfold Socket.next kzWsQueueMsg
    dsimp only
    split_ifs <;> exact ⟨.outside .., rfl⟩
  | changeMap mapName =>
    unfold Socket.next
    dsimp only
    split_ifs <;> exact ⟨.outside .., rfl⟩
  | writerSave now record =>
    unfold Socket.next
    dsimp only
    split_ifs <;> exact ⟨.outside .., rfl⟩
  | writerSend =>
    unfold Socket.next
    dsimp only
    split
    · rename_i record _
      have hs : SameSession s { s with writer := none } := .outside ..
      exact ⟨hs.send record, main_send ..⟩
    · exact ⟨.refl s, rfl⟩

/-- **One step of any thread.** -/
theorem Guarded.next (h : Guarded s) {e : Event τ} (he : FromModule e) :
    Guarded (Socket.next isEmpty s e) := by
  have haside (he : Aside e) : Guarded (Socket.next isEmpty s e) := by
    obtain ⟨hs, hm⟩ : SameSession s (Socket.next isEmpty s e) ∧
        (Socket.next isEmpty s e).main = s.main := sameSession_next he
    exact h.same hs (hm ▸ h.ready) fun h0 => hm.trans h0
  cases e with
  | call c =>
    unfold Socket.next
    dsimp only
    split_ifs with hidle
    · have hnil : s.main = [] := List.isEmpty_iff.mp hidle
      refine h.same (.outside ..) ?_ fun h0 => ?_
      · refine ready_callSteps (fun hu => (h.uninitialized hu).resolve_right fun h0 => ?_) he
        rw [hnil] at h0
        cases h0
      · rw [hnil] at h0
        cases h0
    · exact h
  | mainStep =>
    unfold Socket.next Socket.mainStep
    dsimp only
    split
    · exact h
    · rename_i a rest hm
      exact h.onMainStep hm
  | socketEvent e => exact h.beginEvent e
  | handlerStep => exact h.handlerStep
  | queueMsg | changeMap | writerSave | writerSend => exact haside trivial

/-! ### Credentials -/

theorem guarded_run {is : List (Event τ)} (his : ∀ e ∈ is, FromModule e) (store : Store τ) :
    Guarded (run (next isEmpty) (.init store) is) :=
  Along.run (fun _ _ h he => h.next he) (along_of_forall his) (guarded_init store)

theorem Guarded.credentials (h : Guarded s) (hrun : s.running = true) (e : Event τ) :
    (Socket.next isEmpty s e).url = s.url ∧ (Socket.next isEmpty s e).token = s.token := by
  have haside (he : Aside e) :
      (Socket.next isEmpty s e).url = s.url ∧ (Socket.next isEmpty s e).token = s.token :=
    ⟨(sameSession_next he).1.url, (sameSession_next he).1.token⟩
  cases e with
  | call c =>
    unfold Socket.next
    dsimp only
    split_ifs <;> exact ⟨rfl, rfl⟩
  | mainStep =>
    unfold Socket.next Socket.mainStep
    dsimp only
    split
    · exact ⟨rfl, rfl⟩
    · rename_i a rest hm
      have hr := h.ready
      rw [hm] at hr
      cases a with
      | configure url token => exact absurd (hrun.symm.trans hr.1) (Bool.false_ne_true ∘ Eq.symm)
      | stop =>
        unfold Socket.onMainStep
        dsimp only
        split_ifs <;> exact ⟨rfl, rfl⟩
      | startSocket =>
        unfold Socket.onMainStep
        dsimp only
        rw [if_pos hrun]
        exact ⟨rfl, rfl⟩
      | checkConnected frame =>
        unfold Socket.onMainStep
        dsimp only
        split_ifs <;> exact ⟨rfl, rfl⟩
      | sendQueued tasks frame =>
        unfold Socket.onMainStep
        dsimp only
        split
        · rename_i message queue tasks _
          have hs : SameSession s
              { s with outgoingQueue := queue, main := .sendQueued tasks frame :: rest } :=
            .outside ..
          exact ⟨(hs.send message).url, (hs.send message).token⟩
        · exact ⟨rfl, rfl⟩
        · exact ⟨rfl, rfl⟩
      | retryPass frame =>
        have hs : SameSession s { s with main := rest } := .outside ..
        exact ⟨(hs.retryStep frame).url, (hs.retryStep frame).token⟩
      | _ => exact ⟨rfl, rfl⟩
  | socketEvent e =>
    unfold Socket.next Socket.beginEvent
    dsimp only
    split_ifs <;> exact ⟨rfl, rfl⟩
  | handlerStep =>
    unfold Socket.next Socket.handlerStep
    dsimp only
    split
    · exact ⟨rfl, rfl⟩
    · rename_i a rest _
      obtain ⟨-, -, hurl, htoken, -⟩ := onHandlerStep_session a { s with handler := rest }
      exact ⟨hurl, htoken⟩
  | queueMsg | changeMap | writerSave | writerSend => exact haside trivial

/-- **The token goes to `wss` urls only, and credentials do not change under a session**, in every
order of the steps of the three threads. -/
theorem credentials_safe (isEmpty : τ → Bool) (store : Store τ) {is : List (Event τ)}
    (his : ∀ e ∈ is, FromModule e)
    (hrun : (run (next isEmpty) (.init store) is).running = true) :
    Secure (run (next isEmpty) (.init store) is).url (run (next isEmpty) (.init store) is).token ∧
      ∀ e, (next isEmpty (run (next isEmpty) (.init store) is) e).url =
          (run (next isEmpty) (.init store) is).url ∧
        (next isEmpty (run (next isEmpty) (.init store) is) e).token =
          (run (next isEmpty) (.init store) is).token :=
  ⟨(guarded_run his store).secure hrun, (guarded_run his store).credentials hrun⟩

/-! ### Refusals -/

/-- What the socket promises: a session is opened when it is started, and again where it reconnects
automatically. -/
def Reopens (s : ConnState τ) : Event τ → Prop
  | .socketEvent .opened => s.lastEvent = none ∨ s.automaticReconnection = true
  | _ => True

/-- Whether the server has refused the module since the socket was started, after an event. -/
def refusedSince (refused : Bool) (s : ConnState τ) : Event τ → Bool
  | .mainStep =>
    match s.main with
    | .startSocket :: _ => s.running && refused
    | _ => refused
  | .socketEvent e => refused || decide (s.running = true ∧ s.handler = [] ∧ Refuses e)
  | _ => refused

/-- A session that the server has refused is opened again. -/
def ReopensRefused (refused : Bool) (s : ConnState τ) : Event τ → Prop
  | .socketEvent .opened => s.running = true ∧ s.handler = [] ∧ refused = true
  | _ => False

/-- **The flags of a refused session** are cleared once no handler is in progress. -/
def Barred (refused : Bool) (s : ConnState τ) : Prop :=
  refused = true → s.running = true → s.lastEvent ≠ none ∧ (flags s).1 = false

section Barred
variable {refused : Bool}

theorem Barred.of_stopped (hrun : s.running = false) : Barred refused s := by
  intro _ h
  rw [hrun] at h
  cases h

theorem Barred.of_eq {s' : ConnState τ} (h : Barred refused s) (hrun : s'.running = s.running)
    (hlast : s'.lastEvent = s.lastEvent) (hflags : flags s' = flags s) : Barred refused s' := by
  unfold Barred
  rw [hrun, hlast, hflags]
  exact h

theorem Barred.same {s' : ConnState τ} (h : Barred refused s) (hs : SameSession s s') :
    Barred refused s' :=
  h.of_eq hs.running hs.lastEvent hs.flags

theorem Barred.onMainStep (h : Barred refused s) (hg : Guarded s) {a : MainStep}
    {rest : List MainStep} (hm : s.main = a :: rest) (ha : a ≠ .startSocket) :
    Barred refused (onMainStep isEmpty rest a s) := by
  have hr := hg.ready
  rw [hm] at hr
  cases a with
  | stop =>
    unfold Socket.onMainStep
    dsimp only
    split_ifs
    · exact .of_stopped rfl
    · exact h
  | resetAutoReconnectPolicy | start | configure | applyAutoReconnectPolicy =>
    exact .of_stopped hr.1
  | startSocket => exact absurd rfl ha
  | storeInitialized => exact h
  | checkConnected frame =>
    unfold Socket.onMainStep
    dsimp only
    split_ifs
    · exact h
    · exact h
  | sendQueued tasks frame =>
    unfold Socket.onMainStep
    dsimp only
    split
    · rename_i message queue tasks _
      have hs : SameSession s
          { s with outgoingQueue := queue, main := .sendQueued tasks frame :: rest } :=
        .outside ..
      exact h.same (hs.send message)
    · exact h
    · exact h
  | retryPass frame =>
    have hs : SameSession s { s with main := rest } := .outside ..
    exact h.same (hs.retryStep frame)

theorem Barred.not_opened (h : Barred refused s) (hg : Guarded s)
    (he : Reopens s (.socketEvent .opened : Event τ)) :
    ¬ (s.running = true ∧ s.handler = [] ∧ refused = true) := by
  rintro ⟨hrun, hidle, href⟩
  obtain ⟨hlast, hallowed⟩ := h href hrun
  have hagree := hg.agree hrun
  rw [flags_of_idle hidle] at hallowed hagree
  dsimp only at hallowed hagree
  have hoff := he.resolve_left hlast
  rw [← hagree, hallowed] at hoff
  cases hoff

/-- **No event of a refused session sets the flags again.** -/
theorem Barred.beginEvent (h : Barred refused s) (hg : Guarded s) {e : SocketEvent}
    (he : Reopens s (.socketEvent e : Event τ)) :
    Barred (refusedSince refused s (.socketEvent e)) (beginEvent e s) := by
  by_cases hbegin : s.running = true ∧ s.handler = []
  · obtain ⟨hrun, hidle⟩ := hbegin
    have hflags := flags_beginEvent hrun hidle e
    intro hsince _
    rw [Socket.beginEvent, if_pos ⟨hrun, hidle⟩] at hflags ⊢
    refine ⟨Option.some_ne_none e, ?_⟩
    rw [hflags]
    have href : refused = true ∨ Refuses e := by
      simpa [refusedSince, hrun, hidle] using hsince
    split_ifs with hopened hrefuses
    · subst hopened
      exact absurd ⟨hrun, hidle, href.resolve_right id⟩ (h.not_opened hg he)
    · rfl
    · exact (h (href.resolve_right hrefuses) hrun).2
  · have hsame : refusedSince refused s (.socketEvent e : Event τ) = refused := by
      have hno : ¬ (s.running = true ∧ s.handler = [] ∧ Refuses e) :=
        fun hb => hbegin ⟨hb.1, hb.2.1⟩
      rw [refusedSince, decide_eq_false hno, Bool.or_false]
    rw [hsame, Socket.beginEvent, if_neg hbegin]
    exact h

/-- **One step of any thread.** -/
theorem Barred.next (h : Barred refused s) (hg : Guarded s) {e : Event τ} (he : Reopens s e) :
    Barred (refusedSince refused s e) (Socket.next isEmpty s e) := by
  have haside (he : Aside e) : Barred refused (Socket.next isEmpty s e) :=
    h.same (sameSession_next he).1
  cases e with
  | call c =>
    unfold Socket.next
    dsimp only
    split_ifs
    · exact h
    · exact h
  | mainStep =>
    unfold Socket.next Socket.mainStep refusedSince
    dsimp only
    rcases hm : s.main with _ | ⟨a, rest⟩
    · exact h
    · cases a with
      | startSocket =>
        have hrun : s.running = false := by
          have hr := hg.ready
          rw [hm] at hr
          exact hr.1
        rw [hrun]
        exact fun href => absurd href Bool.false_ne_true
      | _ => exact h.onMainStep hg hm (by simp)
  | socketEvent e => exact h.beginEvent hg he
  | handlerStep =>
    refine h.of_eq ?_ ?_ (flags_handlerStep s)
    · unfold Socket.next Socket.handlerStep
      dsimp only
      split
      · rfl
      · exact (onHandlerStep_session _ _).2.1
    · unfold Socket.next Socket.handlerStep
      dsimp only
      split
      · rfl
      · exact (onHandlerStep_session _ _).2.2.2.2.1
  | queueMsg | changeMap | writerSave | writerSend => exact haside trivial

end Barred

/-- **A session that the server has refused is not opened again**, whatever the threads do and
whatever other events the connection still has: the module comes back to the server only when the
socket is started again. -/
theorem refused_not_reopened (isEmpty : τ → Bool) (store : Store τ) {is : List (Event τ)}
    (his : Along (next isEmpty) (fun s e => FromModule e ∧ Reopens s e) (.init store) is) :
    Along (withGhost (next isEmpty) refusedSince) (fun gs e => ¬ ReopensRefused gs.1 gs.2 e)
        (false, .init store) is ∧
      ((run (next isEmpty) (.init store) is).running = true →
        (run (next isEmpty) (.init store) is).handler = [] →
        (run (next isEmpty) (.init store) is).automaticReconnection =
          (run (next isEmpty) (.init store) is).autoReconnectAllowed) := by
  have hinit : Barred false (.init store) ∧ Guarded (.init store) :=
    ⟨fun h => absurd h Bool.false_ne_true, guarded_init store⟩
  refine ⟨(along_withGhost.mpr his).imp_of_invariant
    (P := fun gs => Barred gs.1 gs.2 ∧ Guarded gs.2) ?_ ?_ hinit, fun hrun hidle => ?_⟩
  · rintro gs e ⟨hb, hg⟩ he
    exact ⟨hb.next hg he.2, hg.next he.1⟩
  · rintro gs e ⟨hb, hg⟩ he hbad
    cases e with
    | socketEvent e =>
      cases e with
      | opened => exact hb.not_opened hg he.2 hbad
      | closed code => exact hbad
      | error httpStatus => exact hbad
    | _ => exact hbad
  · have hguarded := his.run (fun s e (h : Guarded s) he => h.next he.1) (guarded_init store)
    have hagree := hguarded.agree hrun
    rw [flags_of_idle hidle] at hagree
    exact hagree.symm

/-! ### A session that is refused -/

section Sample

/-- The settings are changed, and the socket is started. -/
def sampleStarted : List (Event String) :=
  .call (.settingsChanged (str "wss://h") (str "t")) :: List.replicate 6 .mainStep

/-- The session is opened, the server closes it for a violation of its policy, and an error
follows. -/
def sampleRefused : List (Event String) :=
  sampleStarted ++ .socketEvent .opened :: List.replicate 6 .handlerStep ++
    .socketEvent (.closed 1008) :: List.replicate 3 .handlerStep ++
    .socketEvent (.error 500) :: List.replicate 2 .handlerStep

theorem sampleStarted_fromModule : ∀ e ∈ sampleStarted, FromModule e := by
  rintro e (_ | ⟨_, he⟩)
  · trivial
  · rw [List.eq_of_mem_replicate he]
    trivial

theorem credentials_safe_sample :
    Secure (run (next String.isEmpty) (.init ⟨fun _ => .empty, [], 0⟩) sampleStarted).url
        (run (next String.isEmpty) (.init ⟨fun _ => .empty, [], 0⟩) sampleStarted).token ∧
      ∀ e, (next String.isEmpty
          (run (next String.isEmpty) (.init ⟨fun _ => .empty, [], 0⟩) sampleStarted) e).url =
            (run (next String.isEmpty) (.init ⟨fun _ => .empty, [], 0⟩) sampleStarted).url ∧
        (next String.isEmpty
          (run (next String.isEmpty) (.init ⟨fun _ => .empty, [], 0⟩) sampleStarted) e).token =
            (run (next String.isEmpty) (.init ⟨fun _ => .empty, [], 0⟩) sampleStarted).token :=
  credentials_safe String.isEmpty ⟨fun _ => .empty, [], 0⟩ sampleStarted_fromModule (by decide)

theorem sampleRefused_reopens : Along (next String.isEmpty)
    (fun s e => FromModule e ∧ Reopens s e) (.init ⟨fun _ => .empty, [], 0⟩) sampleRefused := by
  simp only [sampleRefused, sampleStarted, List.replicate, List.cons_append, List.nil_append, Along,
    FromModule, Reopens, and_self, and_true, true_and]
  exact Or.inl rfl

/-- An Open would now be one of a refused session, and automatic reconnection is off. -/
theorem refused_not_reopened_sample :
    Along (withGhost (next String.isEmpty) refusedSince)
        (fun gs e => ¬ ReopensRefused gs.1 gs.2 e)
        (false, .init ⟨fun _ => .empty, [], 0⟩) sampleRefused ∧
      ReopensRefused
        (run (withGhost (next String.isEmpty) refusedSince)
          (false, .init ⟨fun _ => .empty, [], 0⟩) sampleRefused).1
        (run (next String.isEmpty) (.init ⟨fun _ => .empty, [], 0⟩) sampleRefused)
        (.socketEvent .opened) ∧
      (run (next String.isEmpty) (.init ⟨fun _ => .empty, [], 0⟩)
        sampleRefused).automaticReconnection = false := by
  obtain ⟨hnever, hagree⟩ :=
    refused_not_reopened String.isEmpty ⟨fun _ => .empty, [], 0⟩ sampleRefused_reopens
  exact ⟨hnever, ⟨rfl, rfl, rfl⟩, (hagree rfl rfl).trans rfl⟩

end Sample

end KzGlobal.Connection.Policy
