import KzGlobal.Connection.Socket

/-! # HELLO comes first

The Open handler records the state `Connected` before it builds and sends the HELLO, and the writer
thread sends its records whatever the state is. So a message that was queued, retried or recorded
may be handed to a new connection before the HELLO; without such a message between the Open and the
HELLO, the HELLO comes first (`hello_first_iff`). -/

namespace KzGlobal.Connection.Hello

open KzGlobal.Lib.Runs KzGlobal.Krp.Format KzGlobal.Replay.Text KzGlobal.Storage.Queue
  KzGlobal.Connection.Socket

variable {τ : Type} {isEmpty : τ → Bool} {s s' : ConnState τ}

/-- **The first message of the connection is its HELLO.** -/
def HelloFirst (s : ConnState τ) : Prop :=
  ∀ m rest, s.sent = some (m :: rest) → ∃ mapName, m = .hello mapName

/-- The Open handler has not sent the HELLO yet. -/
def HelloPending (s : ConnState τ) : Prop := .sendHello ∈ s.handler

/-- **What every reachable state has.** The HELLO is the last step of its handler; while it is
pending there is a connection without one, and where nothing was sent it is pending. -/
structure Greets (s : ConnState τ) : Prop where
  last : ∀ rest, .sendHello :: rest <:+ s.handler → rest = []
  connected : HelloPending s → ∃ sent, s.sent = some sent ∧ ∀ mapName, .hello mapName ∉ sent
  pending : s.sent = some [] → HelloPending s

theorem greets_init (store : Store τ) : Greets (.init store) where
  last _ h := absurd (List.suffix_nil.mp h) (List.cons_ne_nil _ _)
  connected h := absurd h List.not_mem_nil
  pending h := by cases h

/-! ### Messages that are handed over -/

variable (isEmpty) in
/-- The step hands a saved message to the socket: one of the queue, the one that a retry pass picks,
or a record. -/
def HandsOver (s : ConnState τ) : Event τ → Prop
  | .mainStep =>
    (∃ tasks frame rest m queue, s.main = .sendQueued (tasks + 1) frame :: rest ∧
      s.outgoingQueue = m :: queue ∧ isEmpty m = false) ∨
    ∃ frame rest r, s.main = .retryPass frame :: rest ∧
      (retryPass isEmpty frame.retriesDelay frame.retriesMax frame.now s.store.retryQueue).2 =
        some r ∧ r.table = .outgoingQueue ∧ isEmpty r.message = false
  | .writerSend => ∃ m, s.writer = some m ∧ isEmpty m = false
  | _ => False

/-- A saved message was handed over. -/
structure Sends (s s' : ConnState τ) : Prop where
  handler : s'.handler = s.handler
  sent : ∃ m, s'.sent = s.sent.map (· ++ [.text m])

/-- Nothing was handed over; a connection may have been stopped. -/
structure Silent (s s' : ConnState τ) : Prop where
  handler : s'.handler = s.handler
  sent : s'.sent = s.sent ∨ s'.sent = none ∧ s.handler = []

theorem Silent.of_eq (hhandler : s'.handler = s.handler) (hsent : s'.sent = s.sent) : Silent s s' :=
  ⟨hhandler, Or.inl hsent⟩

/-- What `kz_ws_send_msg` does after a step that hands nothing over. -/
theorem sendMsg_cases (h : s'.handler = s.handler ∧ s'.sent = s.sent) (m : τ) :
    isEmpty m = false ∧ Sends s (kzWsSendMsg isEmpty m s') ∨
      ¬ isEmpty m = false ∧ Silent s (kzWsSendMsg isEmpty m s') := by
  unfold kzWsSendMsg
  split_ifs with hm
  · exact Or.inr ⟨by simpa using hm, .of_eq h.1 h.2⟩
  · exact Or.inl ⟨by simpa using hm, h.1, m, by rw [handOver, h.2]⟩

section MainStep
variable {a : MainStep} {rest : List MainStep}

theorem handsOver_sendQueued {tasks : ℕ} {frame : Frame}
    (hm : s.main = .sendQueued tasks frame :: rest) :
    HandsOver isEmpty s .mainStep ↔
      ∃ n m queue, tasks = n + 1 ∧ s.outgoingQueue = m :: queue ∧ isEmpty m = false := by
  constructor
  · rintro (⟨n, _, _, m, queue, h, hq, he⟩ | ⟨_, _, _, h, -⟩)
    · rw [hm] at h
      injection h with h _
      injection h with h _
      exact ⟨n, m, queue, h, hq, he⟩
    · rw [hm] at h
      injection h with h _
      cases h
  · rintro ⟨n, m, queue, rfl, hq, he⟩
    exact Or.inl ⟨n, frame, rest, m, queue, hm, hq, he⟩

theorem handsOver_retryPass {frame : Frame} (hm : s.main = .retryPass frame :: rest) :
    HandsOver isEmpty s .mainStep ↔
      ∃ r, (retryPass isEmpty frame.retriesDelay frame.retriesMax frame.now s.store.retryQueue).2 =
      some r ∧
        r.table = .outgoingQueue ∧ isEmpty r.message = false := by
  constructor
  · rintro (⟨_, _, _, _, _, h, -⟩ | ⟨_, _, r, h, hr, ht, he⟩)
    · rw [hm] at h
      injection h with h _
      cases h
    · rw [hm] at h
      injection h with h _
      injection h with h
      subst h
      exact ⟨r, hr, ht, he⟩
  · rintro ⟨r, hr, ht, he⟩
    exact Or.inr ⟨frame, rest, r, hm, hr, ht, he⟩

theorem not_handsOver (hm : s.main = a :: rest) (hsend : ∀ tasks frame, a ≠ .sendQueued tasks frame)
    (hretry : ∀ frame, a ≠ .retryPass frame) : ¬ HandsOver isEmpty s .mainStep := by
  rintro (⟨tasks, frame, _, _, _, h, -⟩ | ⟨frame, _, _, h, -⟩)
  · rw [hm, List.cons.injEq] at h
    exact hsend _ _ h.1
  · rw [hm, List.cons.injEq] at h
    exact hretry _ h.1

theorem sendQueued_cases {tasks : ℕ} {frame : Frame}
    (hm : s.main = .sendQueued tasks frame :: rest) :
    HandsOver isEmpty s .mainStep ∧ Sends s (onMainStep isEmpty rest (.sendQueued tasks frame) s) ∨
      ¬ HandsOver isEmpty s .mainStep ∧
      Silent s (onMainStep isEmpty rest (.sendQueued tasks frame) s) := by
  rw [handsOver_sendQueued hm]
  unfold onMainStep
  dsimp only
  split
  · rename_i m queue n hq
    have hmid :
        ({ s with outgoingQueue := queue, main := .sendQueued n frame :: rest } :
        ConnState τ).handler
        = s.handler ∧ s.sent = s.sent := ⟨rfl, rfl⟩
    rcases sendMsg_cases hmid m with ⟨he, hs⟩ | ⟨he, hs⟩
    · exact Or.inl ⟨⟨n, m, queue, rfl, hq, he⟩, hs⟩
    · refine Or.inr ⟨?_, hs⟩
      rintro ⟨_, m', queue', -, hq', he'⟩
      rw [hq, List.cons.injEq] at hq'
      exact he (hq'.1 ▸ he')
  · rename_i n hq
    refine Or.inr ⟨?_, .of_eq rfl rfl⟩
    rintro ⟨_, m', queue', -, hq', -⟩
    rw [hq] at hq'
    cases hq'
  · refine Or.inr ⟨?_, .of_eq rfl rfl⟩
    rintro ⟨n, -, -, hn, -⟩
    exact absurd hn (Nat.succ_ne_zero n).symm

theorem retryPass_cases {frame : Frame} (hm : s.main = .retryPass frame :: rest) :
    HandsOver isEmpty s .mainStep ∧ Sends s (onMainStep isEmpty rest (.retryPass frame) s) ∨
      ¬ HandsOver isEmpty s .mainStep ∧
      Silent s (onMainStep isEmpty rest (.retryPass frame) s) := by
  have hmid (store : Store τ) :
      ({ s with main := rest, store := store } : ConnState τ).handler = s.handler ∧
        s.sent = s.sent := ⟨rfl, rfl⟩
  rw [handsOver_retryPass hm]
  unfold onMainStep retryStep
  dsimp only
  split
  · rename_i entry hr
    by_cases ht : entry.table = .outgoingQueue
    · rw [if_pos ht]
      rcases sendMsg_cases (hmid _) entry.message with ⟨he, hs⟩ | ⟨he, hs⟩
      · exact Or.inl ⟨⟨entry, hr, ht, he⟩, hs⟩
      · refine Or.inr ⟨?_, hs⟩
        rintro ⟨entry', hr', -, he'⟩
        rw [hr, Option.some.injEq] at hr'
        exact he (hr' ▸ he')
    · rw [if_neg ht]
      refine Or.inr ⟨?_, .of_eq rfl rfl⟩
      rintro ⟨entry', hr', ht', -⟩
      rw [hr, Option.some.injEq] at hr'
      exact ht (hr' ▸ ht')
  · rename_i hr
    refine Or.inr ⟨?_, .of_eq rfl rfl⟩
    rintro ⟨entry', hr', -⟩
    rw [hr] at hr'
    cases hr'

/-- The other steps send nothing. The socket is stopped only where no handler runs. -/
theorem silent_onMainStep (hsend : ∀ tasks frame, a ≠ .sendQueued tasks frame)
    (hretry : ∀ frame, a ≠ .retryPass frame) :
    Silent s (onMainStep isEmpty rest a s) := by
  unfold onMainStep
  cases a with
  | stop =>
    dsimp only
    split_ifs with hidle
    · exact ⟨rfl, Or.inr ⟨rfl, hidle⟩⟩
    · exact .of_eq rfl rfl
  | startSocket =>
    dsimp only
    split_ifs
    · exact .of_eq rfl rfl
    · exact .of_eq rfl rfl
  | checkConnected frame =>
    dsimp only
    split_ifs
    · exact .of_eq rfl rfl
    · exact .of_eq rfl rfl
  | sendQueued tasks frame => exact absurd rfl (hsend tasks frame)
  | retryPass frame => exact absurd rfl (hretry frame)
  | _ => exact .of_eq rfl rfl

/-- **A step of the main thread hands a message over, or nothing.** -/
theorem mainStep_cases (s : ConnState τ) :
    HandsOver isEmpty s .mainStep ∧ Sends s (mainStep isEmpty s) ∨
    ¬ HandsOver isEmpty s .mainStep ∧ Silent s (mainStep isEmpty s) := by
  unfold mainStep
  rcases hm : s.main with _ | ⟨a, rest⟩
  · refine Or.inr ⟨?_, .of_eq rfl rfl⟩
    rintro (⟨_, _, _, _, _, h, -⟩ | ⟨_, _, _, h, -⟩)
    · rw [hm] at h
      cases h
    · rw [hm] at h
      cases h
  · dsimp only
    cases a with
    | sendQueued tasks frame => exact sendQueued_cases hm
    | retryPass frame => exact retryPass_cases hm
    | _ => exact Or.inr ⟨not_handsOver hm nofun nofun, silent_onMainStep nofun nofun⟩

end MainStep

/-! ### One step -/

variable (isEmpty) in
/-- **The step that leaves the HELLO first.** No saved message is handed over between an Open and
the HELLO. -/
def NotBefore (s : ConnState τ) (e : Event τ) : Prop := HandsOver isEmpty s e → ¬ HelloPending s

theorem HelloFirst.silent (h : HelloFirst s) (hs : Silent s s') : HelloFirst s' := by
  intro m rest hsent
  rcases hs.sent with heq | ⟨hnone, -⟩
  · exact h m rest (heq ▸ hsent)
  · rw [hnone] at hsent
    cases hsent

theorem Greets.silent (h : Greets s) (hs : Silent s s') : Greets s' where
  last := by
    rw [hs.handler]
    exact h.last
  connected hp := by
    unfold HelloPending at hp
    rw [hs.handler] at hp
    rcases hs.sent with heq | ⟨-, hidle⟩
    · rw [heq]
      exact h.connected hp
    · rw [hidle] at hp
      exact absurd hp List.not_mem_nil
  pending hsent := by
    rcases hs.sent with heq | ⟨hnone, -⟩
    · unfold HelloPending
      rw [hs.handler]
      exact h.pending (heq ▸ hsent)
    · rw [hnone] at hsent
      cases hsent

theorem Greets.sends (h : Greets s) (hs : Sends s s') : Greets s' where
  last := by
    rw [hs.handler]
    exact h.last
  connected hp := by
    unfold HelloPending at hp
    rw [hs.handler] at hp
    obtain ⟨sent, hsent, hno⟩ := h.connected hp
    obtain ⟨m, hm⟩ := hs.sent
    refine ⟨sent ++ [.text m], by rw [hm, hsent, Option.map_some], fun mapName hmem => ?_⟩
    rcases List.mem_append.mp hmem with hmem | hmem
    · exact hno mapName hmem
    · rw [List.mem_singleton] at hmem
      cases hmem
  pending hsent := by
    obtain ⟨m, hm⟩ := hs.sent
    rw [hm, Option.map_eq_some_iff] at hsent
    obtain ⟨sent, -, happ⟩ := hsent
    exact absurd happ (List.append_ne_nil_of_right_ne_nil _ (List.cons_ne_nil _ _))

/-- **A message that is handed over leaves the HELLO first exactly if no HELLO is pending.** -/
theorem Sends.helloFirst_iff (hs : Sends s s') (hg : Greets s) (h : HelloFirst s) :
    HelloFirst s' ↔ ¬ HelloPending s := by
  obtain ⟨m, hm⟩ := hs.sent
  constructor
  · intro h' hp
    obtain ⟨sent, hsent, hno⟩ := hg.connected hp
    rw [hsent, Option.map_some] at hm
    rcases sent with _ | ⟨first, sent⟩
    · obtain ⟨mapName, heq⟩ := h' _ _ hm
      cases heq
    · obtain ⟨mapName, rfl⟩ := h first sent hsent
      exact hno mapName List.mem_cons_self
  · intro hp first rest hsent'
    rw [hm, Option.map_eq_some_iff] at hsent'
    obtain ⟨sent, hsent, happ⟩ := hsent'
    rcases sent with _ | ⟨first', sent⟩
    · exact absurd (hg.pending hsent) hp
    · rw [List.cons_append, List.cons.injEq] at happ
      exact happ.1 ▸ h first' sent hsent

/-- A step of the Open handler sends the HELLO before anything else, and no other step of a handler
sends. -/
theorem next_handlerStep (hg : Greets s) :
    Greets (handlerStep s) ∧ (HelloFirst s → HelloFirst (handlerStep s)) := by
  unfold handlerStep
  rcases hh : s.handler with _ | ⟨a, rest⟩
  · exact ⟨hg, id⟩
  · dsimp only
    have hlast (post : List HandlerStep) (hp : .sendHello :: post <:+ rest) : post = [] :=
      hg.last post (hh ▸ hp.trans (List.suffix_cons a rest))
    have hother (s' : ConnState τ) (hno : a ≠ .sendHello) (hhandler : s'.handler = rest)
        (hsent : s'.sent = s.sent) :
        Greets s' ∧ (HelloFirst s → HelloFirst s') := by
      have hiff : HelloPending s' ↔ HelloPending s := by
        unfold HelloPending
        rw [hhandler, hh, List.mem_cons, or_iff_right hno.symm]
      refine ⟨⟨hhandler ▸ hlast, ?_, ?_⟩, fun h => ?_⟩
      · rw [hiff, hsent]
        exact hg.connected
      · rw [hiff, hsent]
        exact hg.pending
      · unfold HelloFirst
        rw [hsent]
        exact h
    cases a with
    | sendHello =>
      obtain rfl : rest = [] := hg.last rest (hh ▸ List.suffix_rfl)
      obtain ⟨sent, hsent, hno⟩ :=
        hg.connected (by rw [HelloPending, hh]; exact List.mem_singleton_self _)
      have hafter : (onHandlerStep .sendHello { s with handler := [] }).sent =
        some (sent ++ [.hello s.hello]) := by
        rw [onHandlerStep, handOver]
        dsimp only
        rw [hsent, Option.map_some]
      refine ⟨⟨hlast, fun hp => absurd hp List.not_mem_nil, fun hempty => ?_⟩,
        fun h m post hpost => ?_⟩
      · rw [hafter, Option.some.injEq] at hempty
        exact absurd hempty (List.append_ne_nil_of_right_ne_nil _ (List.cons_ne_nil _ _))
      · rw [hafter, Option.some.injEq] at hpost
        rcases sent with _ | ⟨first, sent⟩
        · rw [List.nil_append, List.cons.injEq] at hpost
          exact ⟨s.hello, hpost.1.symm⟩
        · rw [List.cons_append, List.cons.injEq] at hpost
          exact hpost.1 ▸ h first sent hsent
    | _ => exact hother _ nofun rfl rfl

theorem next_beginEvent (hg : Greets s) (e : SocketEvent) :
    Greets (beginEvent e s) ∧ (HelloFirst s → HelloFirst (beginEvent e s)) := by
  unfold beginEvent
  by_cases hrun : s.running = true ∧ s.handler = []
  · rw [if_pos hrun]
    by_cases he : e = .opened
    · subst he
      refine ⟨⟨fun rest hp => ?_, fun _ => ⟨[], rfl, fun _ => List.not_mem_nil⟩, fun _ => ?_⟩,
        fun _ => nofun⟩
      · simpa [kzWsOnmessage, List.suffix_cons_iff] using hp
      · simp [HelloPending, kzWsOnmessage]
    · have hno : .sendHello ∉ kzWsOnmessage e := by
        unfold kzWsOnmessage kzWsForbidAutoReconnect
        split
        · exact absurd rfl he
        · split_ifs <;> simp
        · split_ifs <;> simp
      refine ⟨⟨fun rest hp => absurd (hp.subset List.mem_cons_self) hno,
        fun hp => absurd hp hno, ?_⟩, ?_⟩
      · rw [if_neg he]
        nofun
      · intro _
        unfold HelloFirst
        rw [if_neg he]
        nofun
  · rw [if_neg hrun]
    exact ⟨hg, id⟩

variable (isEmpty) in
/-- What a step does to the messages of the connection, where it is not one of the WebSocket
thread. -/
theorem next_cases (s : ConnState τ) (e : Event τ) (hevent : ∀ ev, e ≠ .socketEvent ev)
    (hhandler : e ≠ .handlerStep) :
    HandsOver isEmpty s e ∧ Sends s (next isEmpty s e) ∨
    ¬ HandsOver isEmpty s e ∧ Silent s (next isEmpty s e) := by
  cases e with
  | mainStep => exact mainStep_cases s
  | socketEvent ev => exact absurd rfl (hevent ev)
  | handlerStep => exact absurd rfl hhandler
  | writerSend =>
    unfold next
    dsimp only
    split
    · rename_i m hm
      have hmid : ({ s with writer := none } : ConnState τ).handler = s.handler ∧ s.sent = s.sent :=
        ⟨rfl, rfl⟩
      rcases sendMsg_cases hmid m with ⟨he, hs⟩ | ⟨he, hs⟩
      · exact Or.inl ⟨⟨m, hm, he⟩, hs⟩
      · refine Or.inr ⟨?_, hs⟩
        rintro ⟨m', hm', he'⟩
        rw [hm, Option.some.injEq] at hm'
        exact he (hm' ▸ he')
    · rename_i hm
      refine Or.inr ⟨?_, .of_eq rfl rfl⟩
      rintro ⟨m', hm', -⟩
      rw [hm] at hm'
      cases hm'
  | queueMsg now text msgType pushed =>
    refine Or.inr ⟨id, ?_⟩
    unfold next kzWsQueueMsg
    dsimp only
    split_ifs
    · exact .of_eq rfl rfl
    · exact .of_eq rfl rfl
    · exact .of_eq rfl rfl
  | _ =>
    refine Or.inr ⟨id, ?_⟩
    unfold next
    dsimp only
    split_ifs
    · exact .of_eq rfl rfl
    · exact .of_eq rfl rfl

variable (isEmpty) in
/-- **One step** leaves the HELLO first exactly if it hands no saved message over before it. -/
theorem next_helloFirst (hg : Greets s) (e : Event τ) : Greets (next isEmpty s e) ∧
    (HelloFirst s → (HelloFirst (next isEmpty s e) ↔ NotBefore isEmpty s e)) := by
  by_cases hthread : (∃ ev, e = .socketEvent ev) ∨ e = .handlerStep
  · have hno : NotBefore isEmpty s e := by
      rcases hthread with ⟨ev, rfl⟩ | rfl
      · exact fun hh => hh.elim
      · exact fun hh => hh.elim
    rcases hthread with ⟨ev, rfl⟩ | rfl
    · obtain ⟨hg', h'⟩ := next_beginEvent hg ev
      exact ⟨hg', fun h => iff_of_true (h' h) hno⟩
    · obtain ⟨hg', h'⟩ := next_handlerStep hg
      exact ⟨hg', fun h => iff_of_true (h' h) hno⟩
  · rw [not_or, not_exists] at hthread
    rcases next_cases isEmpty s e hthread.1 hthread.2 with ⟨hover, hs⟩ | ⟨hover, hs⟩
    · refine ⟨hg.sends hs, fun h => (hs.helloFirst_iff hg h).trans ?_⟩
      exact ⟨fun hp _ => hp, fun hno => hno hover⟩
    · exact ⟨hg.silent hs, fun h => iff_of_true (h.silent hs) fun hh => absurd hh hover⟩

/-! ### Runs -/

variable (isEmpty) in
/-- **Over every run**, the HELLO is the first message of every connection exactly where no queued,
retried or recorded message is handed to the socket between the Open and the HELLO. -/
theorem hello_first_iff (store : Store τ) (es : List (Event τ)) :
    (∀ es', es' <+: es → HelloFirst (run (next isEmpty) (.init store) es')) ↔
      Along (next isEmpty) (NotBefore isEmpty) (.init store) es :=
  have hinit : HelloFirst (ConnState.init store) := nofun
  forall_prefix_iff (fun _ e hg => (next_helloFirst isEmpty hg e).1)
    (fun _ e hg h => (next_helloFirst isEmpty hg e).2 h) (greets_init store) hinit

/-! ### A message before the HELLO -/

section Sample

/-- A message is queued, the socket is started, and `Connected` is recorded before the HELLO is
built; the frame that comes then sends the message. -/
def sampleQueued : List (Event String) :=
  [.queueMsg 0 "m" 0 true, .call (.start (str "wss://h") (str "t"))] ++
    List.replicate 5 .mainStep ++
    [.socketEvent .opened] ++ List.replicate 4 .handlerStep ++
      [.call (.runTasks ⟨1, true, 5, 3, 0⟩), .mainStep, .mainStep]

/-- **The queued message comes first.** -/
theorem queued_before_hello :
    ¬ HelloFirst (run (next String.isEmpty) (.init ⟨fun _ => .empty, [], 0⟩) sampleQueued) := by
  intro h
  have hsent : (run (next String.isEmpty) (.init ⟨fun _ => .empty, [], 0⟩) sampleQueued).sent =
      some [.text "m"] := by
    decide +kernel
  obtain ⟨mapName, heq⟩ := h (.text "m") [] hsent
  cases heq

end Sample

end KzGlobal.Connection.Hello
