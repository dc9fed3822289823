import KzGlobal.Lib.Runs
import KzGlobal.Plugins.Callbacks

/-! # A forward is used once

Of two calls with one forward the first one executes it and the second one unregisters it: that is
what is left of the orders of calls once a forward is executed and unregistered at most once and not
executed after it is unregistered (`usedOnce_iff`). The entry of a request stays in
`g_plugin_callbacks` after its forward was called, so the forward is used again by a second reply,
or by a map change that comes before the message is deleted. Without these it is used once
(`used_once_iff`). -/

namespace KzGlobal.Plugins.Once

open KzGlobal.Lib.Autoincrement KzGlobal.Lib.Runs KzGlobal.Krp.Format KzGlobal.Replay.Text
  KzGlobal.Storage.Queue KzGlobal.Plugins.Callbacks

/-! ### Calls -/

/-- A call executes this forward. -/
def executes (fwd : ℕ) : Call → Bool
  | .execute f _ _ => f = fwd
  | .unregister _ => false

/-- A call unregisters this forward. -/
def unregisters (fwd : ℕ) : Call → Bool
  | .execute _ _ _ => false
  | .unregister f => f = fwd

/-- **A forward is executed at most once, unregistered at most once, and never executed after it was
unregistered.** -/
structure UsedOnce (calls : List Call) (fwd : ℕ) : Prop where
  executed : calls.countP (executes fwd) ≤ 1
  unregistered : calls.countP (unregisters fwd) ≤ 1
  order : calls.Pairwise fun c c' => ¬ (unregisters fwd c = true ∧ executes fwd c' = true)

theorem countP_le_one_iff {α : Type*} {p : α → Bool} {l : List α} :
    l.countP p ≤ 1 ↔ l.Pairwise fun a b => ¬ (p a = true ∧ p b = true) := by
  induction l with
  | nil => simp
  | cons a l ih =>
    rw [List.pairwise_cons, ← ih, List.countP_cons]
    by_cases ha : p a = true
    · have hzero : l.countP p = 0 ↔ ∀ b ∈ l, ¬ p b = true := List.countP_eq_zero
      simp only [ha, if_true, true_and]
      rw [← hzero]
      omega
    · simp [ha]

/-- The later one of two calls with the same forward unregisters what the earlier one executed. -/
def Follows : Call → Call → Prop
  | .execute f _ _, .execute f' _ _ => f ≠ f'
  | .execute _ _ _, .unregister _ => True
  | .unregister f, .execute f' _ _ => f ≠ f'
  | .unregister f, .unregister f' => f ≠ f'

/-- Two calls that are allowed for a forward. -/
def Allowed (fwd : ℕ) (c c' : Call) : Prop :=
  ¬ (executes fwd c = true ∧ executes fwd c' = true) ∧
    ¬ (unregisters fwd c = true ∧ unregisters fwd c' = true) ∧
      ¬ (unregisters fwd c = true ∧ executes fwd c' = true)

theorem follows_iff (c c' : Call) : Follows c c' ↔ ∀ fwd, Allowed fwd c c' := by
  cases c <;> cases c' <;> simp [Follows, Allowed, executes, unregisters, eq_comm]

theorem usedOnce_iff_pairwise {calls : List Call} {fwd : ℕ} :
    UsedOnce calls fwd ↔ calls.Pairwise (Allowed fwd) := by
  unfold Allowed
  rw [List.pairwise_and_iff, List.pairwise_and_iff, ← countP_le_one_iff, ← countP_le_one_iff]
  exact ⟨fun h => ⟨h.executed, h.unregistered, h.order⟩, fun h => ⟨h.1, h.2.1, h.2.2⟩⟩

theorem usedOnce_iff {calls : List Call} : (∀ fwd, UsedOnce calls fwd) ↔
    calls.Pairwise Follows := by
  simp only [usedOnce_iff_pairwise]
  induction calls with
  | nil => simp
  | cons c calls ih =>
    simp only [List.pairwise_cons, ← ih, follows_iff]
    constructor
    · exact fun h => ⟨fun c' hc fwd => (h fwd).1 c' hc, fun fwd => (h fwd).2⟩
    · exact fun h fwd => ⟨fun c' hc => h.1 c' hc fwd, h.2 fwd⟩

/-! ### What the calls say -/

/-- The forward was called. -/
def Executed (calls : List Call) (fwd : ℕ) : Prop := ∃ map info, Call.execute fwd map info ∈ calls

theorem pairwise_append_unregister {calls : List Call} {fwd : ℕ} (h : calls.Pairwise Follows) :
    (calls ++ [Call.unregister fwd]).Pairwise Follows ↔ Call.unregister fwd ∉ calls := by
  rw [List.pairwise_append]
  constructor
  · rintro ⟨-, -, hlast⟩ hmem
    exact hlast _ hmem _ (List.mem_singleton_self _) rfl
  · refine fun hnot => ⟨h, List.pairwise_singleton .., fun c hc c' hc' => ?_⟩
    rw [List.mem_singleton.mp hc']
    cases c with
    | execute f map info => trivial
    | unregister f =>
      rintro rfl
      exact hnot hc

theorem pairwise_append_execute {calls : List Call} {fwd : ℕ} {map : Bytes} {info : MapInfo}
    (h : calls.Pairwise Follows) : (calls ++ [Call.execute fwd map info]).Pairwise Follows ↔
      ¬ Executed calls fwd ∧ Call.unregister fwd ∉ calls := by
  rw [List.pairwise_append]
  constructor
  · rintro ⟨-, -, hlast⟩
    refine ⟨?_, fun hmem => hlast _ hmem _ (List.mem_singleton_self _) rfl⟩
    rintro ⟨map', info', hmem⟩
    exact hlast _ hmem _ (List.mem_singleton_self _) rfl
  · rintro ⟨hexec, hunreg⟩
    refine ⟨h, List.pairwise_singleton .., fun c hc c' hc' => ?_⟩
    rw [List.mem_singleton.mp hc']
    cases c with
    | execute f map' info' =>
      rintro rfl
      exact hexec ⟨map', info', hc⟩
    | unregister f =>
      rintro rfl
      exact hunreg hc

/-- **A forward is called and released.** -/
theorem pairwise_call {calls : List Call} {fwd : ℕ} {map : Bytes} {info : MapInfo}
    (h : calls.Pairwise Follows) :
    (calls ++ [Call.execute fwd map info, .unregister fwd]).Pairwise Follows ↔
      ¬ Executed calls fwd ∧ Call.unregister fwd ∉ calls := by
  have hsplit : calls ++ [.execute fwd map info, .unregister fwd] =
      calls ++ [.execute fwd map info] ++ [.unregister fwd] := by simp
  rw [hsplit]
  constructor
  · intro hp
    exact (pairwise_append_execute h).mp (List.pairwise_append.mp hp).1
  · intro hnot
    refine (pairwise_append_unregister ((pairwise_append_execute h).mpr hnot)).mpr ?_
    simpa using hnot.2

/-! ### Requests that were answered -/

/-- The forward of a request is still held although it was called. -/
def Answered (s : PluginState) (msgId : ℕ) : Prop :=
  ∃ fwd, s.pluginCallbacks msgId = some fwd ∧ Executed s.calls fwd

/-- **What the forwards have been through.** A forward that is held is that of one request, and one
that was called was released; one that is held was not released before it was called. -/
structure Accounted (s : PluginState) : Prop where
  held_lt : ∀ id fwd, s.pluginCallbacks id = some fwd → fwd < s.forwards
  execute_lt : ∀ fwd, Executed s.calls fwd → fwd < s.forwards
  unregister_lt : ∀ fwd, Call.unregister fwd ∈ s.calls → fwd < s.forwards
  inj : ∀ id id' fwd, s.pluginCallbacks id = some fwd → s.pluginCallbacks id' = some fwd → id = id'
  released : ∀ fwd, Executed s.calls fwd → Call.unregister fwd ∈ s.calls
  called : ∀ id fwd, s.pluginCallbacks id = some fwd → Call.unregister fwd ∈ s.calls →
    Executed s.calls fwd

/-- Two states with the same requests and calls. -/
structure Same (s s' : PluginState) : Prop where
  callbacks : s'.pluginCallbacks = s.pluginCallbacks
  forwards : s'.forwards = s.forwards
  calls : s'.calls = s.calls

section Steps
variable {s s' : PluginState}

theorem Accounted.init (tables : StorageTable → Table (Stored Request)) :
    Accounted (.init tables) where
  held_lt _ _ h := by cases h
  execute_lt := by rintro _ ⟨_, _, h⟩; exact absurd h List.not_mem_nil
  unregister_lt _ h := absurd h List.not_mem_nil
  inj _ _ _ h := by cases h
  released := by rintro _ ⟨_, _, h⟩; exact absurd h List.not_mem_nil
  called _ _ h := by cases h

theorem Accounted.same (h : Accounted s) (hs : Same s s') : Accounted s' where
  held_lt := by rw [hs.callbacks, hs.forwards]; exact h.held_lt
  execute_lt := by rw [hs.calls, hs.forwards]; exact h.execute_lt
  unregister_lt := by rw [hs.calls, hs.forwards]; exact h.unregister_lt
  inj := by rw [hs.callbacks]; exact h.inj
  released := by rw [hs.calls]; exact h.released
  called := by rw [hs.callbacks, hs.calls]; exact h.called

theorem same_receive (reply : Option MapInfoReply) (msgId : ℕ) (pushed : Bool) (s : PluginState) :
    Same s (receive reply msgId pushed s) := by
  unfold receive
  split
  · split
    · exact ⟨rfl, rfl, rfl⟩
    · exact ⟨rfl, rfl, rfl⟩
    · exact ⟨rfl, rfl, rfl⟩
  · exact ⟨rfl, rfl, rfl⟩

theorem same_deleteMsg (s : PluginState) : Same s (deleteMsg s) := by
  unfold deleteMsg
  split
  · exact ⟨rfl, rfl, rfl⟩
  · exact ⟨rfl, rfl, rfl⟩

/-! ### Calls with a forward -/

theorem executed_call {calls : List Call} {fwd fwd' : ℕ} {map : Bytes} {info : MapInfo} :
    Executed (calls ++ [.execute fwd map info, .unregister fwd]) fwd' ↔
      Executed calls fwd' ∨ fwd' = fwd := by
  unfold Executed
  constructor
  · rintro ⟨map', info', hmem⟩
    rcases List.mem_append.mp hmem with hmem | hmem
    · exact Or.inl ⟨map', info', hmem⟩
    · simp only [List.mem_cons, Call.execute.injEq, reduceCtorEq, List.not_mem_nil,
        or_false] at hmem
      exact Or.inr hmem.1
  · rintro (⟨map', info', hmem⟩ | rfl)
    · exact ⟨map', info', List.mem_append_left _ hmem⟩
    · exact ⟨map, info, by simp⟩

theorem unregister_mem_call {calls : List Call} {fwd fwd' : ℕ} {map : Bytes} {info : MapInfo} :
    Call.unregister fwd' ∈ calls ++ [.execute fwd map info, .unregister fwd] ↔
      Call.unregister fwd' ∈ calls ∨ fwd' = fwd := by
  simp

theorem Accounted.call (h : Accounted s) {fwd : ℕ} (hlt : fwd < s.forwards) (map : Bytes)
    (info : MapInfo) : Accounted (kzCallMapInfoForward fwd map info s) where
  held_lt := h.held_lt
  execute_lt f hf := by
    rcases executed_call.mp hf with hf | rfl
    · exact h.execute_lt f hf
    · exact hlt
  unregister_lt f hf := by
    rcases unregister_mem_call.mp hf with hf | rfl
    · exact h.unregister_lt f hf
    · exact hlt
  inj := h.inj
  released f hf := by
    refine unregister_mem_call.mpr ?_
    exact (executed_call.mp hf).imp_left (h.released f)
  called id f hid hf := by
    refine executed_call.mpr ?_
    exact (unregister_mem_call.mp hf).imp_left (h.called id f hid)

/-! ### A request -/

theorem Accounted.unused (h : Accounted s) :
    ¬ Executed s.calls s.forwards ∧ Call.unregister s.forwards ∉ s.calls :=
  ⟨fun hf => (h.execute_lt _ hf).false, fun hf => (h.unregister_lt _ hf).false⟩

theorem Accounted.register (h : Accounted s) : Accounted { s with forwards := s.forwards + 1 } where
  held_lt id f hid := Nat.lt_succ_of_lt (h.held_lt id f hid)
  execute_lt f hf := Nat.lt_succ_of_lt (h.execute_lt f hf)
  unregister_lt f hf := Nat.lt_succ_of_lt (h.unregister_lt f hf)
  inj := h.inj
  released := h.released
  called := h.called

theorem Accounted.hold (h : Accounted s) (msgId : ℕ) (store : Store Request) : Accounted { s with
    forwards := s.forwards + 1
    pluginCallbacks := Function.update s.pluginCallbacks msgId (some s.forwards)
    store := store } := by
  have hold {id fwd : ℕ}
      (hid : Function.update s.pluginCallbacks msgId (some s.forwards) id = some fwd) :
      (id = msgId ∧ fwd = s.forwards) ∨ (id ≠ msgId ∧ s.pluginCallbacks id = some fwd) := by
    rw [Function.update_apply] at hid
    split_ifs at hid with heq
    · exact Or.inl ⟨heq, (Option.some.inj hid).symm⟩
    · exact Or.inr ⟨heq, hid⟩
  refine ⟨fun id fwd hid => ?_, h.register.execute_lt, h.register.unregister_lt,
    fun id id' fwd hid hid' => ?_, h.released, fun id fwd hid hf => ?_⟩
  · rcases hold hid with ⟨-, rfl⟩ | ⟨-, hid⟩
    · exact Nat.lt_succ_self _
    · exact Nat.lt_succ_of_lt (h.held_lt id fwd hid)
  · rcases hold hid with ⟨rfl, rfl⟩ | ⟨-, hid⟩
    · rcases hold hid' with ⟨rfl, -⟩ | ⟨-, hid'⟩
      · rfl
      · exact absurd (h.held_lt _ _ hid') (Nat.lt_irrefl _)
    · rcases hold hid' with ⟨-, rfl⟩ | ⟨-, hid'⟩
      · exact absurd (h.held_lt _ _ hid) (Nat.lt_irrefl _)
      · exact h.inj id id' fwd hid hid'
  · rcases hold hid with ⟨-, rfl⟩ | ⟨-, hid⟩
    · exact absurd hf h.unused.2
    · exact h.called id fwd hid hf

theorem Accounted.getMapDetails (h : Accounted s) (now : ℤ) (mapname : Bytes) (hasHandler : Bool) :
    Accounted (kzApiGetMapDetails now mapname hasHandler s) := by
  unfold kzApiGetMapDetails
  dsimp only
  split_ifs
  · exact h.register.call (Nat.lt_succ_self _) mapname s.currentMapInfo
  · exact h.hold ..
  · exact h

theorem once_getMapDetails (h : Accounted s) (hp : s.calls.Pairwise Follows) (now : ℤ)
    (mapname : Bytes)
    (hasHandler : Bool) : (kzApiGetMapDetails now mapname hasHandler s).calls.Pairwise Follows := by
  unfold kzApiGetMapDetails
  dsimp only
  split_ifs
  · exact (pairwise_call hp).mpr h.unused
  · exact hp
  · exact hp

/-! ### A reply -/

theorem Accounted.onMapInfo (h : Accounted s) (r : MapInfoReply) : Accounted (onMapInfo r s) := by
  unfold Callbacks.onMapInfo
  split
  · rename_i fwd hid
    exact h.call (h.held_lt _ _ hid) r.map r.info
  · split_ifs
    · exact h.same ⟨rfl, rfl, rfl⟩
    · exact h

/-- **A reply uses its forward once where the request was not answered.** -/
theorem once_onMapInfo (h : Accounted s) (hp : s.calls.Pairwise Follows) (r : MapInfoReply) :
    (onMapInfo r s).calls.Pairwise Follows ↔ ¬ Answered s r.msgId := by
  unfold Callbacks.onMapInfo
  split
  · rename_i fwd hid
    refine (pairwise_call hp).trans ?_
    constructor
    · rintro ⟨hexec, -⟩ ⟨f, hid', hf⟩
      rw [hid, Option.some.injEq] at hid'
      exact hexec (hid' ▸ hf)
    · intro hno
      have hexec : ¬ Executed s.calls fwd := fun hf => hno ⟨fwd, hid, hf⟩
      exact ⟨hexec, fun hf => hexec (h.called _ _ hid hf)⟩
  · rename_i hid
    have hno : ¬ Answered s r.msgId := by
      rintro ⟨f, hid', -⟩
      rw [hid] at hid'
      cases hid'
    refine iff_of_true ?_ hno
    split_ifs
    · exact hp
    · exact hp

/-! ### A map change -/

/-- An entry of the retry queue whose forward is released. -/
def Holds (s : PluginState) (r : RetryMsg Request) (fwd : ℕ) : Prop :=
  r.msgType = msgWantMapInfo ∧ s.pluginCallbacks r.msgId = some fwd

theorem releaseEntry_of_holds {r : RetryMsg Request} {fwd : ℕ} (h : Holds s r fwd) :
    releaseEntry s r = { s with
      calls := s.calls ++ [.unregister fwd]
      pluginCallbacks := Function.update s.pluginCallbacks r.msgId none } := by
  unfold releaseEntry
  rw [if_pos h.1, h.2]

theorem releaseEntry_of_not {r : RetryMsg Request} (h : ∀ fwd, ¬ Holds s r fwd) :
    releaseEntry s r = s := by
  unfold releaseEntry
  by_cases ht : r.msgType = msgWantMapInfo
  · rw [if_pos ht]
    split
    · rename_i fwd hid
      exact absurd ⟨ht, hid⟩ (h fwd)
    · rfl
  · rw [if_neg ht]

theorem update_none_eq_some {callbacks : ℕ → Option ℕ} {id id' fwd : ℕ}
    (h : Function.update callbacks id none id' = some fwd) : id' ≠ id ∧
    callbacks id' = some fwd := by
  rw [Function.update_apply] at h
  split_ifs at h with heq
  exact ⟨heq, h⟩

theorem executed_append_unregister {calls : List Call} {fwd fwd' : ℕ} :
    Executed (calls ++ [.unregister fwd]) fwd' ↔ Executed calls fwd' := by
  simp [Executed]

theorem unregister_mem_append {calls : List Call} {fwd fwd' : ℕ} :
    Call.unregister fwd' ∈ calls ++ [.unregister fwd] ↔ Call.unregister fwd' ∈ calls ∨
    fwd' = fwd := by
  simp

theorem Accounted.releaseEntry (h : Accounted s) (r : RetryMsg Request) :
    Accounted (releaseEntry s r) := by
  by_cases hr : ∃ fwd, Holds s r fwd
  · obtain ⟨fwd, hr⟩ := hr
    rw [releaseEntry_of_holds hr]
    refine ⟨fun id f hid => ?_, fun f hf => ?_, fun f hf => ?_, fun id id' f hid hid' => ?_,
      fun f hf => ?_, fun id f hid hf => ?_⟩
    · exact h.held_lt id f (update_none_eq_some hid).2
    · exact h.execute_lt f (executed_append_unregister.mp hf)
    · rcases unregister_mem_append.mp hf with hf | rfl
      · exact h.unregister_lt f hf
      · exact h.held_lt _ _ hr.2
    · exact h.inj id id' f (update_none_eq_some hid).2 (update_none_eq_some hid').2
    · refine unregister_mem_append.mpr (Or.inl ?_)
      exact h.released f (executed_append_unregister.mp hf)
    · obtain ⟨hne, hid'⟩ := update_none_eq_some hid
      refine executed_append_unregister.mpr ?_
      rcases unregister_mem_append.mp hf with hf | rfl
      · exact h.called id f hid' hf
      · exact absurd (h.inj id r.msgId f hid' hr.2) hne
  · rw [releaseEntry_of_not (not_exists.mp hr)]
    exact h

theorem Accounted.releaseAll (h : Accounted s) (q : List (RetryMsg Request)) :
    Accounted (q.foldl Callbacks.releaseEntry s) := by
  induction q generalizing s with
  | nil => exact h
  | cons r q ih => exact ih (h.releaseEntry r)

theorem Accounted.storageClear (h : Accounted s) : Accounted (storageClear s) :=
  (h.releaseAll s.store.retryQueue).same ⟨rfl, rfl, rfl⟩

theorem prefix_releaseAll (q : List (RetryMsg Request)) (s : PluginState) :
    s.calls <+: (q.foldl releaseEntry s).calls := by
  induction q generalizing s with
  | nil => exact List.prefix_refl _
  | cons r q ih =>
    refine List.IsPrefix.trans ?_ (ih (releaseEntry s r))
    by_cases hr : ∃ fwd, Holds s r fwd
    · obtain ⟨fwd, hr⟩ := hr
      rw [releaseEntry_of_holds hr]
      exact List.prefix_append ..
    · rw [releaseEntry_of_not (not_exists.mp hr)]

theorem answered_release {r : RetryMsg Request} {fwd : ℕ} (hr : Holds s r fwd) (id : ℕ) :
    Answered (releaseEntry s r) id ↔ id ≠ r.msgId ∧ Answered s id := by
  rw [releaseEntry_of_holds hr]
  unfold Answered
  constructor
  · rintro ⟨f, hid, hf⟩
    obtain ⟨hne, hid⟩ := update_none_eq_some hid
    exact ⟨hne, f, hid, executed_append_unregister.mp hf⟩
  · rintro ⟨hne, f, hid, hf⟩
    exact ⟨f, (Function.update_of_ne hne ..).trans hid, executed_append_unregister.mpr hf⟩

/-- **A map change uses the forwards once where none of its requests was answered.** -/
theorem once_releaseAll (h : Accounted s) (hp : s.calls.Pairwise Follows)
    (q : List (RetryMsg Request)) :
    (q.foldl releaseEntry s).calls.Pairwise Follows ↔
      ∀ r ∈ q, r.msgType = msgWantMapInfo → ¬ Answered s r.msgId := by
  induction q generalizing s with
  | nil => simpa using hp
  | cons r q ih =>
    rw [List.foldl_cons, List.forall_mem_cons]
    by_cases hr : ∃ fwd, Holds s r fwd
    · obtain ⟨fwd, hr⟩ := hr
      have hcalls : (releaseEntry s r).calls = s.calls ++ [.unregister fwd] := by
        rw [releaseEntry_of_holds hr]
      have hone : (releaseEntry s r).calls.Pairwise Follows ↔ ¬ Answered s r.msgId := by
        rw [hcalls]
        refine (pairwise_append_unregister hp).trans (not_congr ?_)
        constructor
        · exact fun hf => ⟨fwd, hr.2, h.called _ _ hr.2 hf⟩
        · rintro ⟨f, hid, hf⟩
          rw [hr.2, Option.some.injEq] at hid
          exact h.released _ (hid ▸ hf)
      constructor
      · intro hall
        have hnow := hall.sublist (prefix_releaseAll q (releaseEntry s r)).sublist
        have hno := hone.mp hnow
        refine ⟨fun _ => hno, fun r' hr' ht ha => ?_⟩
        refine (ih (h.releaseEntry r) hnow).mp hall r' hr' ht ((answered_release hr _).mpr ⟨?_, ha⟩)
        intro heq
        exact hno (heq ▸ ha)
      · rintro ⟨hno, hrest⟩
        refine (ih (h.releaseEntry r) (hone.mpr (hno hr.1))).mpr fun r' hr' ht ha => ?_
        exact hrest r' hr' ht ((answered_release hr _).mp ha).2
    · rw [releaseEntry_of_not (not_exists.mp hr), ih h hp]
      refine (and_iff_right fun ht => ?_).symm
      rintro ⟨fwd, hid, -⟩
      exact hr ⟨fwd, ht, hid⟩

/-! ### Runs -/

/-- **The steps that use no forward again.** The callback that runs is not that of a request that
was answered, and a map change finds no message of such a request. -/
def Unanswered (s : PluginState) : Event → Prop
  | .runCallback => ∀ r rest, s.incoming = r :: rest → ¬ Answered s r.msgId
  | .storageClear => ∀ r ∈ s.store.retryQueue, r.msgType = msgWantMapInfo → ¬ Answered s r.msgId
  | _ => True

theorem Accounted.next (h : Accounted s) (e : Event) : Accounted (next s e) := by
  cases e with
  | getMapDetails now mapname hasHandler => exact h.getMapDetails now mapname hasHandler
  | mapInfo data msgId pushed => exact h.same (same_receive ..)
  | helloAck hasHeartbeat data msgId pushed => exact h.same (same_receive ..)
  | answerOther msgId => exact h.same (same_receive none msgId true s)
  | deleteMsg => exact h.same (same_deleteMsg s)
  | runCallback =>
    unfold Callbacks.next runCallback
    dsimp only
    split
    · exact h
    · rename_i r rest _
      have h' : Accounted { s with incoming := rest } := h.same ⟨rfl, rfl, rfl⟩
      exact h'.onMapInfo r
  | storageClear => exact h.storageClear
  | _ => exact h.same ⟨rfl, rfl, rfl⟩

theorem once_next_iff (s : PluginState) (e : Event) (h : Accounted s)
    (hp : s.calls.Pairwise Follows) :
    (next s e).calls.Pairwise Follows ↔ Unanswered s e := by
  have hsame {s' : PluginState} (hs : Same s s') : s'.calls.Pairwise Follows := by rwa [hs.calls]
  cases e with
  | getMapDetails now mapname hasHandler => exact iff_of_true (once_getMapDetails h hp ..) trivial
  | mapInfo data msgId pushed => exact iff_of_true (hsame (same_receive ..)) trivial
  | helloAck hasHeartbeat data msgId pushed => exact iff_of_true (hsame (same_receive ..)) trivial
  | answerOther msgId => exact iff_of_true (hsame (same_receive none msgId true s)) trivial
  | deleteMsg => exact iff_of_true (hsame (same_deleteMsg s)) trivial
  | runCallback =>
    unfold next runCallback Unanswered
    dsimp only
    split
    · rename_i hnil
      exact iff_of_true hp fun r rest hcons => absurd (hnil.symm.trans hcons)
        (List.cons_ne_nil _ _).symm
    · rename_i r rest hcons
      have h' : Accounted { s with incoming := rest } := h.same ⟨rfl, rfl, rfl⟩
      refine (once_onMapInfo h' hp r).trans ?_
      constructor
      · intro hno r' rest' hcons'
        rw [hcons, List.cons.injEq] at hcons'
        exact hcons'.1 ▸ hno
      · exact fun hall => hall r rest hcons
  | storageClear => exact once_releaseAll h hp s.store.retryQueue
  | _ => exact iff_of_true hp trivial

/-- **Every forward is used once** in the states of a run exactly where no step uses that of an
answered request. -/
theorem used_once_iff (tables : StorageTable → Table (Stored Request)) (es : List Event) :
    (∀ es', es' <+: es → ∀ fwd, UsedOnce (run next (.init tables) es').calls fwd) ↔
      Along next Unanswered (.init tables) es := by
  simp only [usedOnce_iff]
  exact forall_prefix_iff (fun _ e h => h.next e) once_next_iff
    (Accounted.init tables) List.Pairwise.nil

end Steps

/-! ### A reply comes twice -/

section Sample

/-- The answer for a map without records. -/
def sampleData : MapInfoData := ⟨some (str "m"), none, 0, none, 0, none, none, none⟩

/-- A WANT_MAP_INFO is answered twice. -/
def sampleTwice : List Event :=
  [.getMapDetails 0 (str "m") true, .mapInfo sampleData 1 true, .deleteMsg, .runCallback,
    .mapInfo sampleData 1 true, .deleteMsg, .runCallback]

/-- The map changes after the callback ran and before the message is deleted. -/
def sampleMapChange : List Event :=
  [.getMapDetails 0 (str "m") true, .mapInfo sampleData 1 true, .runCallback, .storageClear,
    .deleteMsg]

/-- **A forward is executed after it was unregistered** where a reply comes twice, and unregistered
twice where the map changes before the message is deleted. -/
theorem forward_used_again : ¬ UsedOnce (run next (.init fun _ => .empty) sampleTwice).calls 0 ∧
    ¬ UsedOnce (run next (.init fun _ => .empty) sampleMapChange).calls 0 := by
  constructor
  · intro h
    have hle := h.executed
    revert hle
    decide
  · intro h
    have hle := h.unregistered
    revert hle
    decide

end Sample

end KzGlobal.Plugins.Once
