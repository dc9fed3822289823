import KzGlobal.Connection.Socket

/-! # The enforced cvars

The engine sets a cvar through `KZ_Cvar_DirectSet`, which sets a listed cvar back by a call that
comes through itself. The call ends where the values agree, so it never gets deeper than two
(`kzCvarDirectSet_of_ne`). It is left early where the new value is the one the cvar has, so a cvar
that starts with another value than the enforced one keeps it when it is set to it again
(`enforced_iff`). -/

namespace KzGlobal.Connection.Cvars

open KzGlobal.Lib.Runs KzGlobal.Krp.Format KzGlobal.Replay.Text KzGlobal.Connection.Socket

/-! ### The list -/

/-- `pr_cvar_t`. -/
structure PrCvar where
  name : Bytes
  expectedValue : Bytes
  deriving DecidableEq

/-- `g_server_cvars`: the names and the expected values. -/
def gServerCvars : List PrCvar :=
  [⟨str "edgefriction", str "2"⟩,
    ⟨str "sv_gravity", str "800"⟩,
    ⟨str "sv_stopspeed", str "75"⟩,
    ⟨str "sv_maxspeed", str "320"⟩,
    ⟨str "sv_accelerate", str "5"⟩,
    ⟨str "sv_airaccelerate", str "10"⟩,
    ⟨str "sv_wateraccelerate", str "10"⟩,
    ⟨str "sv_friction", str "4"⟩,
    ⟨str "sv_waterfriction", str "1"⟩,
    ⟨str "sv_stepsize", str "18"⟩,
    ⟨str "sv_maxvelocity", str "2000"⟩,
    ⟨str "sv_cheats", str "0"⟩,
    ⟨str "mp_footsteps", str "1"⟩,
    ⟨str "sys_ticrate", str "128"⟩,
    ⟨str "sv_maxrate", str "100000"⟩,
    ⟨str "sv_minrate", str "0"⟩,
    ⟨str "sv_maxupdaterate", str "102"⟩,
    ⟨str "sv_minupdaterate", str "10"⟩]

/-- The cvar that holds the address. -/
def kzApiUrl : Bytes := str "kz_api_url"

/-- The cvar that holds the token. -/
def kzApiToken : Bytes := str "kz_api_token"

theorem nodup_gServerCvars : (gServerCvars.map PrCvar.name).Nodup := by decide +kernel

theorem expectedValue_unique {c c' : PrCvar} (h : c ∈ gServerCvars) (h' : c' ∈ gServerCvars)
    (hname : c.name = c'.name) : c = c' :=
  List.inj_on_of_nodup_map nodup_gServerCvars h h' hname

/-! ### The hook -/

/-- The strings of the cvars, by name. -/
abbrev Strings := Bytes → Bytes

/-- What a call leaves: the strings, the steps of a reconnect, and how deep it got. -/
structure Outcome where
  strings : Strings
  steps : List MainStep
  depth : ℕ

/-- The end of `KZ_Cvar_DirectSet`: a new url or token starts the connection again. -/
def reconnectSteps (st : WSState) (name : Bytes) (strings : Strings) : List MainStep :=
  if name ≠ kzApiUrl ∧ name ≠ kzApiToken then []
  else settingsChanged st (strings kzApiUrl) (strings kzApiToken)

section Hook
variable (actual : Strings → Option Bytes → Option Bytes → Strings) (st : WSState)

/-- `KZ_Cvar_DirectSet` and the calls it causes, `n` deep at most, over what the engine does for the
call. -/
def kzCvarDirectSet : ℕ → Strings → Option Bytes → Option Bytes → Option Outcome
  | 0, _, _, _ => none
  | n + 1, strings, some name, some value =>
    if strings name = value then some ⟨actual strings (some name) (some value), [], 1⟩
    else
      let strings := actual strings (some name) (some value)
      match gServerCvars.find? fun c => name = c.name ∧ value ≠ c.expectedValue with
      | some c =>
        (kzCvarDirectSet n strings (some name) (some c.expectedValue)).map fun r =>
          { r with depth := r.depth + 1 }
      | none => some ⟨strings, reconnectSteps st name strings, 1⟩
  | _ + 1, strings, var, value => some ⟨actual strings var value, [], 1⟩

variable {actual st} {n : ℕ} {strings : Strings}

theorem kzCvarDirectSet_null {var value : Option Bytes} (h : var = none ∨ value = none) :
    kzCvarDirectSet actual st (n + 1) strings var value =
      some ⟨actual strings var value, [], 1⟩ := by
  rcases h with rfl | rfl
  · cases value <;> rfl
  · cases var <;> rfl

/-- **The early exit.** -/
theorem kzCvarDirectSet_same {name value : Bytes} (h : strings name = value) :
    kzCvarDirectSet actual st (n + 1) strings (some name) (some value) =
      some ⟨actual strings (some name) (some value), [], 1⟩ := by
  rw [kzCvarDirectSet, if_pos h]

theorem kzCvarDirectSet_legal {name value : Bytes} (h : strings name ≠ value)
    (hlist : ∀ c ∈ gServerCvars, name = c.name → value = c.expectedValue) :
    kzCvarDirectSet actual st (n + 1) strings (some name) (some value) =
      some ⟨actual strings (some name) (some value),
        reconnectSteps st name (actual strings (some name) (some value)), 1⟩ := by
  have hfind : (gServerCvars.find? fun c => name = c.name ∧ value ≠ c.expectedValue) = none :=
    List.find?_eq_none.mpr fun c hc => by
      simpa using hlist c hc
  rw [kzCvarDirectSet, if_neg h, hfind]

/-- **A call that is set back**, by one call more. -/
theorem kzCvarDirectSet_of_ne {c : PrCvar} (hc : c ∈ gServerCvars) {value : Bytes}
    (h : strings c.name ≠ value) (hvalue : value ≠ c.expectedValue) :
    kzCvarDirectSet actual st (n + 1) strings (some c.name) (some value) =
      (kzCvarDirectSet actual st n (actual strings (some c.name) (some value)) (some c.name)
        (some c.expectedValue)).map fun r => { r with depth := r.depth + 1 } := by
  have hfind : (gServerCvars.find? fun c' => c.name = c'.name ∧ value ≠ c'.expectedValue) =
      some c := by
    have hsome : (gServerCvars.find? fun c' => c.name = c'.name ∧
        value ≠ c'.expectedValue).isSome := List.find?_isSome.mpr ⟨c, hc, by simpa using hvalue⟩
    obtain ⟨c', hc'⟩ := Option.isSome_iff_exists.mp hsome
    have hname := List.find?_some hc'
    rw [decide_eq_true_iff] at hname
    rw [hc', expectedValue_unique hc (List.mem_of_find?_eq_some hc') hname.1]
  rw [kzCvarDirectSet, if_neg h, hfind]

end Hook

/-! ### Runs -/

/-- An outermost call, and the state of the connection it finds. -/
structure Call where
  var : Option Bytes
  value : Option Bytes
  websocketState : WSState

section Runs
variable (actual : Strings → Option Bytes → Option Bytes → Strings)

/-- The strings after a call; two calls deep is enough. -/
def next (strings : Strings) (call : Call) : Strings :=
  ((kzCvarDirectSet actual call.websocketState 2 strings call.var call.value).map
    Outcome.strings).getD strings

/-- **The call returns**, from no deeper than two calls, and a listed cvar it set has the enforced
value. -/
def Enforced (strings : Strings) (call : Call) : Prop :=
  ∃ r, (∀ n, kzCvarDirectSet actual call.websocketState (n + 2) strings call.var call.value =
      some r) ∧ r.depth ≤ 2 ∧
    ∀ c ∈ gServerCvars, call.var = some c.name → call.value ≠ none →
      r.strings c.name = c.expectedValue

/-- **The call that is enforced** sets a listed cvar to the enforced value, or to another one than
it has. -/
def NotKept (strings : Strings) (call : Call) : Prop :=
  ∀ c ∈ gServerCvars, ∀ value, call.var = some c.name → call.value = some value →
    value = c.expectedValue ∨ value ≠ strings c.name

variable {actual} {strings : Strings} {call : Call}

theorem enforced_of_eq {r : Outcome} (hr : ∀ n, kzCvarDirectSet actual call.websocketState (n + 2)
      strings call.var call.value = some r) (hdepth : r.depth ≤ 2) :
    Enforced actual strings call ↔ ∀ c ∈ gServerCvars, call.var = some c.name →
      call.value ≠ none → r.strings c.name = c.expectedValue := by
  constructor
  · rintro ⟨r', hr', -, hset⟩
    obtain rfl := Option.some.inj ((hr 0).symm.trans (hr' 0))
    exact hset
  · exact fun hset => ⟨r, hr, hdepth, hset⟩

theorem enforced_of_unlisted (h : ∀ c ∈ gServerCvars, call.var = some c.name → call.value = none) :
    Enforced actual strings call := by
  obtain ⟨var, value, st⟩ := call
  suffices hr : ∃ r : Outcome, (∀ n, kzCvarDirectSet actual st (n + 2) strings var value = some r) ∧
      r.depth ≤ 2 by
    obtain ⟨r, hr, hdepth⟩ := hr
    exact (enforced_of_eq hr hdepth).mpr fun c hc hvar hvalue => absurd (h c hc hvar) hvalue
  by_cases hnull : var = none ∨ value = none
  · exact ⟨_, fun n => kzCvarDirectSet_null hnull, one_le_two⟩
  · obtain ⟨hvar, hvalue⟩ := not_or.mp hnull
    obtain ⟨name, rfl⟩ := Option.ne_none_iff_exists'.mp hvar
    obtain ⟨v, rfl⟩ := Option.ne_none_iff_exists'.mp hvalue
    by_cases hsame : strings name = v
    · exact ⟨_, fun n => kzCvarDirectSet_same hsame, one_le_two⟩
    · refine ⟨_, fun n => kzCvarDirectSet_legal hsame fun c hc hname => ?_, one_le_two⟩
      exact absurd (h c hc (congrArg some hname)) hvalue

/-- **A call for a listed cvar.** -/
theorem enforced_listed_iff (hactual : ∀ strings, ∀ c ∈ gServerCvars, ∀ value,
      actual strings (some c.name) (some value) c.name = value) {c : PrCvar}
    (hc : c ∈ gServerCvars) (v : Bytes) (st : WSState) :
    Enforced actual strings ⟨some c.name, some v, st⟩ ↔
      v = c.expectedValue ∨ v ≠ strings c.name := by
  -- what is set decides for this cvar, and the list has no other of its name
  have hset {r : Outcome} (hr : ∀ n, kzCvarDirectSet actual st (n + 2) strings (some c.name)
      (some v) = some r) (hdepth : r.depth ≤ 2) :
      Enforced actual strings ⟨some c.name, some v, st⟩ ↔ r.strings c.name = c.expectedValue := by
    refine (enforced_of_eq hr hdepth).trans ⟨fun h => h c hc rfl (Option.some_ne_none v), ?_⟩
    rintro h c' hc' hname -
    obtain rfl := expectedValue_unique hc hc' (Option.some.inj hname)
    exact h
  have hlegal : ∀ c' ∈ gServerCvars, c.name = c'.name → c.expectedValue = c'.expectedValue :=
    fun c' hc' hname => congrArg PrCvar.expectedValue (expectedValue_unique hc hc' hname)
  by_cases hsame : strings c.name = v
  · -- the early exit
    rw [hset (fun n => kzCvarDirectSet_same hsame) one_le_two]
    dsimp only
    rw [hactual strings c hc, or_iff_left (not_not.mpr hsame.symm)]
  · refine iff_of_true ?_ (Or.inr (Ne.symm hsame))
    by_cases hexp : v = c.expectedValue
    · subst hexp
      exact (hset (fun n => kzCvarDirectSet_legal hsame hlegal) one_le_two).mpr
        (hactual strings c hc _)
    · have hback : actual strings (some c.name) (some v) c.name ≠ c.expectedValue := by
        rwa [hactual strings c hc]
      have hr : ∀ n, kzCvarDirectSet actual st (n + 2) strings (some c.name) (some v) = some
          ⟨actual (actual strings (some c.name) (some v)) (some c.name) (some c.expectedValue),
            reconnectSteps st c.name (actual (actual strings (some c.name) (some v)) (some c.name)
              (some c.expectedValue)), 2⟩ := fun n => by
        rw [kzCvarDirectSet_of_ne hc hsame hexp, kzCvarDirectSet_legal hback hlegal,
          Option.map_some]
      exact (hset hr le_rfl).mpr (hactual _ c hc _)

/-- **The step.** -/
theorem enforced_iff_notKept (hactual : ∀ strings, ∀ c ∈ gServerCvars, ∀ value,
      actual strings (some c.name) (some value) c.name = value) (strings : Strings) (call : Call) :
    Enforced actual strings call ↔ NotKept strings call := by
  by_cases hlisted : ∃ c ∈ gServerCvars, ∃ v, call.var = some c.name ∧ call.value = some v
  · obtain ⟨var, value, st⟩ := call
    obtain ⟨c, hc, v, rfl, rfl⟩ := hlisted
    refine (enforced_listed_iff hactual hc v st).trans ⟨fun h c' hc' v' hname hv => ?_, fun h => ?_⟩
    · obtain rfl := expectedValue_unique hc hc' (Option.some.inj hname)
      obtain rfl := Option.some.inj hv
      exact h
    · exact h c hc v rfl rfl
  · refine iff_of_true (enforced_of_unlisted fun c hc hvar => ?_) fun c hc v hvar hvalue => ?_
    · exact Option.eq_none_iff_forall_ne_some.mpr fun v hv => hlisted ⟨c, hc, v, hvar, hv⟩
    · exact absurd ⟨c, hc, v, hvar, hvalue⟩ hlisted

/-- **Every enforced cvar ends at its enforced value**, in every run, exactly as far as no call sets
one to a value it has that is not the enforced one. -/
theorem enforced_iff (hactual : ∀ strings, ∀ c ∈ gServerCvars, ∀ value,
      actual strings (some c.name) (some value) c.name = value) (strings : Strings)
    (calls : List Call) :
    Along (next actual) (Enforced actual) strings calls ↔
      Along (next actual) NotKept strings calls :=
  along_congr (enforced_iff_notKept hactual)

end Runs

/-- The engine, for cvars without restrictions: it stores the value. -/
def storeString (strings : Strings) : Option Bytes → Option Bytes → Strings
  | some name, some value => Function.update strings name value
  | _, _ => strings

/-- A server whose gravity is low when the hook is set. -/
def lowGravity : Strings := Function.update (fun _ => []) (str "sv_gravity") (str "100")

/-- A call that sets `sv_gravity`, while connected. -/
def setGravity (value : String) : Call := ⟨some (str "sv_gravity"), some (str value), .connected⟩

theorem enforced_sample : Along (next storeString) (Enforced storeString) lowGravity
    [setGravity "200"] := by
  refine (enforced_iff (fun _ _ _ _ => Function.update_self ..) lowGravity _).mpr ⟨?_, trivial⟩
  intro c hc v hvar hvalue
  refine Or.inr ?_
  rw [← Option.some.inj hvar, ← Option.some.inj hvalue]
  decide +kernel

/-- **The gravity that is set again stays.** -/
theorem gravity_kept : ¬ Along (next storeString) (Enforced storeString) lowGravity
    [setGravity "100"] := by
  rintro ⟨⟨r, hr, -, hset⟩, -⟩
  have hgravity := hset ⟨str "sv_gravity", str "800"⟩ (by decide +kernel) rfl (by decide)
  have hr0 := (hr 0).symm.trans (kzCvarDirectSet_same (by decide +kernel))
  rw [Option.some.inj hr0] at hgravity
  exact absurd hgravity (by decide +kernel)

end KzGlobal.Connection.Cvars
