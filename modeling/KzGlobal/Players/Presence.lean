import KzGlobal.Lib.Runs
import KzGlobal.Players.Slots

/-! # Who the API takes for present

The API knows who plays on a server by the PLAYER_JOIN and PLAYER_LEAVE messages only. Read in the
order in which they are built, they name the human players on the server: in every state of a run,
exactly as long as no disconnect is announced under a Steam id that another player on the server has
(`present_iff`). Where the Steam ids of the players differ, the only disconnects that do so are
those of slots that still hold the Steam id of a player who left during an early map change
(`Cleared.announcesOwn`). -/

namespace KzGlobal.Players.Presence

open KzGlobal.Lib.Runs KzGlobal.Lib.Stdio KzGlobal.Krp.Format KzGlobal.Replay.Text
  KzGlobal.Players.Slots

/-! ### The messages -/

/-- PLAYER_JOIN and PLAYER_LEAVE, but for the address. -/
inductive Message
  | playerJoin (nickname steamid : Bytes)
  | playerLeave (steamid : Bytes)
  deriving DecidableEq

/-- `kz_ws_event_client_connect`. -/
def kzWsEventClientConnect (id : ℕ) (s : Server) : Message :=
  .playerJoin (s.players id).nickname.bytes (s.players id).steamid.bytes

/-- `kz_ws_event_client_disconnect` sends nothing for a slot without a player. -/
def kzWsEventClientDisconnect (id : ℕ) (s : Server) : Option Message :=
  if (s.players id).steamid.bytes = [] then none
  else some (.playerLeave (s.players id).steamid.bytes)

/-- The message that `FN_ClientPutInServer_Post` ends with, and the one that `KZ_SV_DropClient`
begins with. -/
def message (s : Server) : Event → Option Message
  | .putInServer id isBot authid name =>
    if isBot then none
    else some (kzWsEventClientConnect id (fnClientPutInServerPost id isBot authid name s))
  | .dropClient id => if (s.players id).isBot then none else kzWsEventClientDisconnect id s
  | _ => none

/-! ### Present players -/

/-- The Steam ids of the players that the API takes for present. -/
def receive (present : Finset Bytes) : Message → Finset Bytes
  | .playerJoin _ steamid => insert steamid present
  | .playerLeave steamid => present.erase steamid

/-- A human player in a slot. -/
def Human (s : Server) (id : ℕ) : Prop := s.connected id = true ∧ (s.players id).isBot = false

/-- The player of a slot. -/
def steamidIn (s : Server) (id : ℕ) : Bytes := (s.players id).steamid.bytes

/-- The API takes those for present who are. -/
def Present (ps : Finset Bytes × Server) : Prop :=
  ∀ a, a ∈ ps.1 ↔ ∃ id, Human ps.2 id ∧ steamidIn ps.2 id = a

/-- The server with what the API makes of its messages. -/
def track (dataDir : Bytes) (banAction : ℤ) :
    Finset Bytes × Server → Event → Finset Bytes × Server :=
  withGhost (next dataDir banAction) fun present s e => (message s e).elim present (receive present)

/-- What the engine promises: a player is put into a free slot, or again into the own slot after a
change of map; and a human player has a Steam id. -/
def Ruled (s : Server) : Event → Prop
  | .putInServer id isBot authid _ =>
    (isBot = false → (copyTo 34 authid).bytes ≠ []) ∧
    (s.connected id = true → (s.players id).isBot = isBot ∧
      (isBot = false → steamidIn s id = (copyTo 34 authid).bytes))
  | _ => True

/-- A disconnect that is announced is announced under a Steam id that nobody else has. -/
def AnnouncesOwn (s : Server) : Event → Prop
  | .dropClient id => (s.players id).isBot = false → steamidIn s id ≠ [] →
      ∀ j, j ≠ id → Human s j → steamidIn s j ≠ steamidIn s id
  | _ => True

/-- A player joins or leaves. -/
def Moves : Event → Prop
  | .putInServer .. => True
  | .dropClient _ => True
  | _ => False

/-- The human players have Steam ids. -/
def Named (s : Server) : Prop := ∀ id, Human s id → steamidIn s id ≠ []

/-! ### The slots after a step -/

section Step
variable {s : Server} {id : ℕ}

theorem players_update_of_ne {p : Player} {j : ℕ} (hne : j ≠ id) :
    (s.update id p).players j = s.players j := Function.update_of_ne hne ..

theorem players_update_self {p : Player} : (s.update id p).players id = p :=
  Function.update_self ..

theorem human_putInServer {isBot : Bool} {authid name : Bytes} {j : ℕ} :
    Human (fnClientPutInServerPost id isBot authid name s) j ↔
      if j = id then isBot = false else Human s j := by
  unfold Human
  rw [connected_putInServer]
  split_ifs with hj
  · subst hj
    rw [eq_self_iff_true, true_and]
    cases isBot <;> simp [fnClientPutInServerPost, Server.update]
  · simp [fnClientPutInServerPost, players_update_of_ne hj]

theorem steamidIn_putInServer_self {authid name : Bytes} :
    steamidIn (fnClientPutInServerPost id false authid name s) id = (copyTo 34 authid).bytes := by
  simp [steamidIn, fnClientPutInServerPost, players_update_self]

theorem steamidIn_putInServer_of_ne {isBot : Bool} {authid name : Bytes} {j : ℕ} (hj : j ≠ id) :
    steamidIn (fnClientPutInServerPost id isBot authid name s) j = steamidIn s j := by
  simp [steamidIn, fnClientPutInServerPost, players_update_of_ne hj]

theorem human_dropClient {j : ℕ} : Human (kzSvDropClient id s) j ↔ j ≠ id ∧ Human s j := by
  unfold Human kzSvDropClient
  rcases eq_or_ne j id with rfl | hj
  · dsimp only
    split_ifs <;> simp [Server.update]
  · dsimp only
    split_ifs <;> simp [Server.update, hj]

theorem steamidIn_dropClient_of_ne {j : ℕ} (hj : j ≠ id) :
    steamidIn (kzSvDropClient id s) j = steamidIn s j := by
  unfold steamidIn kzSvDropClient
  dsimp only
  split_ifs
  · rfl
  · rw [players_update_of_ne hj]

theorem slots_of_other (dataDir : Bytes) (banAction : ℤ) {e : Event} (he : ¬ Moves e) (j : ℕ) :
    (next dataDir banAction s e).connected j = s.connected j ∧
      ((next dataDir banAction s e).players j).isBot = (s.players j).isBot ∧
      steamidIn (next dataDir banAction s e) j = steamidIn s j := by
  unfold steamidIn
  cases e with
  | putInServer id isBot authid name => exact absurd trivial he
  | dropClient id => exact absurd trivial he
  | playerJoinAck engine isBanned steamid =>
    dsimp only [next, onPlayerJoinAck]
    split
    · rename_i id _
      rcases eq_or_ne j id with rfl | hj
      · rw [players_update_self]
        exact ⟨rfl, rfl, rfl⟩
      · rw [players_update_of_ne hj]
        exact ⟨rfl, rfl, rfl⟩
    · exact ⟨rfl, rfl, rfl⟩
  | native id allowPause n =>
    dsimp only [next, onNative]
    split <;> exact ⟨rfl, rfl, rfl⟩
  | process env =>
    dsimp only [next, onProcess]
    split <;> exact ⟨rfl, rfl, rfl⟩
  | earlyMapchange => exact ⟨rfl, rfl, rfl⟩
  | mapLoaded => exact ⟨rfl, rfl, rfl⟩
  | files disk => exact ⟨rfl, rfl, rfl⟩

theorem human_of_other (dataDir : Bytes) (banAction : ℤ) {e : Event} (he : ¬ Moves e) (j : ℕ) :
    Human (next dataDir banAction s e) j ↔ Human s j := by
  obtain ⟨hc, hb, -⟩ := slots_of_other (s := s) dataDir banAction he j
  rw [Human, hc, hb, Human]

theorem Named.next (h : Named s) {e : Event} (hR : Ruled s e) (dataDir : Bytes) (banAction : ℤ) :
    Named (next dataDir banAction s e) := by
  intro j hj
  by_cases hm : Moves e
  · cases e with
    | putInServer id isBot authid name =>
      dsimp only [Slots.next] at hj ⊢
      rw [human_putInServer] at hj
      split_ifs at hj with hji
      · subst hji hj
        rw [steamidIn_putInServer_self]
        exact hR.1 rfl
      · rw [steamidIn_putInServer_of_ne hji]
        exact h j hj
    | dropClient id =>
      obtain ⟨hji, hj⟩ := human_dropClient.mp hj
      rw [Slots.next, steamidIn_dropClient_of_ne hji]
      exact h j hj
    | _ => exact False.elim hm
  · rw [(slots_of_other dataDir banAction hm j).2.2]
    exact h j ((human_of_other dataDir banAction hm j).mp hj)

/-! ### The API's view after a step -/

variable {present : Finset Bytes}

/-- A player who joins is present, whether new or back after a change of map. -/
theorem Present.join (h : Present (present, s)) {authid name : Bytes}
    (hback : Human s id → steamidIn s id = (copyTo 34 authid).bytes) :
    Present (insert (copyTo 34 authid).bytes present,
      fnClientPutInServerPost id false authid name s) := by
  intro a
  rw [Finset.mem_insert, h a]
  constructor
  · rintro (rfl | ⟨j, hj, rfl⟩)
    · exact ⟨id, human_putInServer.mpr (by rw [if_pos rfl]), steamidIn_putInServer_self⟩
    · rcases eq_or_ne j id with rfl | hji
      · refine ⟨j, human_putInServer.mpr (by rw [if_pos rfl]), ?_⟩
        rw [steamidIn_putInServer_self]
        exact (hback hj).symm
      · exact ⟨j, human_putInServer.mpr (by rwa [if_neg hji]), steamidIn_putInServer_of_ne hji⟩
  · rintro ⟨j, hj, rfl⟩
    rcases eq_or_ne j id with rfl | hji
    · exact Or.inl steamidIn_putInServer_self
    · rw [human_putInServer, if_neg hji] at hj
      exact Or.inr ⟨j, hj, (steamidIn_putInServer_of_ne hji).symm⟩

theorem Present.bot (h : Present (present, s)) {authid name : Bytes} (hfree : ¬ Human s id) :
    Present (present, fnClientPutInServerPost id true authid name s) := by
  intro a
  rw [h a]
  refine exists_congr fun j => ?_
  rcases eq_or_ne j id with rfl | hji
  · rw [human_putInServer, if_pos rfl]
    exact iff_of_false (fun hj => hfree hj.1) fun hj => Bool.noConfusion hj.1
  · rw [human_putInServer, if_neg hji, steamidIn_putInServer_of_ne hji]

theorem Present.unannounced (h : Present (present, s)) (hfree : ¬ Human s id) :
    Present (present, kzSvDropClient id s) := by
  intro a
  rw [h a]
  refine exists_congr fun j => ?_
  rcases eq_or_ne j id with rfl | hji
  · rw [human_dropClient]
    exact iff_of_false (fun hj => hfree hj.1) fun hj => hj.1.1 rfl
  · rw [human_dropClient, steamidIn_dropClient_of_ne hji]
    exact and_congr_left fun _ => (and_iff_right hji).symm

/-- **A disconnect that is announced** takes away one Steam id: that of nobody else. -/
theorem Present.announced (h : Present (present, s)) :
    Present (present.erase (steamidIn s id), kzSvDropClient id s) ↔
      ∀ j, j ≠ id → Human s j → steamidIn s j ≠ steamidIn s id := by
  constructor
  · intro h' j hji hj heq
    have hin := (h' (steamidIn s id)).mpr
      ⟨j, human_dropClient.mpr ⟨hji, hj⟩, (steamidIn_dropClient_of_ne hji).trans heq⟩
    exact (Finset.mem_erase.mp hin).1 rfl
  · intro hown a
    rw [Finset.mem_erase, h a]
    constructor
    · rintro ⟨hne, j, hj, rfl⟩
      have hji : j ≠ id := fun hji => hne (hji ▸ rfl)
      exact ⟨j, human_dropClient.mpr ⟨hji, hj⟩, steamidIn_dropClient_of_ne hji⟩
    · rintro ⟨j, hj, rfl⟩
      obtain ⟨hji, hj⟩ := human_dropClient.mp hj
      rw [steamidIn_dropClient_of_ne hji]
      exact ⟨hown j hji hj, j, hj, rfl⟩

theorem Present.other (h : Present (present, s)) {dataDir : Bytes} {banAction : ℤ} {e : Event}
    (he : ¬ Moves e) (hmsg : message s e = none) :
    Present (track dataDir banAction (present, s) e) := by
  intro a
  rw [track, withGhost, hmsg]
  refine (h a).trans (exists_congr fun j => ?_)
  rw [human_of_other dataDir banAction he j, (slots_of_other dataDir banAction he j).2.2]

/-- **One step.** -/
theorem Present.step (h : Present (present, s)) (hn : Named s) {e : Event} (hR : Ruled s e)
    (dataDir : Bytes) (banAction : ℤ) :
    Present (track dataDir banAction (present, s) e) ↔ AnnouncesOwn s e := by
  cases e with
  | putInServer id isBot authid name =>
    refine iff_of_true ?_ trivial
    obtain ⟨-, hsame⟩ := hR
    cases isBot with
    | false =>
      have hmsg : message s (.putInServer id false authid name) =
          some (.playerJoin (copyTo 31 name).bytes (copyTo 34 authid).bytes) := by
        simp [message, kzWsEventClientConnect, fnClientPutInServerPost, players_update_self]
      rw [track, withGhost, hmsg]
      exact h.join fun hj => (hsame hj.1).2 rfl
    | true =>
      have hfree : ¬ Human s id := fun hj =>
        absurd ((hsame hj.1).1.symm.trans hj.2) (by decide)
      exact h.bot hfree
  | dropClient id =>
    cases hb : (s.players id).isBot with
    | true =>
      have hmsg : message s (.dropClient id) = none := by rw [message, hb, if_pos rfl]
      have hfree : ¬ Human s id := fun hj => absurd (hb.symm.trans hj.2) (by decide)
      refine iff_of_true ?_ fun hb' => absurd (hb.symm.trans hb') (by decide)
      rw [track, withGhost, hmsg]
      exact h.unannounced hfree
    | false =>
      by_cases hempty : steamidIn s id = []
      · have hmsg : message s (.dropClient id) = none := by
          rw [message, hb, if_neg (by decide), kzWsEventClientDisconnect]
          exact if_pos hempty
        refine iff_of_true ?_ fun _ hne => absurd hempty hne
        rw [track, withGhost, hmsg]
        exact h.unannounced fun hj => hn id hj hempty
      · have hmsg : message s (.dropClient id) = some (.playerLeave (steamidIn s id)) := by
          rw [message, hb, if_neg (by decide), kzWsEventClientDisconnect]
          exact if_neg hempty
        rw [track, withGhost, hmsg]
        refine h.announced.trans ⟨fun hown _ _ => hown, fun hown => hown hb hempty⟩
  | _ => exact iff_of_true (h.other (fun hm => hm) rfl) trivial

end Step

/-! ### Left Steam ids -/

/-- Players have different Steam ids, and no player leaves during an early map change. -/
def Orderly (s : Server) : Event → Prop
  | .putInServer id isBot authid _ =>
    isBot = false → ∀ j, j ≠ id → Human s j → steamidIn s j ≠ (copyTo 34 authid).bytes
  | .dropClient id => Human s id → s.gEarlyMapchange = false
  | _ => True

/-- Slots that no player is in hold no Steam id, unless a bot was in them last. -/
structure Cleared (s : Server) : Prop where
  empty : ∀ id, ¬ Human s id → (s.players id).isBot = false → steamidIn s id = []
  distinct : ∀ i j, i ≠ j → Human s i → Human s j → steamidIn s i ≠ steamidIn s j

/-! ### Who leaves orderly -/

section Orderly
variable {s : Server}

theorem cleared_init (disk : Disk Bytes UInt8) : Cleared (.init disk) where
  empty _ _ _ := rfl
  distinct _ _ _ hi := Bool.noConfusion hi.1

theorem Cleared.dropClient (h : Cleared s) {id : ℕ}
    (hearly : Human s id → s.gEarlyMapchange = false) :
    Cleared (kzSvDropClient id s) where
  empty j hj hb := by
    rcases eq_or_ne j id with rfl | hji
    · by_cases hkeep : (s.players j).isBot = true ∨ s.gEarlyMapchange = true
      · have hplayers : (kzSvDropClient j s).players = s.players := by
          unfold kzSvDropClient
          dsimp only
          rw [if_pos hkeep]
        rw [hplayers] at hb
        rw [steamidIn, hplayers]
        refine h.empty j (fun hh => ?_) hb
        rw [hb, hearly hh] at hkeep
        exact absurd hkeep (by decide)
      · have hempty : (kzSvDropClient j s).players j = .empty := by
          unfold kzSvDropClient
          dsimp only
          rw [if_neg hkeep]
          exact players_update_self
        rw [steamidIn, hempty]
        rfl
    · rw [human_dropClient, not_and] at hj
      have hplayers : (kzSvDropClient id s).players j = s.players j := by
        unfold kzSvDropClient
        dsimp only
        split_ifs
        · rfl
        · exact players_update_of_ne hji
      rw [hplayers] at hb
      rw [steamidIn_dropClient_of_ne hji]
      exact h.empty j (hj hji) hb
  distinct i j hij hi hj := by
    obtain ⟨hii, hi⟩ := human_dropClient.mp hi
    obtain ⟨hji, hj⟩ := human_dropClient.mp hj
    rw [steamidIn_dropClient_of_ne hii, steamidIn_dropClient_of_ne hji]
    exact h.distinct i j hij hi hj

theorem Cleared.putInServer (h : Cleared s) {id : ℕ} {isBot : Bool} {authid name : Bytes}
    (hother : isBot = false → ∀ j, j ≠ id → Human s j → steamidIn s j ≠ (copyTo 34 authid).bytes) :
    Cleared (fnClientPutInServerPost id isBot authid name s) where
  empty j hj hb := by
    rw [human_putInServer] at hj
    rcases eq_or_ne j id with rfl | hji
    · rw [if_pos rfl] at hj
      cases isBot with
      | false => exact absurd rfl hj
      | true => simp [fnClientPutInServerPost, players_update_self] at hb
    · rw [if_neg hji] at hj
      rw [steamidIn_putInServer_of_ne hji]
      refine h.empty j hj ?_
      simpa [fnClientPutInServerPost, players_update_of_ne hji] using hb
  distinct i j hij hi hj := by
    rw [human_putInServer] at hi hj
    rcases eq_or_ne i id with rfl | hii
    · rw [if_pos rfl] at hi
      rw [if_neg hij.symm] at hj
      subst hi
      rw [steamidIn_putInServer_self, steamidIn_putInServer_of_ne hij.symm]
      exact (hother rfl j hij.symm hj).symm
    · rw [if_neg hii] at hi
      rw [steamidIn_putInServer_of_ne hii]
      rcases eq_or_ne j id with rfl | hji
      · rw [if_pos rfl] at hj
        subst hj
        rw [steamidIn_putInServer_self]
        exact hother rfl i hii hi
      · rw [if_neg hji] at hj
        rw [steamidIn_putInServer_of_ne hji]
        exact h.distinct i j hij hi hj

theorem Cleared.next (h : Cleared s) {e : Event} (hO : Orderly s e) (dataDir : Bytes)
    (banAction : ℤ) : Cleared (next dataDir banAction s e) := by
  by_cases hm : Moves e
  · cases e with
    | putInServer id isBot authid name => exact h.putInServer hO
    | dropClient id => exact h.dropClient hO
    | _ => exact False.elim hm
  · have hslot := slots_of_other (s := s) dataDir banAction hm
    refine ⟨fun j hj hb => ?_, fun i j hij hi hj => ?_⟩
    · rw [human_of_other dataDir banAction hm] at hj
      rw [(hslot j).2.1] at hb
      rw [(hslot j).2.2]
      exact h.empty j hj hb
    · rw [human_of_other dataDir banAction hm] at hi hj
      rw [(hslot i).2.2, (hslot j).2.2]
      exact h.distinct i j hij hi hj

theorem Cleared.announcesOwn (h : Cleared s) (e : Event) : AnnouncesOwn s e := by
  cases e with
  | dropClient id =>
    intro hb hne j hji hj
    by_cases hhuman : Human s id
    · exact h.distinct j id hji hj hhuman
    · exact absurd (h.empty id hhuman hb) hne
  | _ => trivial

end Orderly

/-! ### Runs -/

/-- **The API knows who plays**, in every state of a run, exactly as long as every disconnect that
is announced is announced under a Steam id that nobody else has; and that is so where players have
different Steam ids and none leaves during an early map change. -/
theorem present_iff (dataDir : Bytes) (banAction : ℤ) (disk : Disk Bytes UInt8) {es : List Event}
    (hR : Along (next dataDir banAction) Ruled (.init disk) es) :
    ((∀ es', es' <+: es → Present (run (track dataDir banAction) (∅, .init disk) es')) ↔
      Along (next dataDir banAction) AnnouncesOwn (.init disk) es) ∧
    (Along (next dataDir banAction) Orderly (.init disk) es →
      Along (next dataDir banAction) AnnouncesOwn (.init disk) es) := by
  have hinit : Present (∅, .init disk) := fun a =>
    iff_of_false (Finset.notMem_empty a) fun ⟨_, hj, _⟩ => Bool.noConfusion hj.1
  have hrules : Along (track dataDir banAction) (fun ps e => Ruled ps.2 e) (∅, .init disk) es :=
    along_withGhost.mpr hR
  have hghost : Along (track dataDir banAction) (fun ps e => AnnouncesOwn ps.2 e)
      (∅, .init disk) es ↔ Along (next dataDir banAction) AnnouncesOwn (.init disk) es :=
    along_withGhost
  constructor
  · rw [← hghost]
    refine forall_prefix_iff_along (J := fun ps : Finset Bytes × Server => Named ps.2) ?_ ?_
      hrules (fun _ hj => Bool.noConfusion hj.1) hinit
    · exact fun ps e hR h => h.next hR dataDir banAction
    · exact fun ps e hR hn h => Present.step h hn hR dataDir banAction
  · intro hO
    exact hO.imp_of_invariant (fun s e h hO => h.next hO dataDir banAction)
      (fun s e h _ => h.announcesOwn e) (cleared_init disk)

/-! ### A player who is taken for absent -/

section Sample

/-- A player leaves during an early map change and is back in another slot; in the old one, somebody
leaves before the game begins. -/
def sampleLeft : List Event :=
  [.putInServer 1 false (str "STEAM_0:1:23") (str "kz"), .earlyMapchange, .dropClient 1, .mapLoaded,
    .putInServer 2 false (str "STEAM_0:1:23") (str "kz"), .dropClient 1]

theorem sampleLeft_ruled : Along (next (str "d") 0) Ruled (.init fun _ => none) sampleLeft :=
  ⟨⟨fun _ => by decide, fun h => Bool.noConfusion h⟩, trivial, trivial, trivial,
    ⟨fun _ => by decide, fun h => Bool.noConfusion h⟩, trivial, trivial⟩

theorem present_iff_sample :
    ¬ ∀ es', es' <+: sampleLeft →
      Present (run (track (str "d") 0) (∅, .init fun _ => none) es') := by
  rw [(present_iff (str "d") 0 (fun _ => none) sampleLeft_ruled).1]
  rintro ⟨-, -, -, -, -, hown, -⟩
  exact hown rfl (by decide) 2 (by decide) ⟨rfl, rfl⟩ rfl

end Sample

end KzGlobal.Players.Presence
