import KzGlobal.Replay.Writer
import KzGlobal.Fetch.Reply

/-! # Players, bans and the queue of the writer

The entries of `g_players`, which belong to slots: a player who joins is written into a slot, the
reply to PLAYER_JOIN sets the ban flag of the slot, and the disconnect clears it, but for an early
map change. The run natives queue signals for the writer thread, which reads the flag of the slot
when it gets to a signal. The engine's view of the players comes with the events that ask for it. -/

namespace KzGlobal.Players.Slots

open KzGlobal.Lib.Stdio KzGlobal.Krp.Format KzGlobal.Replay.Text KzGlobal.Replay.Writer
  KzGlobal.Fetch.Reply

/-! ### Steam ids -/

/-- `snprintf` into a buffer of `n + 1` bytes. -/
def copyTo (n : ℕ) (s : Bytes) : CString (n + 1) where
  bytes := (cstr s).take n
  fits := by
    rw [List.length_take]
    omega
  no_nul h := by
    have := List.mem_takeWhile_imp (List.mem_of_mem_take h)
    simp at this

/-- `remove_substring`: the first occurrence goes. -/
def removeSubstring (what : Bytes) : Bytes → Bytes
  | [] => []
  | c :: text =>
    if what ≠ [] ∧ what <+: c :: text then (c :: text).drop what.length
      else c :: removeSubstring what text

/-- `%d` of a slot. -/
def decimalOf (id : ℕ) : Bytes := digits 10 10 id []

/-- `steamid_short` of the player in slot `id`. -/
def steamidShortOf (id : ℕ) (authid : Bytes) : CString 35 :=
  let short := removeSubstring (str ":") (removeSubstring (str ":")
    (removeSubstring (str "STEAM_") (copyTo 34 authid).bytes))
  copyTo 34 (if kzWsValidReplaySegment short then short else str "p" ++ decimalOf id)

/-! ### The server -/

/-- `player_t`, but for the address. -/
structure Player where
  nickname : CString 32
  steamid : CString 35
  steamidShort : CString 35
  isBot : Bool
  noSubmit : Bool

/-- A slot of `g_players` at the start. -/
def Player.empty : Player := ⟨copyTo 31 [], copyTo 34 [], copyTo 34 [], false, false⟩

/-- The slots, which of them hold a player, and what the writer thread works on. -/
structure Server where
  players : ℕ → Player
  connected : ℕ → Bool
  gEarlyMapchange : Bool
  writerQueue : List (ℕ × Signal)
  entries : ℕ → Entries
  disk : Disk Bytes UInt8

/-- No player is on the server. -/
def Server.init (disk : Disk Bytes UInt8) : Server where
  players _ := .empty
  connected _ := false
  gEarlyMapchange := false
  writerQueue := []
  entries _ := .init
  disk := disk

/-- The capacity of the queue of the writer. -/
def writerQueueSize : ℕ := 4096

/-- Changes the player in a slot. -/
def Server.update (s : Server) (id : ℕ) (p : Player) : Server :=
  { s with players := Function.update s.players id p }

/-! ### Joining and leaving -/

/-- `FN_ClientPutInServer_Post`: the texts of a bot's slot stay as they were. -/
def fnClientPutInServerPost (id : ℕ) (isBot : Bool) (authid name : Bytes) (s : Server) : Server :=
  let p := { s.players id with isBot := isBot }
  let p := if isBot then p else
    { p with
      nickname := copyTo 31 name
      steamid := copyTo 34 authid
      steamidShort := steamidShortOf id authid }
  { s.update id p with connected := Function.update s.connected id true }

/-- The message of the disconnect is left out. -/
def kzSvDropClient (id : ℕ) (s : Server) : Server :=
  let s := { s with connected := Function.update s.connected id false }
  if (s.players id).isBot ∨ s.gEarlyMapchange then s else s.update id .empty

/-! ### PLAYER_JOIN -/

/-- A field that should be a boolean. -/
inductive BoolField
  | missing
  | other
  | bool (b : Bool)
  deriving DecidableEq

/-- `json_object_dotget_boolean(..) != 0`, which is -1 for what is no boolean. -/
def BoolField.nonzero (f : BoolField) : Bool := f ≠ .bool false

/-- The account and the ban that the callback of the reply gets. -/
def kzWsAckPlayerJoin (isBanned : BoolField) (steamid : Field) : Option (Bytes × Bool) :=
  if isBanned = .missing ∨ steamid = .missing then none
  else
    match steamid.string? with
    | none => none
    | some s => if s = [] then none else some (s.take 34, isBanned.nonzero)

/-- The account of the human player in each slot, as the engine knows it. -/
structure Engine where
  maxClients : ℕ
  authid : ℕ → Option Bytes

/-- `find_player_by_authid`: the first slot. -/
def findPlayerByAuthid (engine : Engine) (authid : Bytes) : Option ℕ :=
  (List.range' 1 engine.maxClients).find? fun id => engine.authid id = some authid

/-- The slot that the callback of a PLAYER_JOIN bans from submitting. -/
def bannedSlot (banAction : ℤ) (engine : Engine) (isBanned : BoolField) (steamid : Field) :
    Option ℕ :=
  match kzWsAckPlayerJoin isBanned steamid with
  | some (szAuth, true) => if banAction = 3 then findPlayerByAuthid engine szAuth else none
  | _ => none

/-- The callback of a PLAYER_JOIN. The commands of the other actions are left out. -/
def onPlayerJoinAck (banAction : ℤ) (engine : Engine) (isBanned : BoolField) (steamid : Field)
    (s : Server) :
    Server :=
  match bannedSlot banAction engine isBanned steamid with
  | some id => s.update id { s.players id with noSubmit := true }
  | none => s

/-! ### The run natives -/

/-- The natives that signal the writer. -/
inductive Native
  | started (ts : ℕ)
  | checkpoint
  | gocheck
  | paused
  | unpaused
  | rejected (deleteFile : Bool)
  | finished (timeMs : ℕ) (submit : Bool) (charPrefix : UInt8)
  | frame (f : KrpFrame)

/-- The packet that a function pushes, if it does: pausing is a setting. -/
def packet (allowPause : Bool) (p : Player) : Native → Option Signal
  | .started ts => some (.start ts p.steamidShort p.nickname)
  | .checkpoint => some (.event krpEventCheckpoint)
  | .gocheck => some (.event krpEventGocheck)
  | .paused => if allowPause then some .pause else none
  | .unpaused => if allowPause then some (.unpause p.steamidShort) else none
  | .rejected deleteFile => some (.reject deleteFile)
  | .finished timeMs submit charPrefix =>
    some (.finish timeMs submit charPrefix p.steamidShort p.nickname)
  | .frame f => some (.frame f)

/-- `validate_player`, for a living player. `kz_api_run_paused` checks the index alone, which is
that of a slot. -/
def validPlayer (id : ℕ) (s : Server) : Native → Bool
  | .paused => true
  | _ => s.connected id && !(s.players id).isBot

/-- The packet that a function gets into the queue. -/
def pushed (id : ℕ) (allowPause : Bool) (n : Native) (s : Server) : Option Signal :=
  if validPlayer id s n ∧ s.writerQueue.length < writerQueueSize then
    packet allowPause (s.players id) n
  else none

/-- A native pushes its signal, or does nothing. -/
def onNative (id : ℕ) (allowPause : Bool) (n : Native) (s : Server) : Server :=
  match pushed id allowPause n s with
  | some signal => { s with writerQueue := s.writerQueue ++ [(id, signal)] }
  | none => s

/-! ### The writer thread -/

section Machine
variable (dataDir : Bytes)

/-- The front of the queue with what the writer does with it: the ban flag is the one of this
moment. -/
def process (env : Env) (s : Server) : Option (ℕ × Signal × Slot × List Output) :=
  match s.writerQueue with
  | [] => none
  | (id, signal) :: _ =>
    some (id, signal,
      step dataDir ⟨s.entries id, s.disk⟩ ⟨signal,
        { env with noSubmit := (s.players id).noSubmit }⟩)

/-- The writer takes an item off its queue and works on the slot it names. -/
def onProcess (env : Env) (s : Server) : Server :=
  match process dataDir env s with
  | none => s
  | some (id, _, slot, _) =>
    { s with
      writerQueue := s.writerQueue.tail
      entries := Function.update s.entries id slot.toEntries
      disk := slot.disk }

/-! ### The machine -/

/-- The main thread, the writer thread, and the other threads on the disk. -/
inductive Event
  | putInServer (id : ℕ) (isBot : Bool) (authid name : Bytes)
  | dropClient (id : ℕ)
  | playerJoinAck (engine : Engine) (isBanned : BoolField) (steamid : Field)
  | native (id : ℕ) (allowPause : Bool) (n : Native)
  | earlyMapchange
  | mapLoaded
  | process (env : Env)
  | files (disk : Disk Bytes UInt8)

/-- What an event makes of the server. -/
def next (banAction : ℤ) (s : Server) : Event → Server
  | .putInServer id isBot authid name => fnClientPutInServerPost id isBot authid name s
  | .dropClient id => kzSvDropClient id s
  | .playerJoinAck engine isBanned steamid => onPlayerJoinAck banAction engine isBanned steamid s
  | .native id allowPause n => onNative id allowPause n s
  | .earlyMapchange => { s with gEarlyMapchange := true }
  | .mapLoaded => { s with gEarlyMapchange := false }
  | .process env => onProcess dataDir env s
  | .files disk => { s with disk := disk }

end Machine

/-! ### The flag and the connections after a step -/

section Flags
variable (s : Server) (id : ℕ)

theorem noSubmit_update (p : Player) (j : ℕ) :
    ((s.update id p).players j).noSubmit =
      if j = id then p.noSubmit else (s.players j).noSubmit := by
  rcases eq_or_ne j id with rfl | hne
  · simp [Server.update]
  · simp [Server.update, hne]

theorem noSubmit_putInServer (isBot : Bool) (authid name : Bytes) (j : ℕ) :
    ((fnClientPutInServerPost id isBot authid name s).players j).noSubmit =
    (s.players j).noSubmit := by
  rcases eq_or_ne j id with rfl | hne
  · cases isBot <;> simp [fnClientPutInServerPost, Server.update]
  · simp [fnClientPutInServerPost, Server.update, hne]

theorem connected_putInServer (isBot : Bool) (authid name : Bytes) (j : ℕ) :
    (fnClientPutInServerPost id isBot authid name s).connected j =
      if j = id then true else s.connected j :=
  Function.update_apply ..

theorem connected_dropClient {j : ℕ} (hj : (kzSvDropClient id s).connected j = true) :
    j ≠ id ∧ s.connected j = true := by
  have hup : (kzSvDropClient id s).connected = Function.update s.connected id false := by
    unfold kzSvDropClient
    dsimp only
    split_ifs <;> rfl
  rw [hup, Function.update_apply] at hj
  split_ifs at hj with hji
  exact ⟨hji, hj⟩

theorem writerQueue_dropClient : (kzSvDropClient id s).writerQueue = s.writerQueue := by
  unfold kzSvDropClient
  dsimp only
  split_ifs <;> rfl

/-- **A disconnect** clears the flag, but for a bot and during an early map change. -/
theorem noSubmit_dropClient (j : ℕ) :
    ((kzSvDropClient id s).players j).noSubmit = (s.players j).noSubmit ∨
    j = id ∧ ((kzSvDropClient id s).players j).noSubmit = false ∧
      ¬ ((s.players id).isBot = true ∨ s.gEarlyMapchange = true) := by
  unfold kzSvDropClient
  dsimp only
  split_ifs with hk
  · exact Or.inl rfl
  · rcases eq_or_ne j id with rfl | hne
    · exact Or.inr ⟨rfl, by simp [Server.update, Player.empty], hk⟩
    · exact Or.inl (by simp [Server.update, hne])

end Flags

end KzGlobal.Players.Slots
