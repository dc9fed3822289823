import KzGlobal.Players.Slots
import KzGlobal.Replay.Isolation

/-! # Steam ids and their short forms

A player who joins gets a short form of the account id: without `STEAM_` and the colons. It names
the files of the player, and the id is made from it again, by position, for the header of a replay
and for the submission of a run. For the ids `STEAM_X:Y:Z` nothing is lost on the way, and two of
them have different short forms and different captures (`steamid_survives`). -/

namespace KzGlobal.Players.SteamIds

open KzGlobal.Krp.Format KzGlobal.Krp.Records KzGlobal.Replay.Text KzGlobal.Replay.Writer
  KzGlobal.Replay.Paths KzGlobal.Replay.Effect KzGlobal.Replay.Capture KzGlobal.Replay.Isolation
  KzGlobal.Players.Slots

/-- A letter, a digit, an underscore or a hyphen. -/
def idChar (c : UInt8) : Bool :=
  (97 ≤ c && c ≤ 122) || (65 ≤ c && c ≤ 90) || (48 ≤ c && c ≤ 57) || c == 95 || c == 45

/-- `STEAM_X:Y:Z`. -/
def authidText (x y : UInt8) (z : Bytes) : Bytes := str "STEAM_" ++ x :: 58 :: y :: 58 :: z

/-- **An account id** `STEAM_X:Y:Z` that fits `steamid`. -/
structure Authid where
  x : UInt8
  y : UInt8
  z : Bytes
  chars : ∀ c ∈ x :: y :: z, idChar c = true
  nonempty : z ≠ []
  fits : (authidText x y z).length ≤ 34
  deriving DecidableEq

namespace Authid

/-- The text that the engine gives. -/
def text (a : Authid) : Bytes := authidText a.x a.y a.z

/-- The short form. -/
def short (a : Authid) : Bytes := a.x :: a.y :: a.z

theorem short_inj {a b : Authid} (h : a.short = b.short) : a = b := by
  obtain ⟨hx, hrest⟩ := List.cons.inj h
  obtain ⟨hy, hz⟩ := List.cons.inj hrest
  cases a
  cases b
  congr

theorem length_short (a : Authid) : a.short.length ≤ 26 := by
  have h := a.fits
  simp only [authidText, List.length_append, List.length_cons] at h
  have hprefix : (str "STEAM_").length = 6 := rfl
  simp only [short, List.length_cons]
  omega

end Authid

/-! ### The characters -/

theorem segmentChar_of_idChar {c : UInt8} (h : idChar c = true) : segmentChar c = true := by
  unfold segmentChar
  unfold idChar at h
  rw [h, Bool.true_or]

theorem idChar_ne {c : UInt8} (h : idChar c = true) : c ≠ 0 ∧ c ≠ 46 ∧ c ≠ 47 ∧ c ≠ 58 := by
  refine ⟨?_, ?_, ?_, ?_⟩
  all_goals
    rintro rfl
    exact absurd h (by decide)

theorem nul_not_mem_text (a : Authid) : (0 : UInt8) ∉ a.text := by
  intro h
  rcases List.mem_append.mp h with h | h
  · exact absurd h (by decide)
  · have hmem : (0 : UInt8) ∈ a.x :: a.y :: a.z := by
      simp only [List.mem_cons] at h ⊢
      rcases h with h | h | h | h | h
      · exact Or.inl h
      · exact absurd h (by decide)
      · exact Or.inr (Or.inl h)
      · exact absurd h (by decide)
      · exact Or.inr (Or.inr h)
    exact (idChar_ne (a.chars 0 hmem)).1 rfl

theorem valid_short (a : Authid) : kzWsValidReplaySegment a.short = true := by
  have hall : a.short.all segmentChar = true :=
    List.all_eq_true.mpr fun c hc => segmentChar_of_idChar (a.chars c hc)
  have hlen : 2 < a.short.length := by
    have hz := List.length_pos_of_ne_nil a.nonempty
    simp only [Authid.short, List.length_cons]
    omega
  have hne {t : Bytes} (ht : t.length ≤ 2) : (a.short != t) = true := by
    rw [bne_iff_ne]
    rintro rfl
    omega
  rw [kzWsValidReplaySegment, hall, hne (by decide), hne (by decide), hne (by decide)]
  rfl

/-! ### Shortening -/

theorem removeSubstring_append {what : Bytes} (h : what ≠ []) (rest : Bytes) :
    removeSubstring what (what ++ rest) = rest := by
  obtain ⟨c, what, rfl⟩ := List.exists_cons_of_ne_nil h
  have hprefix : c :: what <+: c :: (what ++ rest) := List.prefix_append (c :: what) rest
  rw [List.cons_append, removeSubstring, if_pos ⟨h, hprefix⟩, ← List.cons_append, List.drop_left]

theorem removeSubstring_cons {c d : UInt8} (h : d ≠ c) (text : Bytes) :
    removeSubstring [c] (d :: text) = d :: removeSubstring [c] text := by
  have hprefix : ¬ [c] <+: d :: text := fun hp => h (List.cons_prefix_cons.mp hp).1.symm
  rw [removeSubstring, if_neg fun hp => hprefix hp.2]

theorem bytes_copyTo {n : ℕ} {s : Bytes} (h0 : (0 : UInt8) ∉ s) (hn : s.length ≤ n) :
    (copyTo n s).bytes = s := by
  have hcstr : cstr s = s := List.takeWhile_eq_self_iff.mpr fun c hc => by
    have hne : c ≠ 0 := fun heq => h0 (heq ▸ hc)
    simpa using hne
  calc (copyTo n s).bytes = (cstr s).take n := rfl
    _ = s := by rw [hcstr, List.take_of_length_le hn]

/-- **The three removals** leave the characters of the id. -/
theorem removeSubstring_text (a : Authid) :
    removeSubstring (str ":") (removeSubstring (str ":") (removeSubstring (str "STEAM_") a.text)) =
      a.short := by
  have hcolon : str ":" = [58] := rfl
  have hx : a.x ≠ 58 := (idChar_ne (a.chars a.x (by simp))).2.2.2
  have hy : a.y ≠ 58 := (idChar_ne (a.chars a.y (by simp))).2.2.2
  have hne : ([58] : Bytes) ≠ [] := List.cons_ne_nil _ _
  have hfirst (rest : Bytes) : removeSubstring [58] (58 :: rest) = rest :=
    removeSubstring_append hne rest
  rw [Authid.text, authidText, removeSubstring_append (by decide), hcolon, removeSubstring_cons hx,
    hfirst, removeSubstring_cons hx, removeSubstring_cons hy, hfirst, Authid.short]

theorem bytes_steamidShortOf (id : ℕ) (a : Authid) :
    (steamidShortOf id a.text).bytes = a.short := by
  have hcopy : (copyTo 34 a.text).bytes = a.text := bytes_copyTo (nul_not_mem_text a) a.fits
  have hnul : (0 : UInt8) ∉ a.short := fun h => (idChar_ne (a.chars 0 h)).1 rfl
  have hlen := a.length_short
  unfold steamidShortOf
  dsimp only
  rw [hcopy, removeSubstring_text, if_pos (valid_short a), bytes_copyTo hnul (by omega)]

/-! ### And back -/

/-- **The id made from the short form** is the one the player joined with. -/
theorem steamidOf_short (a : Authid) : steamidOf a.short = a.text := by
  simp [steamidOf, Authid.short, Authid.text, authidText]

theorem cstr_snprintf_text (a : Authid) (rest : Bytes) :
    cstr (snprintf 35 a.text ++ rest) = a.text := by
  have htake : a.text.take (35 - 1) = a.text := List.take_of_length_le a.fits
  rw [snprintf_append, htake, cstr_append_zero (nul_not_mem_text a)]

/-- The account in the header of a replay file. -/
def fileSteamid (file : Bytes) : Bytes := cstr (Member.playerSteamid.field.get file)

/-- **The file that a START opens** has the id in its header. -/
theorem fileSteamid_onStart {a : Authid} {sid : CString 35} (hsid : sid.bytes = a.short)
    {dataDir : Bytes} {env : Env} {ts : ℕ} {nickname : CString 32} {s : Slot} {fd : Handle}
    (hfd : (onStart dataDir env ts sid nickname s).fd = some fd) :
    ∃ file, (onStart dataDir env ts sid nickname s).disk fd.path = some file ∧
      fileSteamid file = a.text := by
  by_cases ha : Accepted env sid
  · rw [onStart_accepted dataDir ha] at hfd ⊢
    by_cases hopen : env.fopenOk = true
    · rw [if_pos hopen] at hfd ⊢
      obtain rfl := Option.some.inj hfd
      refine ⟨_, Lib.Stdio.Disk.store_self _ _ _, ?_⟩
      have hlen : (snprintf 35 a.text).length ≤ Member.playerSteamid.field.size :=
        length_snprintf_le (by decide) _
      rw [fileSteamid, krprOf, get_header, startHeader, hsid, steamidOf_short,
        KrpHeader.get_set_prefix _ hlen, cstr_snprintf_text]
    · rw [if_neg hopen] at hfd
      cases hfd
  · rw [onStart_refused dataDir ha] at hfd
    cases hfd

/-- **The submission of a FINISH** has the id. -/
theorem steamid_onFinish {a : Authid} {sid : CString 35} (hsid : sid.bytes = a.short)
    {dataDir : Bytes} {env : Env} {timeMs : ℕ} {submit : Bool} {charPrefix : UInt8}
    {nickname : CString 32} {s : Slot} {r : AddRecord}
    (hr : .addRecord r ∈ (onFinish dataDir env timeMs submit charPrefix sid nickname s).2) :
    r.steamid = a.text := by
  have hid : cstr (snprintf 35 (steamidOf sid.bytes)) = a.text := by
    have h := cstr_snprintf_text a []
    rw [List.append_nil] at h
    rw [hsid, steamidOf_short, h]
  unfold onFinish at hr
  cases hfd : s.fd with
  | none =>
    rw [hfd] at hr
    cases hr
  | some fd =>
    rw [hfd] at hr
    dsimp only at hr
    split_ifs at hr with hvalid
    · cases hr
    · split at hr
      · unfold finishOutputs at hr
        split_ifs at hr with hsubmit
        · simp at hr
        · rw [List.mem_cons, List.mem_singleton] at hr
          rcases hr with hsaved | hadd
          · cases hsaved
          · rw [Output.addRecord.inj hadd, hid]
      · cases hr

/-! ### The captures -/

theorem tmpPath_whole (amxxDatadir : CString 127) (g : ServerHeader) (a : Authid) :
    tmpPath (gDataDir amxxDatadir) (mapName g.header) a.short =
      joinPath (joinPath (replaysDir (gDataDir amxxDatadir)) (mapName g.header)) a.short ++
        str ".tmp" := by
  have hdir := length_replaysDir_le amxxDatadir
  have hmap := mapName_le g
  have hshort := a.length_short
  have h1 := length_joinPath_le (replaysDir (gDataDir amxxDatadir)) (mapName g.header)
  have h2 := length_joinPath_le (joinPath (replaysDir (gDataDir amxxDatadir)) (mapName g.header))
    a.short
  have htmp : (str ".tmp").length = 4 := rfl
  refine List.take_of_length_le ?_
  rw [List.length_append]
  omega

theorem tmpPath_inj {amxxDatadir : CString 127} {g : ServerHeader} {a b : Authid}
    (h : tmpPath (gDataDir amxxDatadir) (mapName g.header) a.short =
      tmpPath (gDataDir amxxDatadir) (mapName g.header) b.short) : a = b := by
  rw [tmpPath_whole, tmpPath_whole] at h
  have hsegment (c : Authid) : (47 : UInt8) ∉ c.short := no_slash_of_segment (valid_short c)
  exact Authid.short_inj (joinPath_inj (hsegment a) (hsegment b) (List.append_cancel_right h))

/-! ### Joining -/

/-- The player in a slot once one with this id has joined. -/
def joined (id : ℕ) (a : Authid) (name : Bytes) (s : Server) : Player :=
  (fnClientPutInServerPost id false a.text name s).players id

theorem short_joined (id : ℕ) (a : Authid) (name : Bytes) (s : Server) :
    (joined id a name s).steamidShort.bytes = a.short := by
  have hplayer : (joined id a name s).steamidShort = steamidShortOf id a.text := by
    simp [joined, fnClientPutInServerPost, Server.update]
  rw [hplayer, bytes_steamidShortOf]

/-- **Steam ids survive shortening**: the short form of a player who joins is a valid segment, the
replay header and the submission have the id the player joined with, and players with different ids
have different short forms and captures. -/
theorem steamid_survives (id : ℕ) (a : Authid) (name : Bytes) (server : Server) :
    let sid := (joined id a name server).steamidShort
    kzWsValidReplaySegment sid.bytes = true ∧
    (∀ dataDir env ts nickname s fd, (onStart dataDir env ts sid nickname s).fd = some fd →
      ∃ file, (onStart dataDir env ts sid nickname s).disk fd.path = some file ∧
        fileSteamid file = a.text) ∧
    (∀ dataDir env timeMs submit charPrefix nickname s r,
      .addRecord r ∈ (onFinish dataDir env timeMs submit charPrefix sid nickname s).2 →
        r.steamid = a.text) ∧
    ∀ id' b name' server', b ≠ a →
      let sid' := (joined id' b name' server').steamidShort
      sid'.bytes ≠ sid.bytes ∧ ∀ amxxDatadir (g : ServerHeader),
        tmpPath (gDataDir amxxDatadir) (mapName g.header) sid'.bytes ≠
          tmpPath (gDataDir amxxDatadir) (mapName g.header) sid.bytes := by
  intro sid
  have hsid : sid.bytes = a.short := short_joined id a name server
  refine ⟨by rw [hsid]; exact valid_short a, ?_, ?_, ?_⟩
  · intro dataDir env ts nickname s fd hfd
    exact fileSteamid_onStart hsid hfd
  · intro dataDir env timeMs submit charPrefix nickname s r hr
    exact steamid_onFinish hsid hr
  · intro id' b name' server' hne sid'
    have hsid' : sid'.bytes = b.short := short_joined id' b name' server'
    rw [hsid, hsid']
    exact ⟨fun h => hne (Authid.short_inj h), fun amxxDatadir g h => hne (tmpPath_inj h)⟩

/-- `STEAM_0:1:2345`. -/
def sampleAuthid : Authid :=
  ⟨48, 49, str "2345", by decide +kernel, by decide +kernel, by decide +kernel⟩

/-- `STEAM_0:0:2345`, which has the same number. -/
def sampleOther : Authid :=
  ⟨48, 48, str "2345", by decide +kernel, by decide +kernel, by decide +kernel⟩

/-- The slot once the player has joined. -/
def sampleJoined (a : Authid) : Player := joined 3 a (str "kz") (.init fun _ => none)

/-- The slot of the writer after a START of the sample player. -/
def sampleStarted : Slot :=
  onStart (str "d") sampleEnv 36 (sampleJoined sampleAuthid).steamidShort sampleNickname
    (.init fun _ => none)

theorem steamid_survives_sample :
    sampleAuthid.text = str "STEAM_0:1:2345" ∧
    (sampleJoined sampleAuthid).steamidShort.bytes = str "012345" ∧
    (∃ fd file, sampleStarted.fd = some fd ∧ sampleStarted.disk fd.path = some file ∧
      fileSteamid file = sampleAuthid.text) ∧
    (sampleJoined sampleOther).steamidShort.bytes ≠
      (sampleJoined sampleAuthid).steamidShort.bytes := by
  obtain ⟨-, hstart, -, hother⟩ := steamid_survives 3 sampleAuthid (str "kz") (.init fun _ => none)
  have hopen : sampleStarted.fd.isSome = true := by decide +kernel
  obtain ⟨fd, hfd⟩ := Option.isSome_iff_exists.mp hopen
  obtain ⟨file, hfile, hid⟩ := hstart _ _ _ _ _ fd hfd
  have hne := (hother 3 sampleOther (str "kz") (.init fun _ => none) (by decide +kernel)).1
  exact ⟨by decide +kernel, by decide +kernel, ⟨fd, file, hfd, hfile, hid⟩, hne⟩

end KzGlobal.Players.SteamIds
