import KzGlobal.Krp.Records
import KzGlobal.Replay.Writer

/-! # The headers of a capture

A capture's header begins as the server's with the run's time and player, takes the counts of the
run at every PAUSE and the player's name and the counts at FINISH. None of this touches the magic,
the version or the map name, so a capture that an accepted START began has a valid header under the
server's map name (`startHeader_valid`, `fileName_startHeader`). -/

namespace KzGlobal.Replay.Headers

open KzGlobal.Lib.Packed KzGlobal.Krp.Format KzGlobal.Krp.Records
open KzGlobal.Replay.Text KzGlobal.Replay.Writer

/-- The counts of a run in its header. -/
def runHeader (h : KrpHeader) (checkpoints teleports : ℕ) : KrpHeader :=
  (h.setNum .runCheckpoints checkpoints).setNum .runTeleports teleports

/-- The map name that a FINISH reads. -/
def fileName (h : KrpHeader) : Bytes := cstr ((h.get .mapName).take 63 ++ [0])

/-! ### Untouched members -/

theorem get_runHeader (h : KrpHeader) (checkpoints teleports : ℕ) {m : Member}
    (h1 : m ≠ .runCheckpoints) (h2 : m ≠ .runTeleports) :
    (runHeader h checkpoints teleports).get m = h.get m := by
  rw [runHeader, KrpHeader.setNum, KrpHeader.get_set_of_ne h2.symm, KrpHeader.setNum,
    KrpHeader.get_set_of_ne h1.symm]

theorem get_startHeader (ts : ℕ) (steamidShort : CString 35) (nickname : CString 32) (h : KrpHeader)
    {m : Member} (h1 : m ≠ .timestamp) (h2 : m ≠ .playerName) (h3 : m ≠ .playerSteamid) :
    (startHeader ts steamidShort nickname h).get m = h.get m := by
  rw [startHeader, KrpHeader.get_set_of_ne h3.symm, KrpHeader.get_set_of_ne h2.symm,
    KrpHeader.setNum, KrpHeader.get_set_of_ne h1.symm]

theorem get_finishHeader (nickname : CString 32) (s : Slot) (h : KrpHeader) {m : Member}
    (h1 : m ≠ .playerName) (h2 : m ≠ .runCheckpoints) (h3 : m ≠ .runTeleports) :
    (finishHeader nickname s h).get m = h.get m := by
  rw [finishHeader, KrpHeader.setNum, KrpHeader.get_set_of_ne h3.symm, KrpHeader.setNum,
    KrpHeader.get_set_of_ne h2.symm, KrpHeader.get_set_of_ne h1.symm]

theorem ValidHeader.congr {h h' : KrpHeader} (hm : h'.get .magic = h.get .magic)
    (hv : h'.get .version = h.get .version) : ValidHeader h' ↔ ValidHeader h := by
  unfold ValidHeader KrpHeader.num
  rw [hm, hv]

theorem runHeader_valid {h : KrpHeader} {checkpoints teleports : ℕ} :
    ValidHeader (runHeader h checkpoints teleports) ↔ ValidHeader h :=
  ValidHeader.congr (get_runHeader h _ _ (by decide) (by decide))
    (get_runHeader h _ _ (by decide) (by decide))

theorem finishHeader_valid {nickname : CString 32} {s : Slot} {h : KrpHeader} :
    ValidHeader (finishHeader nickname s h) ↔ ValidHeader h :=
  ValidHeader.congr (get_finishHeader _ _ h (by decide) (by decide) (by decide))
    (get_finishHeader _ _ h (by decide) (by decide) (by decide))

theorem fileName_runHeader (h : KrpHeader) (checkpoints teleports : ℕ) :
    fileName (runHeader h checkpoints teleports) = fileName h := by
  rw [fileName, get_runHeader h _ _ (by decide) (by decide)]; rfl

theorem fileName_finishHeader (nickname : CString 32) (s : Slot) (h : KrpHeader) :
    fileName (finishHeader nickname s h) = fileName h := by
  rw [fileName, get_finishHeader _ _ h (by decide) (by decide) (by decide)]; rfl

/-! ### The counts -/

theorem runHeader_counts (h : KrpHeader) {checkpoints teleports : ℕ} (hc : checkpoints < 2 ^ 32)
    (ht : teleports < 2 ^ 32) : (runHeader h checkpoints teleports).num .runCheckpoints =
    checkpoints ∧
      (runHeader h checkpoints teleports).num .runTeleports = teleports := by
  constructor
  · rw [runHeader, KrpHeader.num_setNum_of_ne (by decide), KrpHeader.num_setNum]
    exact Nat.mod_eq_of_lt hc
  · rw [runHeader, KrpHeader.num_setNum]
    exact Nat.mod_eq_of_lt ht

theorem finishHeader_counts (nickname : CString 32) {s : Slot} (h : KrpHeader)
    (hc : s.checkpoints < 2 ^ 32) (ht : s.gochecks < 2 ^ 32) :
    (finishHeader nickname s h).num .runCheckpoints = s.checkpoints ∧
      (finishHeader nickname s h).num .runTeleports = s.gochecks :=
  runHeader_counts (h.set .playerName (paddedName nickname)) hc ht

/-! ### The server's header -/

theorem GHeader.valid {g : KrpHeader} (hg : GHeader g) : mapName g = [] ∨ ValidHeader g := by
  induction hg with
  | zero => exact Or.inl (by decide)
  | update ip port crc mapname h0 hg ih =>
    right
    constructor
    · simp only [kzRpUpdateHeader, KrpHeader.num]
      rw [KrpHeader.get_set_of_ne (by decide)]
      change KrpHeader.num _ _ = _
      rw [KrpHeader.num_setNum_of_ne (by decide), KrpHeader.num_setNum_of_ne (by decide),
        KrpHeader.num_setNum_of_ne (by decide), KrpHeader.num_setNum_of_ne (by decide),
        KrpHeader.num_setNum]
      rfl
    · simp only [kzRpUpdateHeader, KrpHeader.num]
      rw [KrpHeader.get_set_of_ne (by decide)]
      change KrpHeader.num _ _ = _
      rw [KrpHeader.num_setNum_of_ne (by decide), KrpHeader.num_setNum_of_ne (by decide),
        KrpHeader.num_setNum_of_ne (by decide), KrpHeader.num_setNum]
      rfl

theorem GHeader.terminated {g : KrpHeader} (hg : GHeader g) :
    ∃ n rest, g.get .mapName = n ++ 0 :: rest ∧ (0 : UInt8) ∉ n ∧ n.length ≤ 63 := by
  cases hg with
  | zero => exact ⟨[], List.replicate 63 0, by decide, by simp, by simp⟩
  | @update g ip port crc mapname h0 hg =>
    have hl : (snprintf 64 mapname).length ≤ Member.mapName.field.size :=
      length_snprintf_le (by decide) mapname
    have hm := KrpHeader.get_set_prefix (((((g.setNum .magic krpMagic).setNum .version
      krpCurrentVersion).setNum .serverIp ip).setNum .serverPort port).setNum .mapChecksum crc) hl
    rw [snprintf_append] at hm
    exact ⟨_, _, hm, fun h => h0 (List.mem_of_mem_take h), List.length_take_le _ _⟩

theorem fileName_of_terminated {h : KrpHeader} {n rest : Bytes}
    (hg : h.get .mapName = n ++ 0 :: rest)
    (h0 : (0 : UInt8) ∉ n) (hl : n.length ≤ 63) : fileName h = n ∧ mapName h = n := by
  refine ⟨?_, by rw [mapName, hg, cstr_append_zero h0]⟩
  rw [fileName, hg, List.take_append]
  rcases Nat.lt_or_ge n.length 63 with hlt | hge
  · obtain ⟨k, hk⟩ : ∃ k, 63 - n.length = k + 1 := ⟨63 - n.length - 1, by omega⟩
    rw [hk, List.take_of_length_le hl, List.take_succ_cons, List.append_assoc, List.cons_append,
      cstr_append_zero h0]
  · rw [List.take_of_length_le hl, show 63 - n.length = 0 by omega, List.take_zero, List.append_nil,
      cstr_append_zero h0]

/-- **FINISH reads the map name that START checked.** -/
theorem fileName_startHeader (ts : ℕ) (steamidShort : CString 35) (nickname : CString 32)
    (g : ServerHeader) :
    fileName (startHeader ts steamidShort nickname g.header) = mapName g.header := by
  obtain ⟨n, rest, hn, h0, hl⟩ := GHeader.terminated g.reached
  have hs : (startHeader ts steamidShort nickname g.header).get .mapName = n ++ 0 :: rest := by
    rw [get_startHeader _ _ _ _ (by decide) (by decide) (by decide), hn]
  rw [(fileName_of_terminated hs h0 hl).1, (fileName_of_terminated hn h0 hl).2]

/-- **A capture begins with a valid header**, where START accepts the map name. -/
theorem startHeader_valid (ts : ℕ) (steamidShort : CString 35) (nickname : CString 32)
    {g : ServerHeader} (hname : kzWsValidReplaySegment (mapName g.header) = true) :
    ValidHeader (startHeader ts steamidShort nickname g.header) := by
  have hv : ValidHeader g.header := by
    rcases GHeader.valid g.reached with h0 | hv
    · rw [h0] at hname; cases hname
    · exact hv
  exact (ValidHeader.congr (get_startHeader _ _ _ _ (by decide) (by decide) (by decide))
    (get_startHeader _ _ _ _ (by decide) (by decide) (by decide))).mpr hv

end KzGlobal.Replay.Headers
