import KzGlobal.Replay.Text

/-! # The reply to a GET_REPLAY

`kz_ws_ack_get_replay` reads three fields, each of which may be missing or hold something else than
a text. What it leads to is an outcome: a download, or what leaves the pending fetches. -/

namespace KzGlobal.Fetch.Reply

open KzGlobal.Krp.Format KzGlobal.Replay.Text

/-- A field of a message: `json_object_dotget_value` finds nothing, a value that is no text, or a
text. -/
inductive Field
  | missing
  | other
  | text (s : Bytes)
  deriving DecidableEq

/-- `json_object_dotget_string`. -/
def Field.string? : Field → Option Bytes
  | .text s => some s
  | _ => none

/-- What the handler does: it clears a map from the pending fetches, ignores the replay of a NUB
run, or starts a download. -/
inductive Outcome
  | nothing
  | clear (mapname : Bytes)
  | ignoreNub (mapname : Bytes)
  | download (mapname localUid : Bytes)
  deriving DecidableEq

/-- `kz_ws_ack_get_replay`: the members are looked for in the order of the source. -/
def kzWsAckGetReplay (mapHasProWr : Bool) (url localUid mapName : Field) : Outcome :=
  if url = .missing then .clear (mapName.string?.getD [])
  else if localUid = .missing then .clear (mapName.string?.getD [])
  else if mapName = .missing then .nothing
  else
    match url.string?, localUid.string?, mapName.string? with
    | some _, some uid, some mapname =>
      if ¬ kzWsValidReplaySegment mapname ∨ ¬ kzWsValidReplaySegment uid then .clear mapname
      else if mapHasProWr ∧ str "1_" <+: uid then .ignoreNub mapname
      else .download mapname uid
    | _, _, mapname => .clear (mapname.getD [])

/-- **What is downloaded** has a valid map and uid. -/
theorem valid_of_download {mapHasProWr : Bool} {url localUid mapName : Field} {mapname uid : Bytes}
    (h : kzWsAckGetReplay mapHasProWr url localUid mapName = .download mapname uid) :
    kzWsValidReplaySegment mapname = true ∧ kzWsValidReplaySegment uid = true := by
  unfold kzWsAckGetReplay at h
  split_ifs at h
  split at h
  · split_ifs at h with hv
    rw [Outcome.download.injEq] at h
    obtain ⟨rfl, rfl⟩ := h
    rwa [not_or, not_not, not_not] at hv
  · cases h

/-- A reply that starts the download of its map. -/
def Starts (mapHasProWr : Bool) (url localUid : Field) (mapname : Bytes) : Prop :=
  ∃ u uid, url = .text u ∧ localUid = .text uid ∧ kzWsValidReplaySegment mapname = true ∧
    kzWsValidReplaySegment uid = true ∧ ¬ (mapHasProWr = true ∧ str "1_" <+: uid)

section Outcomes
variable {mapHasProWr : Bool} {url localUid mapName : Field} {mapname : Bytes}

theorem outcome_no_text (h : url.string? = none ∨ localUid.string? = none) :
    kzWsAckGetReplay mapHasProWr url localUid (.text mapname) = .clear mapname := by
  unfold kzWsAckGetReplay
  split_ifs with hurl huid hmap
  · rfl
  · rfl
  · cases hmap
  · rcases h with h | h
    · rw [h]
      rfl
    · rw [h]
      cases url.string? <;> rfl

theorem outcome_texts (u uid : Bytes) :
    kzWsAckGetReplay mapHasProWr (.text u) (.text uid) (.text mapname) =
      if ¬ kzWsValidReplaySegment mapname ∨ ¬ kzWsValidReplaySegment uid then .clear mapname
      else if mapHasProWr ∧ str "1_" <+: uid then .ignoreNub mapname
      else .download mapname uid := by
  rfl

/-- **A reply that names a map** starts its download, or takes it out of the pending fetches. -/
theorem outcome_of_starts (h : Starts mapHasProWr url localUid mapname) : ∃ uid,
    kzWsAckGetReplay mapHasProWr url localUid (.text mapname) = .download mapname uid := by
  obtain ⟨u, uid, rfl, rfl, hmap, huid, hnub⟩ := h
  refine ⟨uid, ?_⟩
  rw [outcome_texts, if_neg (not_or.mpr ⟨not_not.mpr hmap, not_not.mpr huid⟩), if_neg hnub]

theorem outcome_of_not_starts (h : ¬ Starts mapHasProWr url localUid mapname) :
    kzWsAckGetReplay mapHasProWr url localUid (.text mapname) = .clear mapname ∨
      kzWsAckGetReplay mapHasProWr url localUid (.text mapname) = .ignoreNub mapname := by
  cases url with
  | missing => exact Or.inl (outcome_no_text (Or.inl rfl))
  | other => exact Or.inl (outcome_no_text (Or.inl rfl))
  | text u =>
    cases localUid with
    | missing => exact Or.inl (outcome_no_text (Or.inr rfl))
    | other => exact Or.inl (outcome_no_text (Or.inr rfl))
    | text uid =>
      rw [outcome_texts]
      split_ifs with hvalid hnub
      · exact Or.inl rfl
      · exact Or.inr rfl
      · rw [not_or, not_not, not_not] at hvalid
        exact absurd ⟨u, uid, rfl, rfl, hvalid.1, hvalid.2, hnub⟩ h

theorem outcome_no_map (mapHasProWr : Bool) (url localUid : Field) (h : ∀ m, mapName ≠ .text m) :
    kzWsAckGetReplay mapHasProWr url localUid mapName = .nothing ∨
      kzWsAckGetReplay mapHasProWr url localUid mapName = .clear [] := by
  have hnone : mapName.string? = none := by
    cases mapName with
    | missing => rfl
    | other => rfl
    | text m => exact absurd rfl (h m)
  unfold kzWsAckGetReplay
  rw [hnone]
  split_ifs
  · exact Or.inr rfl
  · exact Or.inr rfl
  · exact Or.inl rfl
  · right
    cases url.string? <;> cases localUid.string? <;> rfl

end Outcomes

end KzGlobal.Fetch.Reply
