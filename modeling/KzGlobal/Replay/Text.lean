import Mathlib.Data.List.TakeWhile
import KzGlobal.Krp.Format

/-! # C strings, paths and run uids

A C string is the list of its bytes without the terminating NUL; the ones that live in fixed buffers
are `CString n`, which fit. Paths are the strings that `std::filesystem::path::string` gives. -/

namespace KzGlobal.Replay.Text

open KzGlobal.Krp.Format

/-- The bytes of a string literal. -/
def str (s : String) : Bytes := s.toList.map fun c => UInt8.ofNat c.toNat

/-- The C string at the beginning of a buffer. -/
def cstr (buf : Bytes) : Bytes := buf.takeWhile (· ≠ 0)

/-- A C string in a buffer of `n` bytes. -/
structure CString (n : ℕ) where
  bytes : Bytes
  fits : bytes.length < n
  no_nul : (0 : UInt8) ∉ bytes
  deriving DecidableEq

/-- What `snprintf(dest, n, "%s", s)` writes. -/
def snprintf (n : ℕ) (s : Bytes) : Bytes := s.take (n - 1) ++ [0]

theorem takeWhile_ne {c : UInt8} {s : Bytes} (h : c ∉ s) (rest : Bytes) :
    (s ++ c :: rest).takeWhile (· ≠ c) = s := by
  rw [List.takeWhile_append_of_pos fun b hb => by
    have : b ≠ c := fun h0 => h (h0 ▸ hb)
    simpa using this]
  simp

theorem dropWhile_ne {c : UInt8} {s : Bytes} (h : c ∉ s) (rest : Bytes) :
    (s ++ c :: rest).dropWhile (· ≠ c) = c :: rest := by
  rw [List.dropWhile_append_of_pos fun b hb => by
    have : b ≠ c := fun h0 => h (h0 ▸ hb)
    simpa using this]
  simp

theorem cstr_append_zero {s : Bytes} (h : (0 : UInt8) ∉ s) (rest : Bytes) :
    cstr (s ++ 0 :: rest) = s := takeWhile_ne h rest

theorem length_snprintf_le {n : ℕ} (h : 0 < n) (s : Bytes) : (snprintf n s).length ≤ n := by
  simp only [snprintf, List.length_append, List.length_take, List.length_singleton]
  omega

theorem snprintf_append (n : ℕ) (s rest : Bytes) :
    snprintf n s ++ rest = s.take (n - 1) ++ 0 :: rest := by
  rw [snprintf, List.append_assoc]
  rfl

/-! ### Segments and paths -/

/-- A character of a segment. -/
def segmentChar (c : UInt8) : Bool :=
  (97 ≤ c && c ≤ 122) || (65 ≤ c && c ≤ 90) || (48 ≤ c && c ≤ 57) || c == 95 || c == 45 || c == 46

/-- `kz_ws_valid_replay_segment`. -/
def kzWsValidReplaySegment (value : Bytes) : Bool :=
  value != [] && value != str "." && value != str ".." && value.all segmentChar

/-- `dir / name` for paths. -/
def joinPath (dir name : Bytes) : Bytes :=
  if name.head? = some 47 then name
  else if dir = [] ∨ dir.getLast? = some 47 then dir ++ name
  else dir ++ 47 :: name

/-- What follows the last `c`. -/
def afterLast (c : UInt8) (s : Bytes) : Bytes := (s.reverse.takeWhile (· ≠ c)).reverse

/-- `path::filename`. -/
def filename (p : Bytes) : Bytes := afterLast 47 p

/-- `path::parent_path`: what comes before the file name, without the slashes at its end unless it
is the root. -/
def parentPath (p : Bytes) : Bytes :=
  let dir := p.take (p.length - (filename p).length)
  let stem := (dir.reverse.dropWhile (· = 47)).reverse
  if stem = [] then dir.take 1 else stem

/-- `path::extension`: from the last dot of the file name on, unless that dot is its first
character. -/
def extension (p : Bytes) : Bytes :=
  let name := filename p
  let tail := afterLast 46 name
  if name = str ".." ∨ name.length ≤ tail.length + 1 then [] else 46 :: tail

/-- `path::replace_extension`. -/
def replaceExtension (p ext : Bytes) : Bytes := p.take (p.length - (extension p).length) ++ ext

/-- `g_data_dir / "kz_global" / "replays"`. -/
def replaysDir (dataDir : Bytes) : Bytes :=
  joinPath (joinPath dataDir (str "kz_global")) (str "replays")

/-- The capture of a player on a map, in a buffer of 255 bytes. -/
def tmpPath (dataDir mapname steamidShort : Bytes) : Bytes :=
  (joinPath (joinPath (replaysDir dataDir) mapname) steamidShort ++ str ".tmp").take 254

/-! ### Numbers and uids -/

/-- A digit of `"0123456789abcdefghijklmnopqrstuvwxyz"`. -/
def digit (d : ℕ) : UInt8 := UInt8.ofNat (if d < 10 then 48 + d else 87 + d)

/-- `do { *--p = chars[value % base]; value /= base; } while (value > 0)`, for at most `fuel`
digits. -/
def digits (base : ℕ) : ℕ → ℕ → Bytes → Bytes
  | 0, _, acc => acc
  | fuel + 1, value, acc =>
    let acc := digit (value % base) :: acc
    if 0 < value / base then digits base fuel (value / base) acc else acc

/-- A 64-bit number has at most 13 digits in base 36. -/
def toBase36 (value : ℕ) : Bytes := digits 36 15 value []

/-- `%08u`. -/
def decimal8 (value : ℕ) : Bytes :=
  let ds := digits 10 10 value []
  List.replicate (8 - ds.length) 48 ++ ds

/-- `"STEAM_%c:%c:%s"`. -/
def steamidOf (steamidShort : Bytes) : Bytes :=
  str "STEAM_" ++ [steamidShort.getD 0 0, 58, steamidShort.getD 1 0, 58] ++ steamidShort.drop 2

/-- `uid_str`: class flag, time, player and start of the run, with the flag replaced by an `x` for a
player whose runs are not submitted, and by the prefix where there is one. -/
def uidStr (gochecks timeMs : ℕ) (steamidShort : Bytes) (ts : ℕ) (noSubmit : Bool)
    (charPrefix : UInt8) : Bytes :=
  let uid := ((if 0 < gochecks then 49 else 48) :: (str "_" ++ decimal8 timeMs ++ str "_" ++
    steamidShort ++ str "_" ++ toBase36 ts)).take 63
  let uid := if noSubmit then uid.set 0 120 else uid
  if 0 < charPrefix then uid.set 0 charPrefix else uid

end KzGlobal.Replay.Text
