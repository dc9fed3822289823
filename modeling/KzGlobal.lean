import KzGlobal.Lib.Loop
import KzGlobal.Lib.Packed
import KzGlobal.Lib.Layout
import KzGlobal.Lib.Sparse
import KzGlobal.Lib.Stdio
import KzGlobal.Lib.FileProgram
import KzGlobal.Lib.PosixPath
import KzGlobal.Lib.Numeral
import KzGlobal.Lib.Runs
import KzGlobal.Lib.Autoincrement
import KzGlobal.Lib.Crc
import KzGlobal.Lib.Merge
import KzGlobal.Lib.BitField
import KzGlobal.Lib.Rounding
import KzGlobal.Lib.Locks
import KzGlobal.Krp.Format
import KzGlobal.Krp.Codec
import KzGlobal.Krp.Records
import KzGlobal.Krp.Compress
import KzGlobal.Krp.Sections
import KzGlobal.Krp.Walk
import KzGlobal.Krp.Roundtrip
import KzGlobal.Krp.Cut
import KzGlobal.Krp.Flat
import KzGlobal.Krp.Frame
import KzGlobal.Krp.Archive
import KzGlobal.Replay.Text
import KzGlobal.Replay.Writer
import KzGlobal.Replay.Frames
import KzGlobal.Replay.Headers
import KzGlobal.Replay.Effect
import KzGlobal.Replay.Laws
import KzGlobal.Replay.Capture
import KzGlobal.Replay.Reader
import KzGlobal.Replay.Counts
import KzGlobal.Replay.Rejected
import KzGlobal.Replay.Paths
import KzGlobal.Replay.AdminPath
import KzGlobal.Replay.Saves
import KzGlobal.Replay.Selection
import KzGlobal.Replay.Best
import KzGlobal.Replay.Grammar
import KzGlobal.Replay.Prune
import KzGlobal.Replay.Uid
import KzGlobal.Replay.Isolation
import KzGlobal.Replay.LocalUid
import KzGlobal.Replay.Checksum
import KzGlobal.Replay.Ticks
import KzGlobal.Replay.WellFormed
import KzGlobal.Storage.Queue
import KzGlobal.Storage.Ledger
import KzGlobal.Storage.Pending
import KzGlobal.Storage.NoReply
import KzGlobal.Storage.Ids
import KzGlobal.Storage.Resend
import KzGlobal.Storage.Turns
import KzGlobal.Fetch.Reply
import KzGlobal.Submit.System
import KzGlobal.Submit.Custody
import KzGlobal.Submit.Kept
import KzGlobal.Submit.Upload
import KzGlobal.Submit.Edits
import KzGlobal.Submit.Reconnect
import KzGlobal.Submit.Flight
import KzGlobal.Submit.Accepted
import KzGlobal.Submit.Safekeeping
import KzGlobal.Submit.Confined
import KzGlobal.Submit.RecordFiles
import KzGlobal.Submit.Chunks
import KzGlobal.Playback.Threads
import KzGlobal.Playback.Deleted
import KzGlobal.Playback.MsTotal
import KzGlobal.Playback.Parser
import KzGlobal.Playback.Announce
import KzGlobal.Playback.Cursor
import KzGlobal.Playback.Usable
import KzGlobal.Playback.Recorded
import KzGlobal.Playback.OwnMap
import KzGlobal.Playback.Show
import KzGlobal.Players.Slots
import KzGlobal.Players.Bans
import KzGlobal.Players.SteamIds
import KzGlobal.Players.Presence
import KzGlobal.Fetch.Downloads
import KzGlobal.Fetch.Orphans
import KzGlobal.Fetch.Single
import KzGlobal.Fetch.MapLoads
import KzGlobal.Plugins.Callbacks
import KzGlobal.Plugins.Once
import KzGlobal.Connection.State
import KzGlobal.Connection.Policy
import KzGlobal.Connection.Hello
import KzGlobal.Connection.Cvars
import KzGlobal.Shutdown.Joins
import KzGlobal.Shutdown.Flush
import KzGlobal.Shutdown.LogOrder
import KzGlobal.Shutdown.Locks
import KzGlobal.Base.Bhop
import KzGlobal.Base.Blocks
import KzGlobal.Base.BhopBits
import KzGlobal.Base.Checkpoints
import KzGlobal.AntiCheat.Checks
import KzGlobal.AntiCheat.FrameRate
