import VgmPlayback.Console.ChipMonitor
import VgmPlayback.Console.Dump
import VgmPlayback.Console.Failure
import VgmPlayback.Console.Invocation
import VgmPlayback.Console.Jukebox
import VgmPlayback.Console.RunResult
import VgmPlayback.Console.Summary
import VgmPlayback.Console.Table
import VgmPlayback.Console.UserCommand
import VgmPlayback.Files.FileTree
import VgmPlayback.Files.Folder
import VgmPlayback.Files.Gzip
import VgmPlayback.Files.TrackFile
import VgmPlayback.Format.Command
import VgmPlayback.Format.CommandCodec
import VgmPlayback.Format.Draft
import VgmPlayback.Format.Error
import VgmPlayback.Format.Gd3
import VgmPlayback.Format.Header
import VgmPlayback.Format.HeaderCodec
import VgmPlayback.Format.Opcode
import VgmPlayback.LittleEndian
import VgmPlayback.Main
import VgmPlayback.Playback.Notice
import VgmPlayback.Playback.Playthrough
import VgmPlayback.Playback.SampleClock
import VgmPlayback.Playback.Score
import VgmPlayback.Playlist.Error
import VgmPlayback.Playlist.Library
import VgmPlayback.Playlist.Player
import VgmPlayback.Playlist.RandomWords
import VgmPlayback.Playlist.Selector
import VgmPlayback.Storage.Error
import VgmPlayback.Storage.Medium
import VgmPlayback.Storage.Source
import VgmPlayback.Stream.CommandStream
import VgmPlayback.Stream.Fetch
import VgmPlayback.Stream.Fifo
import VgmPlayback.Stream.LoopHead
import VgmPlayback.Text.Blank
import VgmPlayback.Text.CharWidth
import VgmPlayback.Text.CodePoints
import VgmPlayback.Text.Emoji
import VgmPlayback.Text.Ligature
import VgmPlayback.Text.Numeral
import VgmPlayback.Text.Utf16
import VgmPlayback.Text.Width
import VgmPlayback.Proofs.HeaderReading
import VgmPlayback.Proofs.SourceActions
import VgmPlayback.Proofs.CommandParser
import VgmPlayback.Proofs.StreamReading
import VgmPlayback.Proofs.PlayingFromMemory
import VgmPlayback.Proofs.Transparency
import VgmPlayback.Proofs.PlayerRuns
import VgmPlayback.Proofs.Waits
import VgmPlayback.Proofs.Stalls
import VgmPlayback.Proofs.Tour
import VgmPlayback.Proofs.Schedules
import VgmPlayback.Proofs.Selection
import VgmPlayback.Proofs.MemoryLibraries
import VgmPlayback.Proofs.Provenance
import VgmPlayback.Proofs.FailingMedia
import VgmPlayback.Proofs.FaultTolerance
import VgmPlayback.Proofs.HeaderRoundTrip
import VgmPlayback.Proofs.DraftFiles
import VgmPlayback.Proofs.DraftPlayback
import VgmPlayback.Proofs.Switching
import VgmPlayback.Proofs.Abreast
import VgmPlayback.Proofs.Restarts
import VgmPlayback.Proofs.HeaderOutcomes
import VgmPlayback.Proofs.ReliableMedia
import VgmPlayback.Proofs.CountedPasses
import VgmPlayback.Proofs.FirstInFirstOut
import VgmPlayback.Proofs.Gd3Reading
import VgmPlayback.Proofs.Gd3RoundTrip
import VgmPlayback.Proofs.Skipping
import VgmPlayback.Proofs.InterruptedReads
import VgmPlayback.Proofs.MissedRequests
import VgmPlayback.Proofs.UnknownOpcodes
import VgmPlayback.Proofs.Counters
import VgmPlayback.Proofs.FailedSkips
import VgmPlayback.Proofs.FailedCopies
import VgmPlayback.Proofs.NamedRequests
import VgmPlayback.Proofs.SelectorLaws
import VgmPlayback.Proofs.DumpLines
import VgmPlayback.Proofs.DumpEndings
