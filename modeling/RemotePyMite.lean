import RemotePyMite.Bytes
import RemotePyMite.Channel.Basic
import RemotePyMite.Channel.Recorder
import RemotePyMite.Checksum
import RemotePyMite.Command.Basic
import RemotePyMite.Command.Directory
import RemotePyMite.Command.Dump
import RemotePyMite.Command.Failure
import RemotePyMite.Command.Line
import RemotePyMite.Command.Report
import RemotePyMite.Command.Run
import RemotePyMite.Command.Target
import RemotePyMite.Command.Task
import RemotePyMite.Command.Word
import RemotePyMite.Cursor
import RemotePyMite.Frame.Basic
import RemotePyMite.Frame.Decoder
import RemotePyMite.Frame.OfMessage
import RemotePyMite.Frame.Writer
import RemotePyMite.Link.Config
import RemotePyMite.Link.Error
import RemotePyMite.Link.IoError
import RemotePyMite.Link.Target
import RemotePyMite.Main
import RemotePyMite.Message.Autorun
import RemotePyMite.Message.Basic
import RemotePyMite.Message.Block
import RemotePyMite.Message.Error
import RemotePyMite.Message.Kind
import RemotePyMite.Message.MemoryMap
import RemotePyMite.Message.Sync
import RemotePyMite.Message.Thread
import RemotePyMite.Session.Basic
import RemotePyMite.Session.Calls
import RemotePyMite.Session.Error
import RemotePyMite.Session.Incoming
import RemotePyMite.Session.State
import RemotePyMite.Text.Blank
import RemotePyMite.Text.CharSet
import RemotePyMite.Text.Grapheme
import RemotePyMite.Text.Grapheme.Joining
import RemotePyMite.Text.Json
import RemotePyMite.Text.Numeral
import RemotePyMite.Text.Separated
import RemotePyMite.Text.Shortest
import RemotePyMite.Text.Table
import RemotePyMite.Text.Utf8
import RemotePyMite.Text.Width
import RemotePyMite.Text.Width.Cluster
import RemotePyMite.Text.Width.Letter
import RemotePyMite.Text.Width.Picture
import RemotePyMite.Text.Width.Wide
import RemotePyMite.Text.Width.Zero
import RemotePyMite.Text.Wrap
import RemotePyMite.Value.Basic
import RemotePyMite.Value.Decode
import RemotePyMite.Value.Encode
import RemotePyMite.Value.Error
import RemotePyMite.Value.Json
import RemotePyMite.Value.Print
import RemotePyMite.Value.Tag
import RemotePyMite.Proofs.Frame.Cut
import RemotePyMite.Proofs.Frame.Drain
import RemotePyMite.Proofs.Frame.Assembly
import RemotePyMite.Proofs.Frame.Passage
import RemotePyMite.Proofs.Frame.Segments
import RemotePyMite.Proofs.Frame.Interleaving
import RemotePyMite.Proofs.Frame.RoundTrip
import RemotePyMite.Proofs.Frame.Rows
import RemotePyMite.Proofs.Frame.Damage
import RemotePyMite.Proofs.Value.Encoding
import RemotePyMite.Proofs.Value.Rank
import RemotePyMite.Proofs.Value.Reading
import RemotePyMite.Proofs.Value.Consumption
import RemotePyMite.Proofs.Value.RoundTrip
import RemotePyMite.Proofs.Frame.Delivery
import RemotePyMite.Proofs.Channel.Arrival
import RemotePyMite.Proofs.Channel.Invariant
import RemotePyMite.Proofs.Session.Triple
import RemotePyMite.Proofs.Session.Incoming
import RemotePyMite.Proofs.Session.Sections
import RemotePyMite.Proofs.Session.AddBlock
import RemotePyMite.Proofs.Session.Unsendable
import RemotePyMite.Proofs.Text.Utf8
import RemotePyMite.Proofs.Text.Numeral
import RemotePyMite.Proofs.Message.Lists
import RemotePyMite.Proofs.Message.MemoryGrammar
import RemotePyMite.Proofs.Message.MemoryText
import RemotePyMite.Proofs.Message.MemoryReading
import RemotePyMite.Proofs.Session.Reads
import RemotePyMite.Proofs.Session.History
import RemotePyMite.Proofs.Session.Answer
import RemotePyMite.Proofs.Session.Steady
import RemotePyMite.Proofs.Session.Announcement
import RemotePyMite.Proofs.Session.Course
import RemotePyMite.Proofs.Session.OnCourse
import RemotePyMite.Proofs.Session.Turn
import RemotePyMite.Proofs.Session.Outstanding
import RemotePyMite.Proofs.Session.Guard
import RemotePyMite.Proofs.Session.Handshake
import RemotePyMite.Proofs.Frame.Grouping
import RemotePyMite.Proofs.Frame.Taken
import RemotePyMite.Proofs.Frame.Recovery
import RemotePyMite.Proofs.Frame.Soundness
import RemotePyMite.Proofs.Value.Heads
import RemotePyMite.Proofs.Value.Written
import RemotePyMite.Proofs.Value.Canonical
import RemotePyMite.Proofs.Session.Transfer
import RemotePyMite.Proofs.Session.Effort
import RemotePyMite.Proofs.Session.Limits
import RemotePyMite.Proofs.Frame.Blocks
import RemotePyMite.Proofs.Frame.Overrun
import RemotePyMite.Proofs.Checksum.Polynomial
import RemotePyMite.Proofs.Checksum.Remainder
import RemotePyMite.Proofs.Checksum.Detection
import RemotePyMite.Proofs.Frame.Corruption
import RemotePyMite.Proofs.Frame.Writing
import RemotePyMite.Proofs.Channel.Lifecycle
import RemotePyMite.Proofs.Channel.Hearing
import RemotePyMite.Proofs.Session.Synchronize
import RemotePyMite.Proofs.Value.Extension
import RemotePyMite.Proofs.Message.Segmentation
import RemotePyMite.Proofs.Session.Printing
import RemotePyMite.Proofs.Session.Asking
import RemotePyMite.Proofs.Session.Freshness
import RemotePyMite.Proofs.Value.Lengths
import RemotePyMite.Proofs.Value.Text
