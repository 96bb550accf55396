import ForwardIntake.CommandLine
import ForwardIntake.Connection.Playback
import ForwardIntake.Main
import ForwardIntake.MessagePack.Writer
import ForwardIntake.Proofs.Connection.Limit
import ForwardIntake.Proofs.Connection.Segmentation
import ForwardIntake.Proofs.Connection.Steps
import ForwardIntake.Sink.Channel
import ForwardIntake.Sink.JsonLines
import ForwardIntake.Sink.Quota
import ForwardIntake.Value.Display
import ForwardIntake.Proofs.Connection.Buffering
import ForwardIntake.Proofs.MessagePack.Writing
import ForwardIntake.Proofs.Message.Shapes
import ForwardIntake.Proofs.Message.Canonical
import ForwardIntake.Proofs.Message.RecordSets
import ForwardIntake.Proofs.Connection.Clients
import ForwardIntake.Proofs.Listen.Calls
import ForwardIntake.Proofs.Listen.Sweeping
import ForwardIntake.Proofs.Listen.Waiting
import ForwardIntake.Proofs.Connection.Counting
import ForwardIntake.Proofs.Connection.Closing
import ForwardIntake.Proofs.Connection.Deciding
import ForwardIntake.Proofs.Connection.Guards
import ForwardIntake.Proofs.Listen.Once
import ForwardIntake.Proofs.Listen.Handover
import ForwardIntake.Proofs.Connection.Solo
import ForwardIntake.Proofs.Connection.Isolation
import ForwardIntake.Proofs.Message.Codecs
import ForwardIntake.Proofs.Message.Contents
import ForwardIntake.Proofs.Sink.JsonLines
import ForwardIntake.Proofs.Message.Cutting
import ForwardIntake.Proofs.Frame.Grammar
import ForwardIntake.Proofs.Frame.Resuming
import ForwardIntake.Proofs.Connection.Bounds
import ForwardIntake.Proofs.Message.FloatTimes
import ForwardIntake.Proofs.Message.AsBytes
import ForwardIntake.Proofs.Connection.Progress
