import VbanStream.Library.Memory
import VbanStream.Library.Binary
import VbanStream.Library.Keyed
import VbanStream.Library.Circular
import VbanStream.Library.Run
import VbanStream.Library.Observe
import VbanStream.Library.Fallible
import VbanStream.Library.Stage
import VbanStream.Library.Checked
import VbanStream.Library.Overflow
import VbanStream.Protocol.Audio
import VbanStream.Protocol.Grammar
import VbanStream.Settings.Config
import VbanStream.Settings.Document
import VbanStream.Protocol.Network
import VbanStream.Buffer.StreamBuffer
import VbanStream.Buffer.Steps
import VbanStream.Buffer.Schedule
import VbanStream.Buffer.Filling
import VbanStream.Buffer.Reference
import VbanStream.Buffer.Tracking
import VbanStream.Buffer.Playout
import VbanStream.Buffer.Wraparound
import VbanStream.Buffer.Bounds
import VbanStream.Buffer.Starvation
import VbanStream.Buffer.Replay
import VbanStream.Video.FrameAssembler
import VbanStream.Video.FrameSender
import VbanStream.Video.Fragments
import VbanStream.Video.Assembly
import VbanStream.Video.Delivery
import VbanStream.Video.Soundness
import VbanStream.Video.Completeness
import VbanStream.Video.FragmentIndex
import VbanStream.Video.VideoReceiver
import VbanStream.Video.Isolation
import VbanStream.Video.ProgramOutput
import VbanStream.Video.Session
import VbanStream.Video.Captures
import VbanStream.Video.SendPacing
import VbanStream.Video.CaptureGate
import VbanStream.Video.Accounting
import VbanStream.Video.Fidelity
import VbanStream.Video.Ownership
import VbanStream.Video.AdaptiveQuality
import VbanStream.Receiver.Slot
import VbanStream.Receiver.SlotThreads
import VbanStream.Receiver.Routing
import VbanStream.Receiver.Threads
import VbanStream.Receiver.Dispatch
import VbanStream.Receiver.Reconfigure
import VbanStream.Receiver.Status
import VbanStream.Receiver.SlotView
import VbanStream.Receiver.Transparency
import VbanStream.Receiver.Overtaking
import VbanStream.Mouse.MouseReturn
import VbanStream.Mouse.Release
import VbanStream.Mouse.ProgramMouse
import VbanStream.Mouse.Agreement
import VbanStream.Mouse.HitTest
import VbanStream.Return.Encode
import VbanStream.Mouse.Wire
import VbanStream.Return.RoundTrip
import VbanStream.Return.Transmitter
import VbanStream.Return.Loopback
import VbanStream.Return.Report
import VbanStream.Return.FanOut
import VbanStream.Return.AudioRing
import VbanStream.Return.StereoTimeline
import VbanStream.Return.MonitorClock
import VbanStream.Return.MonitorReturn
import VbanStream.Return.Passthrough
import VbanStream.Return.BitExact
import VbanStream.Return.TimeConversion
import VbanStream.Return.Retiming
import VbanStream.Return.Provenance
import VbanStream.Return.EpochFence
import VbanStream.Return.FencedRing
import VbanStream.Return.Fencing
import VbanStream.Return.Worker
import VbanStream.Return.Playing
import VbanStream.Return.Progress
import VbanStream.Return.Gapless
import VbanStream.Return.Registry
import VbanStream.Buffer.Lossless
import VbanStream.Buffer.Startup
import VbanStream.Library.Regulator
import VbanStream.Library.Slots
import VbanStream.Library.Window
import VbanStream.Library.Cadence
import VbanStream.Library.Shares
import VbanStream.Library.Interpolation
import VbanStream.Library.Ledger
import VbanStream.Library.Traced
import VbanStream.Buffer.Pacing
import VbanStream.Buffer.Drift
import VbanStream.Buffer.Absorption
import VbanStream.Settings.Apply
import VbanStream.Settings.Reload
import VbanStream.Settings.Normalize
import VbanStream.Settings.Startup
import VbanStream.Plugin.VideoSource
import VbanStream.Plugin.AudioSource
