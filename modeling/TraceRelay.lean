import TraceRelay.Engine.Recorder
import TraceRelay.Handle
import TraceRelay.Host.Decoder
import TraceRelay.Json.Formats
import TraceRelay.Proofs.Capacity
import TraceRelay.Proofs.Draining
import TraceRelay.Proofs.Element
import TraceRelay.Proofs.EventRecord
import TraceRelay.Proofs.Host.Outbox
import TraceRelay.Proofs.Host.Replay
import TraceRelay.Proofs.Host.Reply
import TraceRelay.Proofs.Json.Completion
import TraceRelay.Proofs.Json.RoundTrip
import TraceRelay.Proofs.Latch
import TraceRelay.Proofs.Overflow
import TraceRelay.Proofs.Protocol
import TraceRelay.Proofs.Retry
import TraceRelay.Proofs.Ring.Growth
import TraceRelay.Proofs.Session.Frozen
import TraceRelay.Proofs.Session.Images
import TraceRelay.Proofs.Session.Latch
import TraceRelay.Proofs.Session.Schedule
import TraceRelay.Proofs.Session.Settlement
