/-
  TraceRelay — log records and steps.

  Every operation that logs is a step: it has a result, leaves a state and has
  emitted some records, in order.

  * `LogRecord` is what happened; its level and its text follow from it;
  * `Step σ α` is an operation's result, the state after it and its records.
-/
import TraceRelay.AddressRange
import TraceRelay.Element
import TraceRelay.Error

namespace TraceRelay

/-! ## Records -/

/-- Where a record goes and how much it matters. -/
inductive LogLevel where
  | trace
  | debug
  | warn
  | consoleLog
  | consoleWarn
deriving DecidableEq, Repr

instance : Named LogLevel where
  all := [.trace, .debug, .warn, .consoleLog, .consoleWarn]
  name
    | .trace => "TRACE"
    | .debug => "DEBUG"
    | .warn => "WARN"
    | .consoleLog => "console.log"
    | .consoleWarn => "console.warn"

/-- What a log record tells. -/
inductive LogRecord where
  /-- The event queue's store has doubled. -/
  | queueGrew (growth : Growth)
  /-- An element has no counterpart among the events. -/
  | elementDropped (kind : Element.Kind) (index : UInt64)
  /-- A session's first error. -/
  | errorLatched (error : SessionError)
  /-- An error after the first. -/
  | errorSuppressed (first error : SessionError)
  /-- The trace source's number is one that no source can have. -/
  | traceIdOutOfRange (traceId : UInt8)
  /-- The engine has built the decoder. -/
  | decoderCreated (decoder : Decoder) (traceId : UInt8)
  /-- The engine has taken a memory image. -/
  | imageRegistered (path : Path) (range : AddressRange)
  /-- The engine answered with a status that is not fatal. -/
  | softStatus (status : Status)
  /-- A session ends, and with it the events that were not taken. -/
  | sessionDestroyed (traceId : UInt8) (discarded : Nat)
  /-- The session to be destroyed is gone. -/
  | alreadyDestroyed
  /-- A host has its decoder. -/
  | hostDecoderCreated (traceId : UInt8) (selector : Int32)
  /-- A host's reply cannot be read, and why. -/
  | replyUnreadable (error : String)
  /-- A host is told of an error. -/
  | errorReturned (error : SessionError)
deriving DecidableEq, Repr

namespace LogRecord

/-- The level of a record. -/
def level : LogRecord → LogLevel
  | elementDropped .. | alreadyDestroyed => .trace
  | queueGrew _ | decoderCreated .. | imageRegistered .. | softStatus _ | sessionDestroyed .. =>
    .debug
  | errorLatched _ | errorSuppressed .. | traceIdOutOfRange _ => .warn
  | hostDecoderCreated .. | replyUnreadable _ => .consoleLog
  | errorReturned _ => .consoleWarn

/-- The text of a record. -/
def text : LogRecord → String
  | queueGrew g => s!"event queue grew from {g.before} to {g.after} slots ({g.queued} queued)"
  | elementDropped kind index =>
    "dropping " ++ Named.name kind ++ s!" element at index {index}"
  | errorLatched e => "latching session error: " ++ e.boundedMessage
  | errorSuppressed first e =>
    "error already latched (" ++ first.message ++ "); suppressing: " ++ e.message
  | traceIdOutOfRange id =>
    "trace id " ++ hexByte id ++
      " is outside 0x00..=0x7f; forwarding to the decoder unchanged"
  | decoderCreated decoder id =>
    "created " ++ Named.name decoder ++ " decoder for trace id " ++ hexByte id
  | imageRegistered path range => "registered memory image " ++ path.text ++ " at " ++ range.text
  | softStatus status => "engine reported non-fatal status: " ++ status.message
  | sessionDestroyed id discarded =>
    "destroying session for trace id " ++ hexByte id ++
      s!"; {discarded} undrained events discarded"
  | alreadyDestroyed => "destroy on an already destroyed session handle"
  | hostDecoderCreated id selector =>
    "decoder created for trace id " ++ hexByte id ++ s!", arch selector {selector.toInt}"
  | replyUnreadable error => "processData returned an unreadable reply: " ++ error
  | errorReturned e => e.message

end LogRecord

/-! ## Steps -/

/-- What an operation on a state yields. -/
structure Step (σ α : Type) where
  result : α
  state : σ
  /-- The records emitted, in order. -/
  log : Array LogRecord := #[]
deriving DecidableEq

namespace Step

variable {σ τ α β : Type}

/-- The step with another result. -/
def map (f : α → β) (x : Step σ α) : Step σ β :=
  { x with result := f x.result }

/-- The step of a part, as a step of the whole. -/
def within (f : σ → τ) (x : Step σ α) : Step τ α :=
  { x with state := f x.state }

/-- The step with records emitted before its own. -/
def after (log : Array LogRecord) (x : Step σ α) : Step σ α :=
  { x with log := log ++ x.log }

/-- A step, and one that starts from its result and state. -/
def bind (x : Step σ α) (f : α → σ → Step τ β) : Step τ β :=
  (f x.result x.state).after x.log

end Step

end TraceRelay
