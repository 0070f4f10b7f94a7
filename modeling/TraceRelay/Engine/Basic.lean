/-
  TraceRelay — the contract with a decode engine.

  An engine decodes bytes and reports the elements that it finds while it is at
  it: after each report it waits for the response and may go on differently
  for each.  An operation is therefore a tree (`Reporting`), whose inner nodes
  are reports and whose leaves are outcomes.  Every run of it is finite, but the
  engine is free to report on after it was told to stop.

  * `DecodeEngine ε` are the operations of an engine with state `ε`;
  * `Reporting.deliver` runs an operation against a sink.
-/
import TraceRelay.Log

namespace TraceRelay

/-! ## What crosses the boundary -/

/-- The layout of the incoming bytes. -/
inductive SourceFormat where
  /-- Frames of several sources; `memAligned` frames have no markers between. -/
  | frameFormatted (memAligned : Bool)
  /-- The raw bytes of one source. -/
  | single
deriving DecidableEq, Repr

/-- The layout that every session asks for. -/
def sessionFormat : SourceFormat :=
  .frameFormatted true

/-- The data operations. -/
inductive DataOp where
  /-- Decode the bytes. -/
  | data
  /-- Report what is still buffered. -/
  | flush
deriving DecidableEq, Repr

/-- The memory space that an image belongs to. -/
inductive MemorySpace where
  /-- Every exception level and security state. -/
  | any
deriving DecidableEq, Repr

/-- The outcome of a data operation. -/
structure Outcome where
  status : Status
  consumed : UInt64
deriving DecidableEq, Repr

/-- One report of an engine. -/
structure Report where
  /-- The place in the stream. -/
  index : UInt64
  traceId : UInt8
  element : Element
deriving DecidableEq, Repr

/-- The response to a report. -/
inductive Response where
  | proceed
  | abort
deriving DecidableEq, Repr

/-! ## Operations that report -/

/-- An operation that makes reports before it yields its outcome. -/
inductive Reporting (α : Type) where
  | done (a : α)
  /-- A report, and how the operation goes on after each response. -/
  | report (r : Report) (next : Response → Reporting α)

/-- Receives reports, with a state of its own. -/
abbrev Sink (σ : Type) : Type := Report → σ → Response × σ

namespace Reporting

variable {α β σ : Type}

/-- Runs an operation against a sink. -/
def deliver (sink : Sink σ) : Reporting α → σ → α × σ
  | done a, s => (a, s)
  | report r next, s =>
    let (response, s) := sink r s
    deliver sink (next response) s

/-- The operation with another outcome. -/
def map (f : α → β) : Reporting α → Reporting β
  | done a => done (f a)
  | report r next => report r fun response => map f (next response)

/-- The operation that also yields the responses to its reports, after earlier
    ones. -/
def withResponses (earlier : Array Response) : Reporting α → Reporting (α × Array Response)
  | done a => done (a, earlier)
  | report r next =>
    report r fun response => withResponses (earlier.push response) (next response)

end Reporting

/-- The operations of a decode engine with state `ε`. -/
class DecodeEngine (ε : Type) where
  createDecoder : DecoderConfig → ε → Step ε (Except Status Unit)
  /-- Registers a section of a file as memory. -/
  addImage : AddressRange → MemorySpace → Path → UInt64 → ε → Step ε (Except Status Unit)
  /-- Decodes the bytes at an index of the stream. -/
  process : DataOp → UInt64 → ByteArray → ε → Reporting (Step ε Outcome)

end TraceRelay
