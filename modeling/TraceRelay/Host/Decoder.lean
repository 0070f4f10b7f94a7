/-
  TraceRelay — decoders for hosts.

  A host drives a session by values that it can hold: the operations return
  envelopes, `ok` with a value or not `ok` with an error's text, and events come
  as flat records.  The conversion of a value may fail; the operation then throws.

  * `HostDecoder.create` makes a decoder over a host's engine;
  * `HostDecoder.nextEvent` keeps a record whose conversion failed and presents
    it again before any other;
  * the `fault` of an operation is the failure of its conversion, if that fails.
-/
import TraceRelay.Handle
import TraceRelay.Host.Engine

namespace TraceRelay

/-! ## Envelopes -/

/-- The envelope of a call's result: whether it is `ok`, and the value or the
    error's text. -/
instance {α : Type} [ToHost α] : ToHost (Except SessionError α) where
  toHost
    | .ok a => .record [("ok", .bool true), ("value", toHost a)]
    | .error e => .record [("ok", .bool false), ("error", .text e.message)]

/-- A decoder over the engine of a host with state `η`. -/
structure HostDecoder (η : Type) where
  /-- The handle of the session. -/
  handle : Handle (HostEngine η)
  /-- The record that could not be converted and is still to be handed out. -/
  unsent : Option EventRecord := none

namespace HostDecoder

variable {η : Type}

/-- Presents the result of a call on the session.  An error is also shown on the
    host's console. -/
def respond {α : Type} [ToHost α] (fault : Option String) (unsent : Option EventRecord)
    (x : Step (Handle (HostEngine η)) (Except SessionError α)) :
    Step (HostDecoder η) (Except String HostValue) :=
  let warning :=
    match x.result with
    | .ok _ => #[]
    | .error e => #[.errorReturned e]
  ⟨convert fault x.result, ⟨x.state, unsent⟩, x.log ++ warning⟩

/-! ## Creation -/

section
variable [DecodeHost η]

/-- Creates a decoder.  If there is no session, the error's text is thrown; a
    refused decoder is no failure, but the session has an error then. -/
def create (mem : Allocator) (protocol : Int32) (traceId : UInt8) (selector : Int32)
    (fault : Option String) (host : η) : Step η (Except String (HostDecoder η)) :=
  let made := Handle.create mem (HostEngine.createTree traceId fault)
    (.ofSelectors protocol traceId selector) host
  match made.result with
  | .error e => ⟨.error e.message, made.state, made.log⟩
  | .ok handle =>
    ⟨.ok { handle }, made.state, made.log.push (.hostDecoderCreated traceId selector)⟩

/-! ## Operations -/

/-- Registers a memory image. -/
def addImage (fault : Option String) (d : HostDecoder η) (path : String)
    (loadAddress fileOffset size : UInt64) : Step (HostDecoder η) (Except String HostValue) :=
  respond fault d.unsent (d.handle.addImage (.ofString path) loadAddress fileOffset size)

/-- Feeds bytes.  The count of consumed bytes is a number: it never exceeds the
    number of bytes, and the greatest 32-bit word stands for greater ones. -/
def feed (mem : Allocator) (fault : Option String) (d : HostDecoder η) (data : ByteArray)
    (index : UInt64) : Step (HostDecoder η) (Except String HostValue) :=
  respond fault d.unsent <| (d.handle.feed mem data index).map fun result =>
    result.map fun n => UInt32.ofNat (min n (UInt32.size - 1))

/-- Flushes the engine. -/
def flush (mem : Allocator) (fault : Option String) (d : HostDecoder η) :
    Step (HostDecoder η) (Except String HostValue) :=
  respond fault d.unsent (d.handle.flush mem)

end

/-- The next record to be handed out: the one that is still unsent, else the
    oldest event's. -/
def nextRecord : HostDecoder η → Option EventRecord × Handle (HostEngine η)
  | ⟨handle, some record⟩ => (some record, handle)
  | ⟨handle, none⟩ =>
    let (event, handle) := handle.nextEvent
    (event.map Event.toRecord, handle)

/-- Hands out the next record, or no value if there is none.  A record whose
    conversion fails stays unsent. -/
def nextEvent (fault : Option String) (d : HostDecoder η) :
    Except String HostValue × HostDecoder η :=
  match d.nextRecord with
  | (none, handle) => (.ok .undefined, ⟨handle, none⟩)
  | (some record, handle) =>
    match convert fault record with
    | .ok value => (.ok value, ⟨handle, none⟩)
    | .error text => (.error text, ⟨handle, some record⟩)

/-- Whether the session has latched an error. -/
def hasError (d : HostDecoder η) : Bool :=
  d.handle.hasError

/-- The text of the session's latched error. -/
def message (d : HostDecoder η) : Option String :=
  d.handle.message

/-- Destroys the session, and discards the record that is still unsent. -/
def destroy (d : HostDecoder η) : Step (HostDecoder η) Bool :=
  d.handle.destroy.within fun handle => ⟨handle, none⟩

end HostDecoder

end TraceRelay
