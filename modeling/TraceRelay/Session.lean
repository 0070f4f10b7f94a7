/-
  TraceRelay — decode sessions.

  A session owns an engine, the memory images registered with it, the queue of
  decoded events and the latch for the first fatal error.  It is fed bytes and
  drained at the consumer's pace.

  * `Session.create` builds the queue, the decode tree and the decoder; a refused
    decoder does not fail it but latches;
  * `Session.feed` and `Session.flush` run the engine: once an error is latched
    they return it and leave the engine alone;
  * `Session.addImage` registers a memory image and never latches;
  * `Session.nextEvent` takes the oldest event, and `Session.drain` any number,
    whether or not an error is latched;
  * `Session.destroy` ends a session and leaves its engine to be released.
-/
import TraceRelay.Collector
import TraceRelay.Config
import TraceRelay.Image

namespace TraceRelay

/-- The phases of a session's life. -/
inductive Phase where
  /-- There is no decoder yet. -/
  | created
  /-- There is a decoder, and nothing was fed. -/
  | configured
  /-- Some feed or flush has reached the engine. -/
  | feeding
  /-- An error is latched. -/
  | errored
  | destroyed
deriving DecidableEq, Repr

instance : Named Phase where
  all := [.created, .configured, .feeding, .errored, .destroyed]
  name
    | .created => "Created"
    | .configured => "Configured"
    | .feeding => "Feeding"
    | .errored => "Errored"
    | .destroyed => "Destroyed"

/-- A session over an engine with state `ε`. -/
structure Session (ε : Type) where
  /-- What the session was created from. -/
  config : Config
  engine : ε
  /-- The registered images, in order. -/
  images : Array Image
  queue : EventQueue
  latch : Latch
  phase : Phase

namespace Session

variable {ε φ : Type}

/-! ## Latching -/

/-- Ends feeding with an error and returns the error held then. -/
def fail (s : Session ε) (e : SessionError) : Step (Session ε) SessionError :=
  (s.latch.set e).within fun latch => { s with latch, phase := .errored }

/-- The error held, as the failure of a call. -/
def checkLatch (s : Session ε) : Except SessionError Unit :=
  match s.latch.first with
  | some e => .error e
  | none => .ok ()

/-! ## Creation -/

section
variable [DecodeEngine ε]

/-- Asks the engine for the decoder.  A number that no trace source can have is
    passed on with a warning. -/
def configure (s : Session ε) : Step (Session ε) Unit :=
  let warning := if s.config.traceIdValid then #[] else #[.traceIdOutOfRange s.config.traceId]
  let decoder := s.config.decoder
  let made := DecodeEngine.createDecoder decoder s.engine
  let s := { s with engine := made.state }
  match made.result with
  | .ok () =>
    ⟨(), { s with phase := .configured },
      warning ++ made.log ++ #[.decoderCreated decoder.setup.decoder decoder.traceId]⟩
  | .error status =>
    ((s.fail (.decoderRefused decoder.setup.decoder status)).map fun _ => ()).after
      (warning ++ made.log)

/-- Creates a session over the engine that `tree` makes of `factory`.  Without a
    store for the queue, `tree` is not called. -/
def create (mem : Allocator) (tree : SourceFormat → φ → Step φ (Except Status ε))
    (config : Config) (factory : φ) : Step φ (Except SessionError (Session ε)) :=
  match Ring.create mem config.capacity config.slotLimit with
  | .error e => ⟨.error (.storeFailed e), factory, #[]⟩
  | .ok queue =>
    let made := tree sessionFormat factory
    match made.result with
    | .error status => ⟨.error (.treeRefused status), made.state, made.log⟩
    | .ok engine =>
      let session := configure
        { config, engine, images := #[], queue, latch := {}, phase := .created }
      ⟨.ok session.state, made.state, made.log ++ session.log⟩

/-! ## Images -/

/-- Registers `size` bytes of a file at `loadAddress`.  The engine is asked only
    if these bytes have addresses. -/
def addImage (s : Session ε) (path : Path) (loadAddress fileOffset size : UInt64) :
    Step (Session ε) (Except SessionError Unit) :=
  match Image.ofFile? path loadAddress fileOffset size with
  | none => ⟨.error (.imageRejected path .invalidParam), s, #[]⟩
  | some image =>
    let added := DecodeEngine.addImage image.range .any path fileOffset s.engine
    let s := { s with engine := added.state }
    match added.result with
    | .error status => ⟨.error (.imageRejected path status), s, added.log⟩
    | .ok () =>
      ⟨.ok (), { s with images := s.images.push image },
        added.log ++ #[.imageRegistered path image.range]⟩

/-! ## Decoding -/

/-- Runs a data operation of the engine, its reports going into the queue. -/
def run (mem : Allocator) (op : DataOp) (index : UInt64) (data : ByteArray) :
    Session ε → Step (Session ε) Outcome
  | ⟨config, engine, images, queue, latch, phase⟩ =>
    let phase := if phase = .configured then .feeding else phase
    let (ran, collector) :=
      (DecodeEngine.process op index data engine).deliver (Collector.collect mem)
        ⟨queue, latch, #[]⟩
    ⟨ran.result, ⟨config, ran.state, images, collector.queue, collector.latch, phase⟩,
      collector.log ++ ran.log⟩

/-- Concludes an operation whose status is not fatal: an error that was latched
    while it ran fails the call. -/
def conclude (s : Session ε) : Step (Session ε) (Except SessionError Unit) :=
  let s := if s.latch.isSet then { s with phase := .errored } else s
  ⟨s.checkLatch, s, #[]⟩

/-- Takes the status of an operation; `fatal` is the error that a fatal status
    stands for. -/
def settle (s : Session ε) (status : Status) (fatal : SessionError) :
    Step (Session ε) (Except SessionError Unit) :=
  match status.disposition with
  | .success => s.conclude
  | .soft => s.conclude.after #[.softStatus status]
  | .fatal => (s.fail fatal).map .error

/-- Runs a data operation unless an error is latched, and settles its status. -/
def operate (mem : Allocator) (s : Session ε) (op : DataOp) (index : UInt64) (data : ByteArray)
    (fatal : Status → SessionError) : Step (Session ε) (Except SessionError Outcome) :=
  match s.checkLatch with
  | .error e => ⟨.error e, s, #[]⟩
  | .ok () =>
    (s.run mem op index data).bind fun outcome s =>
      (s.settle outcome.status (fatal outcome.status)).map fun settled =>
        settled.map fun _ => outcome

/-- Feeds the bytes at `index` of the stream and returns how many of them were
    consumed: never more than there are, whatever the engine says. -/
def feed (mem : Allocator) (s : Session ε) (data : ByteArray) (index : UInt64) :
    Step (Session ε) (Except SessionError Nat) :=
  (s.operate mem .data index data (.decodeFailed index)).map fun result =>
    result.map fun outcome => min outcome.consumed.toNat data.size

/-- Has the engine report what it still holds. -/
def flush (mem : Allocator) (s : Session ε) : Step (Session ε) (Except SessionError Unit) :=
  (s.operate mem .flush 0 .empty .flushFailed).map fun result => result.map fun _ => ()

end

/-! ## Consumption -/

/-- Takes the oldest event. -/
def nextEvent : Session ε → Option Event × Session ε
  | ⟨config, engine, images, queue, latch, phase⟩ =>
    let (event, queue) := queue.pop
    (event, ⟨config, engine, images, queue, latch, phase⟩)

/-- A drain of the events that were not taken yet. -/
def drain (s : Session ε) : Drain Event :=
  s.queue.drain

/-- The session after its drain `d` was dropped. -/
def afterDrain (s : Session ε) (d : Drain Event) : Session ε :=
  { s with queue := d.ring }

/-- The number of events that were not taken yet. -/
def pending (s : Session ε) : Nat :=
  s.queue.length

/-! ## The end -/

/-- Ends the session.  The events that were not taken are discarded, and the
    engine is left to be released. -/
def destroy (s : Session ε) : Step ε Unit :=
  let (discarded, _) := s.queue.clear
  ⟨(), s.engine, #[.sessionDestroyed s.config.traceId discarded]⟩

end Session

end TraceRelay
