/-
  TraceRelay — recording the calls that reach an engine.

  `Recorded ε` is an engine that behaves as the engine inside it and keeps the
  calls that it has got, each with its answer.
-/
import TraceRelay.Engine.Basic

namespace TraceRelay

/-- A call that reached an engine, with what came back. -/
inductive EngineCall where
  | createTree (format : SourceFormat) (answer : Except Status Unit)
  | createDecoder (config : DecoderConfig) (answer : Except Status Unit)
  | addImage (range : AddressRange) (space : MemorySpace) (path : Path) (fileOffset : UInt64)
      (answer : Except Status Unit)
  /-- A data operation was run; its reports got `responses`. -/
  | process (op : DataOp) (index : UInt64) (data : ByteArray) (responses : Array Response)
      (outcome : Outcome)

/-- A state with the calls that have been made on it. -/
structure Recorded (ε : Type) where
  inner : ε
  /-- The calls, in order. -/
  calls : Array EngineCall := #[]

namespace Recorded

variable {ε φ : Type}

/-- The creation of trees that record what is asked of them, starting with
    their own creation. -/
def createTree (tree : SourceFormat → φ → Step φ (Except Status ε)) (format : SourceFormat)
    (factory : Recorded φ) : Step (Recorded φ) (Except Status (Recorded ε)) :=
  let made := tree format factory.inner
  let calls := factory.calls.push (.createTree format (made.result.map fun _ => ()))
  ⟨made.result.map fun engine => ⟨engine, calls⟩, ⟨made.state, calls⟩, made.log⟩

instance [DecodeEngine ε] : DecodeEngine (Recorded ε) where
  createDecoder config r :=
    let made := DecodeEngine.createDecoder config r.inner
    made.within fun inner => ⟨inner, r.calls.push (.createDecoder config made.result)⟩
  addImage range space path fileOffset r :=
    let added := DecodeEngine.addImage range space path fileOffset r.inner
    added.within fun inner =>
      ⟨inner, r.calls.push (.addImage range space path fileOffset added.result)⟩
  process op index data r :=
    ((DecodeEngine.process op index data r.inner).withResponses #[]).map fun (run, responses) =>
      run.within fun inner =>
        ⟨inner, r.calls.push (.process op index data responses run.result)⟩

end Recorded

end TraceRelay
