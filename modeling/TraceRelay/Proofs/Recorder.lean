/-
  TraceRelay — a recorder changes nothing.

  * `Reporting.responses` are the responses that an operation gets from a sink, and
    `EngineCall.isProcess` are the calls of data operations;
  * `deliver_process`: a recorded data operation is the operation itself, and what
    is recorded are its arguments, its responses and its outcome;
  * `create_unrecorded` and `performAll_unrecorded`: a session over a recorded
    engine is created, and goes on, as the session over the engine alone.
-/
import TraceRelay.Engine.Recorder
import TraceRelay.Proofs.Session.Run

namespace TraceRelay

/-! ## Operations and their responses -/

namespace Reporting

variable {α β σ : Type}

/-- The responses that an operation gets from a sink, in order. -/
def responses (sink : Sink σ) : Reporting α → σ → Array Response
  | done _, _ => #[]
  | report r next, s => #[(sink r s).1] ++ responses sink (next (sink r s).1) (sink r s).2

theorem deliver_map (sink : Sink σ) (f : α → β) (t : Reporting α) (s : σ) :
    (t.map f).deliver sink s = (f (t.deliver sink s).1, (t.deliver sink s).2) := by
  induction t generalizing s with
  | done a => rfl
  | report r next ih => exact ih _ _

theorem deliver_withResponses (sink : Sink σ) (earlier : Array Response) (t : Reporting α) (s : σ) :
    (t.withResponses earlier).deliver sink s =
      (((t.deliver sink s).1, earlier ++ t.responses sink s), (t.deliver sink s).2) := by
  induction t generalizing earlier s with
  | done a => simp [withResponses, responses]
  | report r next ih =>
    rw [withResponses, Reporting.deliver_report, ih, responses, Array.push_eq_append,
      Array.append_assoc]
    rfl

end Reporting

/-! ## Recorded engines -/

/-- Whether a call ran a data operation. -/
def EngineCall.isProcess : EngineCall → Bool
  | .process .. => true
  | _ => false

namespace Recorded

variable {ε σ : Type} [DecodeEngine ε]

/-- The data operations that reached the engine. -/
def processed (r : Recorded ε) : Array EngineCall :=
  r.calls.filter EngineCall.isProcess

theorem processed_addImage (range : AddressRange) (space : MemorySpace) (path : Path)
    (fileOffset : UInt64) (r : Recorded ε) :
    (DecodeEngine.addImage range space path fileOffset r).state.processed = r.processed :=
  Array.filter_push_of_neg nofun (Array.size_push _)

/-- **A recorded data operation is the operation itself.** -/
theorem deliver_process (sink : Sink σ) (op : DataOp) (index : UInt64) (data : ByteArray)
    (r : Recorded ε) (s : σ) :
    let t := DecodeEngine.process op index data r.inner
    let x := t.deliver sink s
    (DecodeEngine.process op index data r).deliver sink s =
      (x.1.within fun inner => ⟨inner, r.calls.push
        (.process op index data (t.responses sink s) x.1.result)⟩, x.2) := by
  refine (Reporting.deliver_map ..).trans ?_
  rw [Reporting.deliver_withResponses, Array.empty_append]

end Recorded

/-! ## Sessions over recorded engines -/

namespace Session

variable {ε φ : Type}

/-- The session over the engine alone. -/
def unrecorded (s : Session (Recorded ε)) : Session ε :=
  { s with engine := s.engine.inner }

theorem settle_unrecorded (s : Session (Recorded ε)) (status : Status) (fatal : SessionError) :
    (s.settle status fatal).within unrecorded = s.unrecorded.settle status fatal := by
  unfold settle
  cases status.disposition with
  | success | soft =>
    unfold conclude
    cases hl : s.latch.isSet <;> simp only [unrecorded, hl] <;> rfl
  | fatal => rfl

variable [DecodeEngine ε]

theorem run_unrecorded (mem : Allocator) (op : DataOp) (index : UInt64) (data : ByteArray)
    (s : Session (Recorded ε)) :
    (s.run mem op index data).within unrecorded = s.unrecorded.run mem op index data := by
  unfold run
  simp only [Recorded.deliver_process]
  rfl

theorem operate_unrecorded (mem : Allocator) (s : Session (Recorded ε)) (op : DataOp)
    (index : UInt64) (data : ByteArray) (fatal : Status → SessionError) :
    (s.operate mem op index data fatal).within unrecorded =
      s.unrecorded.operate mem op index data fatal := by
  have hc : s.unrecorded.checkLatch = s.checkLatch := rfl
  unfold operate
  rw [hc]
  cases s.checkLatch with
  | error e => rfl
  | ok _ =>
    dsimp only
    rw [← run_unrecorded]
    simp only [Step.bind, Step.within, Step.map, Step.after, ← settle_unrecorded]

theorem addImage_unrecorded (s : Session (Recorded ε)) (path : Path)
    (loadAddress fileOffset size : UInt64) :
    (s.addImage path loadAddress fileOffset size).within unrecorded =
      s.unrecorded.addImage path loadAddress fileOffset size := by
  unfold addImage
  cases Image.ofFile? path loadAddress fileOffset size with
  | none => rfl
  | some image =>
    have hr : (DecodeEngine.addImage image.range .any path fileOffset s.engine).result =
      (DecodeEngine.addImage image.range .any path fileOffset s.unrecorded.engine).result := rfl
    simp only [hr]
    cases (DecodeEngine.addImage image.range .any path fileOffset s.unrecorded.engine).result with
    | error status => rfl
    | ok _ => rfl

/-- **An operation** is not affected by the recorder. -/
theorem perform_unrecorded (mem : Allocator) (op : Op) (s : Session (Recorded ε)) :
    (s.perform mem op).within unrecorded = s.unrecorded.perform mem op := by
  cases op with
  | feed data index =>
    exact congrArg (Step.map _ ∘ Step.map _) (operate_unrecorded mem s .data index data _)
  | flush => exact congrArg (Step.map _ ∘ Step.map _) (operate_unrecorded mem s .flush 0 .empty _)
  | addImage path loadAddress fileOffset size =>
    exact congrArg (Step.map _) (addImage_unrecorded s path loadAddress fileOffset size)
  | nextEvent => rfl
  | drain n => rfl

/-- **A run** is not affected by the recorder. -/
theorem performAll_unrecorded (calls : List (Allocator × Op)) (s : Session (Recorded ε)) :
    (s.performAll calls).within unrecorded = s.unrecorded.performAll calls :=
  Step.chain_within (fun call s => perform_unrecorded call.1 call.2 s) calls s

theorem configure_unrecorded (s : Session (Recorded ε)) :
    s.configure.within unrecorded = s.unrecorded.configure := by
  have hr : (DecodeEngine.createDecoder s.config.decoder s.engine).result =
    (DecodeEngine.createDecoder s.config.decoder s.unrecorded.engine).result := rfl
  have hc : s.unrecorded.config = s.config := rfl
  unfold configure
  simp only [hr, hc]
  cases (DecodeEngine.createDecoder s.config.decoder s.unrecorded.engine).result <;> rfl

/-- **A session over a recorded engine** is created as one over the engine alone. -/
theorem create_unrecorded (mem : Allocator) (tree : SourceFormat → φ → Step φ (Except Status ε))
    (config : Config) (factory : Recorded φ) :
    ((create mem (Recorded.createTree tree) config factory).map fun made =>
      made.map unrecorded).within Recorded.inner = create mem tree config factory.inner := by
  unfold create
  cases Ring.create mem config.capacity config.slotLimit with
  | error e => rfl
  | ok queue =>
    simp only [Recorded.createTree]
    cases (tree sessionFormat factory.inner).result with
    | error status => rfl
    | ok engine =>
      have hu := configure_unrecorded ⟨config, ⟨engine, factory.calls.push
        (.createTree sessionFormat (.ok ()))⟩, #[], queue, {}, .created⟩
      exact congrArg (fun made : Step (Session ε) Unit => (⟨.ok made.state,
        (tree sessionFormat factory.inner).state,
        (tree sessionFormat factory.inner).log ++ made.log⟩ :
        Step φ (Except SessionError (Session ε)))) hu

end Session

/-- A new session that plays back `five`, with a recorder and a queue of `slots` slots. -/
def Playback.recorded (config : Config) (slots : Nat) : Session (Recorded Playback) where
  config := config
  engine := ⟨five, #[.createTree sessionFormat (.ok ()), .createDecoder config.decoder (.ok ())]⟩
  images := #[]
  queue := ⟨Array.replicate slots none, 0, 0, config.slotLimit⟩
  latch := {}
  phase := .configured

end TraceRelay
