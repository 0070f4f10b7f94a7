/-
  TraceRelay — what consumers do with sessions.

  * `Session.Op` are the operations, `Session.perform` performs one and
    `Session.performAll` any number of them;
  * `Session.Reachable` are the sessions that come up;
  * `operate_of_isSet` and `operate_of_clear` say all that a data operation does;
  * `Session.Valid` is what holds of every session that comes up: its queue
    represents a list, and its phase tells whether an error is latched;
  * `Playback` is an engine to try sessions with.
-/
import TraceRelay.Proofs.Collector
import TraceRelay.Session

namespace TraceRelay

/-- A latch that was given an error holds the error that it returned. -/
theorem Latch.set_state_first (l : Latch) (e : SessionError) :
    (l.set e).state.first = some (l.set e).result := by
  rcases l with ⟨_ | first, n⟩ <;> rfl

namespace Session

variable {ε φ : Type}

/-! ## Operations -/

/-- The operations of a session. -/
inductive Op where
  | feed (data : ByteArray) (index : UInt64)
  | flush
  | addImage (path : Path) (loadAddress fileOffset size : UInt64)
  | nextEvent
  /-- Take up to `n` events from a drain, and drop it. -/
  | drain (n : Nat)

/-- What an operation answers. -/
inductive Answer where
  /-- The number of bytes consumed. -/
  | fed (result : Except SessionError Nat)
  | flushed (result : Except SessionError Unit)
  | imageAdded (result : Except SessionError Unit)
  /-- The events handed out. -/
  | events (es : List Event)

/-- The events that an answer hands out. -/
def Answer.handed : Answer → List Event
  | .events es => es
  | _ => []

/-- Whether an operation is a feed, a flush or an image.  The others take events. -/
def Op.produces : Op → Bool
  | .feed .. | .flush | .addImage .. => true
  | .nextEvent | .drain _ => false

/-- The data operation that an operation runs, if it runs one. -/
def Op.dataOp? : Op → Option (DataOp × UInt64 × ByteArray)
  | .feed data index => some (.data, index, data)
  | .flush => some (.flush, 0, .empty)
  | _ => none

/-- The error that a fatal status of that data operation stands for. -/
def Op.fatal : Op → Status → SessionError
  | .feed _ index => .decodeFailed index
  | _ => .flushFailed

/-- What the data operation's outcome is answered with. -/
def Op.answer : Op → Except SessionError Outcome → Answer
  | .feed data _, result => .fed (result.map fun outcome => min outcome.consumed.toNat data.size)
  | _, result => .flushed (result.map fun _ => ())

section
variable [DecodeEngine ε]

/-- Performs an operation.  The allocator is the one that it meets, should the
    queue have to grow: no operation asks it for the same size twice. -/
def perform (mem : Allocator) : Op → Session ε → Step (Session ε) Answer
  | .feed data index, s => (s.feed mem data index).map .fed
  | .flush, s => (s.flush mem).map .flushed
  | .addImage path loadAddress fileOffset size, s =>
    (s.addImage path loadAddress fileOffset size).map .imageAdded
  | .nextEvent, s => ⟨.events s.nextEvent.1.toList, s.nextEvent.2, #[]⟩
  | .drain n, s => ⟨.events (s.drain.take n).1, s.afterDrain (s.drain.take n).2, #[]⟩

/-- Performs operations one after the other, each with the allocator that it meets. -/
abbrev performAll : List (Allocator × Op) → Session ε → Step (Session ε) (List Answer) :=
  Step.chain fun call => perform call.1 call.2

/-- The sessions that come up: those that are created, and what operations make of them. -/
inductive Reachable : Session ε → Prop
  | create {φ : Type} {mem : Allocator} {tree : SourceFormat → φ → Step φ (Except Status ε)}
      {config : Config} {factory : φ} {s : Session ε}
      (h : (Session.create mem tree config factory).result = .ok s) : Reachable s
  | perform {s : Session ε} (h : Reachable s) (mem : Allocator) (op : Op) :
      Reachable (s.perform mem op).state

theorem Reachable.performAll {s : Session ε} (h : Reachable s) (calls : List (Allocator × Op)) :
    Reachable (s.performAll calls).state :=
  Step.chain_invariant (fun call _ h => h.perform call.1 call.2) calls h

/-! ## Creation -/

theorem configure_of_ok {s : Session ε}
    (h : (DecodeEngine.createDecoder s.config.decoder s.engine).result = .ok ()) :
    s.configure.state = { s with
      engine := (DecodeEngine.createDecoder s.config.decoder s.engine).state
      phase := .configured } := by
  simp only [configure, h]

theorem configure_of_error {s : Session ε} {status : Status}
    (h : (DecodeEngine.createDecoder s.config.decoder s.engine).result = .error status) :
    s.configure.state = { s with
      engine := (DecodeEngine.createDecoder s.config.decoder s.engine).state
      latch := (s.latch.set (.decoderRefused s.config.decoder.setup.decoder status)).state
      phase := .errored } := by
  simp only [configure, h]
  rfl

/-- The decoder that was asked for is there, or its refusal is latched. -/
theorem configure_state (s : Session ε) :
    let made := DecodeEngine.createDecoder s.config.decoder s.engine
    (made.result = .ok () ∧
      s.configure.state = { s with engine := made.state, phase := .configured }) ∨
    ∃ status, made.result = .error status ∧ s.configure.state = { s with
      engine := made.state
      latch := (s.latch.set (.decoderRefused s.config.decoder.setup.decoder status)).state
      phase := .errored } := by
  intro made
  cases hm : made.result with
  | ok => exact Or.inl ⟨rfl, configure_of_ok hm⟩
  | error status => exact Or.inr ⟨status, rfl, configure_of_error hm⟩

section
variable {mem : Allocator} {tree : SourceFormat → φ → Step φ (Except Status ε)} {config : Config}
  {factory factory' : φ} {queue : EventQueue} {log : Array LogRecord}

/-- Without a store the factory is left alone. -/
theorem create_of_noStore {cause : StoreError}
    (hq : Ring.create mem config.capacity config.slotLimit = (.error cause : Except _ EventQueue)) :
    create mem tree config factory = ⟨.error (.storeFailed cause), factory, #[]⟩ := by
  simp only [create, hq]

theorem create_of_noTree {status : Status}
    (hq : Ring.create mem config.capacity config.slotLimit = .ok queue)
    (ht : tree sessionFormat factory = ⟨.error status, factory', log⟩) :
    create mem tree config factory = ⟨.error (.treeRefused status), factory', log⟩ := by
  simp only [create, hq, ht]

theorem create_of_tree {engine : ε}
    (hq : Ring.create mem config.capacity config.slotLimit = .ok queue)
    (ht : (tree sessionFormat factory).result = .ok engine) :
    (create mem tree config factory).result =
      .ok (configure ⟨config, engine, #[], queue, {}, .created⟩).state := by
  simp only [create, hq, ht]

/-- Creation makes the queue and the engine, and configures the session. -/
theorem create_eq_ok {s : Session ε} (h : (create mem tree config factory).result = .ok s) :
    ∃ queue engine,
      Ring.create mem config.capacity config.slotLimit = .ok queue ∧
      (tree sessionFormat factory).result = .ok engine ∧
      s = (configure ⟨config, engine, #[], queue, {}, .created⟩).state := by
  cases hq : Ring.create mem config.capacity config.slotLimit with
  | error cause =>
    rw [create_of_noStore hq] at h
    cases h
  | ok queue =>
    rcases ht : tree sessionFormat factory with ⟨status | engine, factory', log⟩
    · rw [create_of_noTree hq ht] at h
      cases h
    · have hresult : (tree sessionFormat factory).result = .ok engine := by rw [ht]
      rw [create_of_tree hq hresult] at h
      exact ⟨queue, engine, rfl, rfl, (Except.ok.inj h).symm⟩

end

/-- A new session has its configuration and an empty queue. -/
theorem create_config_queue {mem : Allocator} {tree : SourceFormat → φ → Step φ (Except Status ε)}
    {config : Config} {factory : φ} {s : Session ε}
    (h : (create mem tree config factory).result = .ok s) :
    s.config = config ∧ Ring.create mem config.capacity config.slotLimit = .ok s.queue := by
  obtain ⟨queue, engine, hq, -, rfl⟩ := create_eq_ok h
  rcases configure_state (⟨config, engine, #[], queue, {}, .created⟩ : Session ε) with
    ⟨-, hc⟩ | ⟨status, -, hc⟩ <;> rw [hc] <;> exact ⟨rfl, hq⟩

theorem limit_create {mem : Allocator} {tree : SourceFormat → φ → Step φ (Except Status ε)}
    {config : Config} {factory : φ} {s : Session ε}
    (h : (create mem tree config factory).result = .ok s) : s.queue.limit = config.slotLimit := by
  rw [(Ring.create_eq_ok_iff.1 (create_config_queue h).2).2.2]

/-! ## Data operations -/

/-- A data operation as the engine and the collector run it. -/
abbrev deliverTo (mem : Allocator) (s : Session ε) (op : DataOp) (index : UInt64)
    (data : ByteArray) : Step ε Outcome × Collector :=
  (DecodeEngine.process op index data s.engine).deliver (Collector.collect mem)
    ⟨s.queue, s.latch, #[]⟩

/-- The latch after an operation that ends with a status; `fatal` is the error that a
    fatal status stands for. -/
def latchAfter (l : Latch) (status : Status) (fatal : SessionError) : Latch :=
  if status.disposition = .fatal then (l.set fatal).state else l

/-- The phase by the latch; `p` is the phase while no error is latched. -/
def phaseAfter (p : Phase) (l : Latch) : Phase :=
  if l.isSet then .errored else p

omit [DecodeEngine ε] in
/-- The first error stays. -/
theorem latchAfter_first {l : Latch} {e : SessionError} (h : l.first = some e) (status : Status)
    (fatal : SessionError) : (latchAfter l status fatal).first = some e := by
  unfold latchAfter
  split
  · rw [Latch.set, h]
  · exact h

omit [DecodeEngine ε] in
/-- What a status does: it may latch, and the error that is held then fails the call. -/
theorem settle_eq (s : Session ε) (status : Status) (fatal : SessionError) :
    (s.settle status fatal).state = { s with
      latch := latchAfter s.latch status fatal
      phase := phaseAfter s.phase (latchAfter s.latch status fatal) } ∧
    (s.settle status fatal).result =
      match (latchAfter s.latch status fatal).first with
      | some e => .error e
      | none => .ok () := by
  have hset := Latch.set_state_first s.latch fatal
  cases hd : status.disposition with
  | success | soft =>
    cases hl : s.latch.first <;>
      simp [settle, hd, conclude, latchAfter, phaseAfter, checkLatch, Latch.isSet, hl]
  | fatal => simp [settle, hd, fail, latchAfter, phaseAfter, Latch.isSet, hset]

variable {mem : Allocator} {s : Session ε} {op : DataOp} {index : UInt64} {data : ByteArray}
  {fatal : Status → SessionError}

/-- **A latched session does nothing but return its error.** -/
theorem operate_of_isSet {e : SessionError} (h : s.latch.first = some e) :
    s.operate mem op index data fatal = ⟨.error e, s, #[]⟩ := by
  simp only [operate, checkLatch, h]

/-- **All that a data operation does** to a session whose latch is clear. -/
theorem operate_of_clear (h : s.latch.first = none) :
    let x := s.deliverTo mem op index data
    let latch := latchAfter x.2.latch x.1.result.status (fatal x.1.result.status)
    let phase := if s.phase = .configured then .feeding else s.phase
    (s.operate mem op index data fatal).state =
      ⟨s.config, x.1.state, s.images, x.2.queue, latch, phaseAfter phase latch⟩ ∧
    (s.operate mem op index data fatal).result =
      match latch.first with
      | some e => .error e
      | none => .ok x.1.result := by
  intro x latch phase
  obtain ⟨hs, hr⟩ := settle_eq (s.run mem op index data).state x.1.result.status
    (fatal x.1.result.status)
  simp only [operate, checkLatch, h]
  refine ⟨hs, ?_⟩
  refine (congrArg (Except.map fun _ => x.1.result) hr).trans ?_
  change Except.map _ (match latch.first with | some e => .error e | none => .ok ()) = _
  cases latch.first <;> rfl

/-! ## What holds of all sessions -/

/-- The queue represents a list, and the phase tells whether an error is latched. -/
structure Valid (s : Session ε) : Prop where
  queue : s.queue.Represents s.queue.toList
  errored : s.latch.isSet = true → s.phase = .errored
  fed : s.latch.isSet = false → s.phase = .configured ∨ s.phase = .feeding

theorem Valid.create {tree : SourceFormat → φ → Step φ (Except Status ε)} {config : Config}
    {factory : φ} (h : (Session.create mem tree config factory).result = .ok s) : s.Valid := by
  obtain ⟨queue, engine, hq, -, rfl⟩ := create_eq_ok h
  have hr := (Ring.Represents.create hq).self
  rcases configure_state (⟨config, engine, #[], queue, {}, .created⟩ : Session ε) with
    ⟨-, hc⟩ | ⟨status, -, hc⟩ <;> rw [hc]
  · exact ⟨hr, nofun, fun _ => Or.inl rfl⟩
  · exact ⟨hr, fun _ => rfl, nofun⟩

/-- An engine that was offered a memory image, or left alone. -/
def Offered (engine engine' : ε) : Prop :=
  engine' = engine ∨ ∃ range path fileOffset,
    engine' = (DecodeEngine.addImage range .any path fileOffset engine).state

/-- Only the engine and the images are an image's concern. -/
theorem addImage_state (s : Session ε) (path : Path) (loadAddress fileOffset size : UInt64) :
    ∃ engine images, Offered s.engine engine ∧
      (s.addImage path loadAddress fileOffset size).state = { s with engine, images } := by
  unfold addImage
  cases Image.ofFile? path loadAddress fileOffset size with
  | none => exact ⟨s.engine, s.images, Or.inl rfl, rfl⟩
  | some image =>
    dsimp only
    split <;> exact ⟨_, _, Or.inr ⟨image.range, path, fileOffset, rfl⟩, rfl⟩

theorem perform_of_dataOp {dop : DataOp} {o : Op} (h : o.dataOp? = some (dop, index, data))
    (mem : Allocator) (s : Session ε) :
    s.perform mem o = (s.operate mem dop index data o.fatal).map o.answer := by
  cases o with
  | feed | flush => cases h; rfl
  | addImage | nextEvent | drain => cases h

theorem Op.handed_answer (o : Op) (result : Except SessionError Outcome) :
    (o.answer result).handed = [] := by
  cases o <;> rfl

theorem perform_of_not_produces {o : Op} (h : o.produces = false) (mem : Allocator)
    (s : Session ε) :
    ∃ n, (s.perform mem o).state = { s with queue := (s.queue.drain.take n).2.ring } ∧
      (s.perform mem o).result = .events (s.queue.drain.take n).1 := by
  cases o with
  | nextEvent => exact ⟨1, by rw [Ring.take_one]; rfl, by rw [Ring.take_one]; rfl⟩
  | drain n => exact ⟨n, rfl, rfl⟩
  | feed | flush | addImage => cases h

/-- Every operation runs a data operation, registers an image or takes events. -/
theorem perform_cases (mem : Allocator) (op : Op) (s : Session ε) :
    (∃ dop index data, op.dataOp? = some (dop, index, data) ∧
      s.perform mem op = (s.operate mem dop index data op.fatal).map op.answer) ∨
    (∃ engine images, op.dataOp? = none ∧ Offered s.engine engine ∧
      (s.perform mem op).state = { s with engine, images } ∧
      (s.perform mem op).result.handed = []) ∨
    (∃ n, op.dataOp? = none ∧
      (s.perform mem op).state = { s with queue := (s.queue.drain.take n).2.ring } ∧
      (s.perform mem op).result = .events (s.queue.drain.take n).1) := by
  cases op with
  | feed data index => exact Or.inl ⟨.data, index, data, rfl, perform_of_dataOp rfl mem s⟩
  | flush => exact Or.inl ⟨.flush, 0, .empty, rfl, perform_of_dataOp rfl mem s⟩
  | addImage path loadAddress fileOffset size =>
    obtain ⟨engine, images, ho, h⟩ := s.addImage_state path loadAddress fileOffset size
    exact Or.inr (Or.inl ⟨engine, images, rfl, ho, h, rfl⟩)
  | nextEvent =>
    obtain ⟨n, h⟩ := perform_of_not_produces (o := .nextEvent) rfl mem s
    exact Or.inr (Or.inr ⟨n, rfl, h⟩)
  | drain n => exact Or.inr (Or.inr ⟨n, rfl, rfl, rfl⟩)

theorem Valid.operate (h : s.Valid) : (s.operate mem op index data fatal).state.Valid := by
  cases hl : s.latch.first with
  | some e => rw [operate_of_isSet hl]; exact h
  | none =>
    rw [(operate_of_clear hl).1]
    have hq := (Collector.deliver_spec mem (c := ⟨s.queue, s.latch, #[]⟩)
      (DecodeEngine.process op index data s.engine) h.queue hl).1
    refine ⟨hq.self, fun hs => if_pos hs, fun hs => Or.inr ?_⟩
    have hp := h.fed (by rw [Latch.isSet, hl]; rfl)
    refine (if_neg (Bool.eq_false_iff.1 hs)).trans ?_
    rcases hp with hp | hp <;> rw [hp] <;> rfl

theorem Valid.perform (h : s.Valid) (mem : Allocator) (op : Op) :
    (s.perform mem op).state.Valid := by
  rcases perform_cases mem op s with ⟨dop, index, data, -, hs⟩ | ⟨engine, images, -, -, hs, -⟩ |
    ⟨n, -, hs, -⟩ <;> rw [hs]
  · exact h.operate
  · exact ⟨h.queue, h.errored, h.fed⟩
  · exact ⟨(h.queue.take n).self, h.errored, h.fed⟩

/-- **Every session that comes up is valid.** -/
theorem Reachable.valid (h : s.Reachable) : s.Valid := by
  induction h with
  | create h => exact .create h
  | perform _ mem op ih => exact ih.perform mem op

end

end Session

/-! ## An engine that plays back -/

/-- An operation that makes the given reports, whatever the responses. -/
def Reporting.ofReports {α : Type} (a : α) : List Report → Reporting α
  | [] => .done a
  | r :: rs => .report r fun _ => ofReports a rs

/-- An engine that plays back what it was given: for each data operation the reports
    and the outcome.  It does not mind being told to stop. -/
structure Playback where
  /-- What is still to be played. -/
  script : List (List Report × Outcome)
  /-- The status with which a decoder is refused, if it is. -/
  refusal : Option Status := none

namespace Playback

instance : DecodeEngine Playback where
  createDecoder _ p := ⟨p.refusal.elim (.ok ()) .error, p, #[]⟩
  addImage _ _ _ _ p := ⟨.ok (), p, #[]⟩
  process _ _ _ p :=
    match p.script with
    | [] => .done ⟨⟨.ok, 0⟩, p, #[]⟩
    | (reports, outcome) :: script => .ofReports ⟨outcome, { p with script }, #[]⟩ reports

/-- Makes a tree of what is to be played. -/
def tree (_ : SourceFormat) (p : Playback) : Step Playback (Except Status Playback) :=
  ⟨.ok p, p, #[]⟩

/-- The report that tracing resumed at `start`. -/
def resumed (start : UInt64) : Report :=
  ⟨0, 0x10, { kind := .traceOn, start }⟩

/-- A data operation with five reports, one of them of no event, and one without. -/
def five : Playback where
  script := [([resumed 1, resumed 2, ⟨0, 0x10, {}⟩, resumed 3, resumed 4], ⟨.ok, 8⟩),
    ([], ⟨.ok, 8⟩)]

/-- A configuration whose queue has room for three events. -/
def config : Config where
  traceId := 0x10
  capacity := 2
  limit := some 4

/-- A session with that configuration. -/
def session : Session Playback :=
  ⟨config, five, #[], ⟨Array.replicate 2 none, 0, 0, 4⟩, {}, .configured⟩

/-- Feeds, takes two events one after the other, and feeds again. -/
def calls : List (Allocator × Session.Op) :=
  [(.standard, .feed ⟨#[0, 0]⟩ 0), (.standard, .nextEvent), (.standard, .drain 1),
    (.standard, .feed ⟨#[0, 0]⟩ 2)]

end Playback

end TraceRelay
