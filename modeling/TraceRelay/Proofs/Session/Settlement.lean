/-
  TraceRelay — how feeds and flushes end.

  Two things can go wrong in one data operation: the queue refuses an event while the engine
  reports, and the status that the engine returns is fatal.  The refusal comes first, whatever the
  engine makes of the answer to it.

  * `Delivery.firstRefusal` is the queue's error for the first event that it refuses.
    `Collector.latch_deliver`: this is what a collector latches;
  * `Status.tolerated` are the statuses that fail no operation;
  * `Settled`: the result, the latch and the queue after an operation, by the refusal and the
    status;
  * `settled_of_clear`: feeds and flushes of a session with a clear latch end like this.
-/
import TraceRelay.Proofs.Session.Latch

namespace TraceRelay

/-! ## Refusals -/

namespace Delivery

/-- The queue's error, if there is an event and the queue refuses it. -/
def refusal? (d : Delivery) : Option StoreError :=
  d.event?.bind fun e =>
    match (d.collector.queue.push d.mem e).1 with
    | .ok _ => none
    | .error cause => some cause

/-- The queue's error for the first event that it refuses. -/
def firstRefusal (ds : List Delivery) : Option StoreError :=
  ds.findSome? refusal?

end Delivery

/-- **A collector latches the first refusal**, and no other. -/
theorem Collector.latch_deliver {α : Type} (mem : Allocator) {c : Collector} (t : Reporting α)
    (hc : c.latch.first = none) : (t.deliver (collect mem) c).2.latch = { c.latch with
      first := (Delivery.firstRefusal (deliveries mem t c)).map .queueExhausted } := by
  induction t generalizing c with
  | done a =>
    rw [Reporting.deliver_done, deliveries, Delivery.firstRefusal, List.findSome?_nil,
      Option.map_none, ← hc]
  | report r next ih =>
    rw [Reporting.deliver_report, deliveries, Delivery.firstRefusal, List.findSome?_cons,
      Delivery.refusal?]
    rcases collect_cases hc mem r with ⟨log, he, -, hr⟩ | ⟨e, g, log, he, -, hp, hr⟩ |
      ⟨e, err, log, he, -, hp, hr⟩ <;> rw [hr]
    · simp only [Delivery.event?, he, Option.bind_none]
      exact ih .proceed (c := ⟨c.queue, c.latch, log⟩) hc
    · simp only [Delivery.event?, he, Option.bind_some, hp]
      exact ih .proceed (c := ⟨(c.queue.push mem e).2, c.latch, log⟩) hc
    · simp only [Delivery.event?, he, Option.bind_some, hp]
      rw [deliver_of_isSet _ rfl]
      rfl

/-! ## Statuses -/

/-- The statuses that fail no operation. -/
def Status.tolerated : List Status :=
  [.ok, .flushComplete, .unsupportedPacket]

theorem Status.disposition_eq_fatal_iff (status : Status) :
    status.disposition = .fatal ↔ status ∉ tolerated := by
  cases status <;> decide

namespace Session

variable {ε : Type}

/-! ## How operations end -/

/-- `x` is how an operation on `s` ends with the deliveries `ds` and the status `status`: `a` is
    its answer if nothing fails it, and `fatal` the error that a fatal status stands for. -/
structure Settled {α : Type} (s : Session ε) (ds : List Delivery) (status : Status)
    (fatal : Status → SessionError) (a : α) (x : Step (Session ε) (Except SessionError α)) :
    Prop where
  fine : Delivery.firstRefusal ds = none → status ∈ Status.tolerated →
    x.result = .ok a ∧ x.state.latch = {}
  /-- A refusal is what is reported; a fatal status after it only counts. -/
  exhausted : ∀ cause, Delivery.firstRefusal ds = some cause →
    x.result = .error (.queueExhausted cause) ∧ x.state.latch =
      { first := some (.queueExhausted cause)
        suppressed := if status ∈ Status.tolerated then 0 else 1 }
  failed : Delivery.firstRefusal ds = none → status ∉ Status.tolerated →
    x.result = .error (fatal status) ∧
      x.state.latch = { first := some (fatal status), suppressed := 0 }
  queued : x.state.queue.toList = s.queue.toList ++ Delivery.accepted ds

theorem Settled.map {α β : Type} {s : Session ε} {ds : List Delivery} {status : Status}
    {fatal : Status → SessionError} {a : α} {x : Step (Session ε) (Except SessionError α)}
    (h : Settled s ds status fatal a x) (f : α → β) :
    Settled s ds status fatal (f a) (x.map fun result => result.map f) where
  fine hr hs := by
    obtain ⟨hx, hl⟩ := h.fine hr hs
    exact ⟨by rw [Step.map_result, hx]; rfl, hl⟩
  exhausted cause hr := by
    obtain ⟨hx, hl⟩ := h.exhausted cause hr
    exact ⟨by rw [Step.map_result, hx]; rfl, hl⟩
  failed hr hs := by
    obtain ⟨hx, hl⟩ := h.failed hr hs
    exact ⟨by rw [Step.map_result, hx]; rfl, hl⟩
  queued := h.queued

variable [DecodeEngine ε] {s : Session ε}

theorem settled_operate (hv : s.Valid) (hl : s.latch = {}) (mem : Allocator) {op : Op}
    {dop : DataOp} {index : UInt64} {data : ByteArray}
    (hd : op.dataOp? = some (dop, index, data)) (fatal : Status → SessionError) :
    let ran := (s.deliverTo mem dop index data).1.result
    Settled s (s.deliveries mem op) ran.status fatal ran
      (s.operate mem dop index data fatal) := by
  intro ran
  have hclear : s.latch.first = none := by rw [hl]
  obtain ⟨hstate, hresult⟩ := @operate_of_clear ε _ mem s dop index data fatal hclear
  -- the latch as the engine leaves it, before its status is looked at
  have hlatch : (s.deliverTo mem dop index data).2.latch =
      { first := (Delivery.firstRefusal (s.deliveries mem op)).map .queueExhausted } := by
    rw [deliveries_of_clear hclear hd]
    refine (Collector.latch_deliver mem (c := ⟨s.queue, s.latch, #[]⟩) _ hclear).trans ?_
    rw [hl]
  rw [hlatch] at hstate hresult
  refine ⟨?_, ?_, ?_, ?_⟩
  · intro hr hs
    have hsoft : ¬ ran.status.disposition = .fatal := by
      simpa [Status.disposition_eq_fatal_iff] using hs
    have hafter : latchAfter { first := none } ran.status (fatal ran.status) = {} :=
      if_neg hsoft
    rw [hr, Option.map_none, hafter] at hstate hresult
    exact ⟨hresult, by rw [hstate]⟩
  · intro cause hr
    have hafter : latchAfter { first := some (.queueExhausted cause) } ran.status
        (fatal ran.status) = { first := some (.queueExhausted cause)
                               suppressed := if ran.status ∈ Status.tolerated then 0 else 1 } := by
      by_cases hs : ran.status ∈ Status.tolerated
      · simp [latchAfter, Status.disposition_eq_fatal_iff, hs]
      · simp [latchAfter, Status.disposition_eq_fatal_iff, hs, Latch.set, UInt64.size]
    rw [hr, Option.map_some, hafter] at hstate hresult
    exact ⟨hresult, by rw [hstate]⟩
  · intro hr hs
    have hfatal := (Status.disposition_eq_fatal_iff ran.status).2 hs
    have hafter : latchAfter { first := none } ran.status (fatal ran.status) =
        { first := some (fatal ran.status), suppressed := 0 } := if_pos hfatal
    rw [hr, Option.map_none, hafter] at hstate hresult
    exact ⟨hresult, by rw [hstate]⟩
  · obtain ⟨hq, -⟩ := Collector.deliver_spec mem (c := ⟨s.queue, s.latch, #[]⟩)
      (DecodeEngine.process dop index data s.engine) hv.queue hclear
    rw [hstate, deliveries_of_clear hclear hd]
    exact hq.toHolds.toList

/-- **How feeds and flushes end.**  With a clear latch and no refusal, an operation succeeds iff
    its status is tolerated, and else fails with the error that the status stands for.  A refusal
    fails it with the queue's error, whatever the engine returns.  The events that were accepted
    stay queued in any case. -/
theorem settled_of_clear (hs : s.Reachable) (hl : s.latch.first = none) (mem : Allocator) :
    (∀ data index,
      let ran := (s.deliverTo mem .data index data).1.result
      Settled s (s.deliveries mem (.feed data index)) ran.status (.decodeFailed index)
        (min ran.consumed.toNat data.size) (s.feed mem data index)) ∧
    let ran := (s.deliverTo mem .flush 0 .empty).1.result
    Settled s (s.deliveries mem .flush) ran.status .flushFailed () (s.flush mem) := by
  obtain ⟨outcomes, ho⟩ := hs.accounted
  obtain ⟨hclear, -⟩ := ho.clear hl
  constructor
  · intro data index
    have hd : (Op.feed data index).dataOp? = some (.data, index, data) := rfl
    have h := settled_operate hs.valid hclear mem hd (.decodeFailed index)
    exact h.map fun outcome => min outcome.consumed.toNat data.size
  · have hd : Op.flush.dataOp? = some (.flush, 0, .empty) := rfl
    have h := settled_operate hs.valid hclear mem hd .flushFailed
    exact h.map fun _ => ()

end Session

namespace Playback

/-- A session whose first data operation makes the given reports and has the given outcome. -/
def scripted (reports : List Report) (outcome : Outcome) : Session Playback :=
  { session with engine := { script := [(reports, outcome)] } }

theorem reachable_scripted (reports : List Report) (outcome : Outcome) :
    (scripted reports outcome).Reachable :=
  @Session.Reachable.create Playback _ _ .standard tree config
    { script := [(reports, outcome)] } _ rfl

end Playback

namespace Session

open Playback in
/-- One event more than there is room for, and then a fatal status; a status that is tolerated,
    with more bytes consumed than there were; and a fatal status alone. -/
theorem settled_of_clear_failing :
    (failing.Reachable ∧ failing.latch.first = none ∧
      let fed := failing.feed .standard ⟨#[0, 0]⟩ 7
      fed.result = .error (.queueExhausted (.limitReached 4)) ∧
      fed.state.latch = { first := some (.queueExhausted (.limitReached 4)), suppressed := 1 } ∧
      fed.state.queue.toList = [⟨.traceOn 1, 0, -1⟩, ⟨.traceOn 2, 0, -1⟩, ⟨.traceOn 3, 0, -1⟩]) ∧
    (let fed := (scripted [resumed 1] ⟨.unsupportedPacket, 9⟩).feed .standard ⟨#[0, 0]⟩ 7
     fed.result = .ok 2 ∧ fed.state.latch = {}) ∧
    (let flushed := (scripted [resumed 1] ⟨.badPacket, 0⟩).flush .standard
     flushed.result = .error (.flushFailed .badPacket) ∧
     flushed.state.latch = { first := some (.flushFailed .badPacket), suppressed := 0 }) := by
  refine ⟨?_, ?_, ?_⟩
  · have hs : failing.Reachable := reachable_scripted ..
    have hrefused : Delivery.firstRefusal (failing.deliveries .standard (.feed ⟨#[0, 0]⟩ 7)) =
        some (.limitReached 4) := rfl
    obtain ⟨hfeed, -⟩ := settled_of_clear hs rfl .standard
    have h := hfeed ⟨#[0, 0]⟩ 7
    obtain ⟨hresult, hlatch⟩ := h.exhausted (.limitReached 4) hrefused
    exact ⟨hs, rfl, hresult, hlatch, h.queued⟩
  · obtain ⟨hfeed, -⟩ := settled_of_clear
      (reachable_scripted [resumed 1] ⟨.unsupportedPacket, 9⟩) rfl .standard
    exact (hfeed ⟨#[0, 0]⟩ 7).fine rfl (by decide)
  · obtain ⟨-, hflush⟩ := settled_of_clear
      (reachable_scripted [resumed 1] ⟨.badPacket, 0⟩) rfl .standard
    exact hflush.failed rfl (by decide)

end Session

end TraceRelay
