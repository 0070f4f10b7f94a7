/-
  TraceRelay — collecting the events of an engine's reports.

  For one data operation the queue and the latch of a session are lent to a
  collector, the sink of that operation.

  * `Collector.collect` queues the event of a reported element and answers
    whether the engine may go on: it may not from the first event on that could
    not be queued, or if an error is latched already.
-/
import TraceRelay.Engine.Basic
import TraceRelay.EventQueue
import TraceRelay.Latch

namespace TraceRelay

/-- The sink of one data operation. -/
structure Collector where
  queue : EventQueue
  latch : Latch
  /-- The records emitted so far. -/
  log : Array LogRecord := #[]
deriving DecidableEq

/-- Receives one report.  Elements that have no event are dropped. -/
def Collector.collect (mem : Allocator) : Sink Collector
  | r, ⟨queue, latch, log⟩ =>
    if latch.isSet then (.abort, ⟨queue, latch, log⟩)
    else
      match r.element.event? with
      | none => (.proceed, ⟨queue, latch, log.push (.elementDropped r.element.kind r.index)⟩)
      | some event =>
        match queue.enqueue mem event with
        | ⟨.ok (), queue, pushed⟩ => (.proceed, ⟨queue, latch, log ++ pushed⟩)
        | ⟨.error e, queue, pushed⟩ =>
          let held := latch.set (.queueExhausted e)
          (.abort, ⟨queue, held.state, log ++ pushed ++ held.log⟩)

end TraceRelay
