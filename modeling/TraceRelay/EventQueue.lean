/-
  TraceRelay — the queue of events between the engine and the consumer.

  The queue is a ring buffer of events that logs its growth.
-/
import TraceRelay.Event
import TraceRelay.Log
import TraceRelay.Ring.Drain

namespace TraceRelay

/-- The queue of decoded events. -/
abbrev EventQueue : Type := Ring Event

/-- Appends an event.  The growth of a full queue is logged. -/
def EventQueue.enqueue (mem : Allocator) (q : EventQueue) (e : Event) :
    Step EventQueue (Except StoreError Unit) :=
  match q.push mem e with
  | (.ok none, q) => ⟨.ok (), q, #[]⟩
  | (.ok (some growth), q) => ⟨.ok (), q, #[.queueGrew growth]⟩
  | (.error e, q) => ⟨.error e, q, #[]⟩

end TraceRelay
