/-
  TraceRelay — the event queue is a queue.

  A consumer that sees only what the operations of an event queue answer cannot
  tell it from a plain list to whose end events are added and from whose front
  they are taken.

  * `EventQueue.Op` are the operations, `EventQueue.perform` performs one;
  * `ListStep` and `ListRun` say what a plain list does;
  * `perform_listStep`: one operation, from any ring buffer that represents a list;
  * `performAll` performs any number of operations;
  * `listRun_of_create`: any number of operations on a new queue.
-/
import TraceRelay.EventQueue
import TraceRelay.Proofs.Ring.Capacity
import TraceRelay.Proofs.Run

namespace TraceRelay

namespace EventQueue

/-! ## Operations -/

/-- The operations of an event queue. -/
inductive Op where
  | push (e : Event)
  | pop
  /-- Take up to `n` events from a drain, and drop it. -/
  | drain (n : Nat)
  | clear

/-- What an operation answers. -/
inductive Answer where
  | pushed (result : Except StoreError Unit)
  | popped (e : Option Event)
  | drained (es : List Event)
  | cleared (n : Nat)

/-- Performs an operation.  The allocator is the one that it meets, should the
    queue have to grow. -/
def perform (mem : Allocator) : Op → EventQueue → Step EventQueue Answer
  | .push e, q => (q.enqueue mem e).map .pushed
  | .pop, q => ⟨.popped q.pop.1, q.pop.2, #[]⟩
  | .drain n, q => ⟨.drained (q.drain.take n).1, (q.drain.take n).2.ring, #[]⟩
  | .clear, q => ⟨.cleared q.clear.1, q.clear.2, #[]⟩

/-! ## Lists as queues -/

/-- What an operation answers on a list, and what it makes of the list.  An
    append may be refused. -/
inductive ListStep : List Event → Op → Answer → List Event → Prop
  | append {e es} : ListStep es (.push e) (.pushed (.ok ())) (es ++ [e])
  | refuse {e es err} : ListStep es (.push e) (.pushed (.error err)) es
  | popEmpty : ListStep [] .pop (.popped none) []
  | pop {e es} : ListStep (e :: es) .pop (.popped (some e)) es
  | drain {n es} : ListStep es (.drain n) (.drained (es.take n)) (es.drop n)
  | clear {es} : ListStep es .clear (.cleared es.length) []

/-- A number of operations on a list. -/
inductive ListRun : List Event → List Op → List Answer → List Event → Prop
  | nil {es} : ListRun es [] [] es
  | cons {es es' es'' op ops answer answers} (h : ListStep es op answer es')
      (hs : ListRun es' ops answers es'') : ListRun es (op :: ops) (answer :: answers) es''

/-! ## The event queue follows the list -/

/-- An append goes the way of the push, and only adds records. -/
theorem enqueue_cases (mem : Allocator) (q : EventQueue) (e : Event) :
    (∃ err, (q.push mem e).1 = .error err ∧ q.enqueue mem e = ⟨.error err, q, #[]⟩) ∨
    (∃ g log, (q.push mem e).1 = .ok g ∧ q.enqueue mem e = ⟨.ok (), (q.push mem e).2, log⟩) := by
  have hr := @Ring.push_snd_of_error _ mem q e
  unfold enqueue
  rcases h : q.push mem e with ⟨err | _ | g, r⟩
  · rw [h] at hr
    exact Or.inl ⟨err, rfl, by rw [← hr rfl]⟩
  · exact Or.inr ⟨none, #[], rfl, rfl⟩
  · exact Or.inr ⟨some g, #[.queueGrew g], rfl, rfl⟩

variable {q : EventQueue} {es : List Event}

/-- **One operation.**  The queue stands for a list again, to which a plain list
    would have come with the same answer. -/
theorem perform_listStep (h : q.Represents es) (mem : Allocator) (op : Op) :
    ∃ es', ListStep es op (perform mem op q).result es' ∧
      (perform mem op q).state.Represents es' := by
  cases op with
  | push e =>
    rcases enqueue_cases mem q e with ⟨err, -, hq⟩ | ⟨g, log, hp, hq⟩
    · exact ⟨es, by rw [perform, hq]; exact .refuse, by rw [perform, hq]; exact h⟩
    · exact ⟨es ++ [e], by rw [perform, hq]; exact .append, by rw [perform, hq]; exact h.push hp⟩
  | pop =>
    refine ⟨es.tail, ?_, h.pop⟩
    rw [perform, h.toHolds.pop_fst]
    cases es with
    | nil => exact .popEmpty
    | cons e es => exact .pop
  | drain n =>
    refine ⟨es.drop n, ?_, h.take n⟩
    rw [perform, h.toHolds.take_fst]
    exact .drain
  | clear =>
    refine ⟨[], ?_, h.clear⟩
    have hc : q.clear.1 = es.length := h.toHolds.length
    rw [perform, hc]
    exact .clear

/-! ## Runs -/

/-- Performs operations one after the other, each with the allocator that it meets. -/
abbrev performAll : List (Allocator × Op) → EventQueue → Step EventQueue (List Answer) :=
  Step.chain fun call => perform call.1 call.2

theorem performAll_listRun (h : q.Represents es) (calls : List (Allocator × Op)) :
    ∃ es', ListRun es (calls.map Prod.snd) (performAll calls q).result es' ∧
      (performAll calls q).state.Represents es' := by
  induction calls generalizing q es with
  | nil => exact ⟨es, .nil, h⟩
  | cons call calls ih =>
    obtain ⟨es', hs, h'⟩ := perform_listStep h call.1 call.2
    obtain ⟨es'', hr, h''⟩ := ih h'
    exact ⟨es'', .cons hs hr, h''⟩

/-- **An event queue is a queue.**  Whatever is done to a new queue, it answers as
    a list that was empty at first and ends as the list that it is read as; it has
    the length of that list, which is less than its capacity; and clearing it leaves
    a new queue of its capacity and limit. -/
theorem listRun_of_create {mem : Allocator} {c limit : UInt64} (h : Ring.create mem c limit = .ok q)
    (calls : List (Allocator × Op)) :
    let run := performAll calls q
    ListRun [] (calls.map Prod.snd) run.result run.state.toList ∧
    run.state.length = run.state.toList.length ∧
    (run.state.isEmpty = true ↔ run.state.toList = []) ∧
    run.state.length < run.state.capacity ∧
    ∀ allow : Allocator, allow run.state.capacity = true →
      Ring.create allow (.ofNat run.state.capacity) run.state.limit = .ok run.state.clear.2 := by
  intro run
  obtain ⟨es, hr, hq⟩ := performAll_listRun (Ring.Represents.create h) calls
  have hl : run.state.toList = es := hq.toHolds.toList
  rw [hl]
  refine ⟨hr, hq.toHolds.length, hq.toHolds.isEmpty_iff, ?_, fun allow ha => ?_⟩
  · rw [hq.toHolds.length]; exact hq.length_lt
  · exact Ring.create_eq_clear hq.toSized ha

/-- A queue that may not grow, then doubles, wraps, is full and is drained in part. -/
theorem listRun_of_create_four :
    Ring.create .standard 2 4 = .ok (⟨Array.replicate 2 none, 0, 0, 4⟩ : EventQueue) ∧
    ListRun []
      [.push ⟨.traceOn 1, 0, 0⟩, .push ⟨.traceOn 2, 0, 0⟩, .push ⟨.traceOn 3, 0, 0⟩, .pop,
        .push ⟨.traceOn 4, 0, 0⟩, .push ⟨.traceOn 5, 0, 0⟩, .push ⟨.traceOn 6, 0, 0⟩, .drain 2]
      [.pushed (.ok ()), .pushed (.error (.allocationFailed 4)), .pushed (.ok ()),
        .popped (some ⟨.traceOn 1, 0, 0⟩), .pushed (.ok ()), .pushed (.ok ()),
        .pushed (.error (.limitReached 4)), .drained [⟨.traceOn 3, 0, 0⟩, ⟨.traceOn 4, 0, 0⟩]]
      [⟨.traceOn 5, 0, 0⟩] :=
  ⟨rfl, (@listRun_of_create _ .standard 2 4 rfl
    [(.standard, .push ⟨.traceOn 1, 0, 0⟩), (fun _ => false, .push ⟨.traceOn 2, 0, 0⟩),
      (.standard, .push ⟨.traceOn 3, 0, 0⟩), (.standard, .pop),
      (.standard, .push ⟨.traceOn 4, 0, 0⟩), (.standard, .push ⟨.traceOn 5, 0, 0⟩),
      (.standard, .push ⟨.traceOn 6, 0, 0⟩), (.standard, .drain 2)]).1⟩

end EventQueue

end TraceRelay
