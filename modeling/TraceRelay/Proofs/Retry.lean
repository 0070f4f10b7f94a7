/-
  TraceRelay — a push that is refused.

  A full store must double before it can take a value, and may not be able to.
  The refusal comes before anything is moved, so that the ring buffer stays as it
  was, slot by slot, whether its values wrap or not.

  * `Ring.fst_push_eq_error_iff`: what a refusal tells of the ring buffer;
  * `Ring.isFull_pop`: there is room after a pop;
  * `EventQueue.performAll_retries`: trying again and again;
  * `EventQueue.enqueue_atomic`: the two outcomes of a push, after any run.
-/
import TraceRelay.Proofs.EventQueue

namespace TraceRelay

namespace Ring

variable {α : Type} {mem mem' : Allocator} {r : Ring α} {as : List α} {a : α} {err : StoreError}

/-! ## Refusals -/

/-- Growth asks the allocator for twice the slots, and for nothing else. -/
theorem growthRefusal?_congr (h : mem (2 * r.capacity) = mem' (2 * r.capacity)) :
    r.growthRefusal? mem = r.growthRefusal? mem' := by
  simp only [growthRefusal?, h]

theorem fst_push_eq_error_iff :
    (r.push mem a).1 = .error err ↔ r.isFull = true ∧ r.growthRefusal? mem = some err := by
  constructor
  · intro h
    rcases push_cases mem r a with ⟨_, hf, hg, hp⟩ | ⟨-, -, hp⟩ | ⟨-, hp⟩ <;> rw [hp] at h <;>
      cases h
    exact ⟨hf, hg⟩
  · rintro ⟨hf, hg⟩
    rw [push_of_refusal hf hg]

/-! ## Room -/

/-- There is room after a pop. -/
theorem isFull_pop (h : r.Represents as) : r.pop.2.isFull = false := by
  have hlt := h.length_lt
  have htwo := h.two_le
  rw [← Bool.not_eq_true, h.pop.toHolds.isFull_iff, capacity_pop, List.length_tail]
  omega

end Ring

namespace EventQueue

variable {mem : Allocator} {q : EventQueue} {e : Event} {err : StoreError}

/-! ## Appends -/

theorem enqueue_of_refusal (hf : q.isFull = true) (hg : q.growthRefusal? mem = some err)
    (e : Event) : q.enqueue mem e = ⟨.error err, q, #[]⟩ := by
  simp [enqueue, Ring.push_of_refusal hf hg]

theorem enqueue_of_room (hf : q.isFull = false) (mem : Allocator) (e : Event) :
    q.enqueue mem e = ⟨.ok (), q.store e, #[]⟩ := by
  simp [enqueue, Ring.push_of_room hf]

theorem refusal_of_enqueue (h : (q.enqueue mem e).result = .error err) :
    q.isFull = true ∧ q.growthRefusal? mem = some err := by
  rcases enqueue_cases mem q e with ⟨err', hp, hq⟩ | ⟨g, log, -, hq⟩ <;> rw [hq] at h <;> cases h
  exact Ring.fst_push_eq_error_iff.1 hp

/-- Trying again meets the same refusal, as long as the allocator does not change its mind on
    twice the slots. -/
theorem performAll_retries (hf : q.isFull = true) (hg : q.growthRefusal? mem = some err)
    (retries : List (Allocator × Event))
    (h : ∀ retry ∈ retries, retry.1 (2 * q.capacity) = mem (2 * q.capacity)) :
    performAll (retries.map fun retry => (retry.1, .push retry.2)) q =
      ⟨retries.map fun _ => .pushed (.error err), q, #[]⟩ := by
  induction retries with
  | nil => rfl
  | cons retry retries ih =>
    obtain ⟨hsame, hrest⟩ := List.forall_mem_cons.1 h
    have hretry : q.growthRefusal? retry.1 = some err := (Ring.growthRefusal?_congr hsame).trans hg
    have hstep : perform retry.1 (.push retry.2) q = ⟨.pushed (.error err), q, #[]⟩ := by
      rw [perform, enqueue_of_refusal hf hretry]
      rfl
    show (perform retry.1 (.push retry.2) q).bind _ = _
    rw [hstep]
    show ((performAll (retries.map fun retry => (retry.1, .push retry.2)) q).map _).after #[] = _
    rw [ih hrest]
    rfl

/-! ## The two outcomes -/

/-- **A push that is refused did not happen.**  Whatever was done to the queue before, it has the
    slots, the positions and the limit that it had, and no record is emitted; no number of further
    attempts gets through while the allocator's verdict stays; and one pop makes room.  A push that
    is not refused appends and leaves the limit, and the store has doubled iff one slot only was
    left. -/
theorem enqueue_atomic {c limit : UInt64} (h : Ring.create mem c limit = .ok q)
    (calls : List (Allocator × Op)) (allow : Allocator) (e : Event) :
    let run := (performAll calls q).state
    let pushed := run.enqueue allow e
    (∀ err, pushed.result = .error err →
      (pushed.state = run ∧ pushed.log = #[]) ∧
      (∀ retries : List (Allocator × Event),
        (∀ retry ∈ retries, retry.1 (2 * run.capacity) = allow (2 * run.capacity)) →
        performAll (retries.map fun retry => (retry.1, .push retry.2)) pushed.state =
          ⟨retries.map fun _ => .pushed (.error err), run, #[]⟩) ∧
      let popped : EventQueue := run.pop.2
      ∀ (allow' : Allocator) (e' : Event),
        let next := popped.enqueue allow' e'
        next.result = .ok () ∧ next.state.capacity = run.capacity ∧ next.log = #[]) ∧
    (pushed.result = .ok () →
      pushed.state.toList = run.toList ++ [e] ∧ pushed.state.limit = run.limit ∧
      pushed.state.capacity =
        if run.length = run.capacity - 1 then 2 * run.capacity else run.capacity) := by
  intro run pushed
  obtain ⟨es, -, hrun⟩ := performAll_listRun (Ring.Represents.create h) calls
  constructor
  · intro err herr
    obtain ⟨hf, hg⟩ := refusal_of_enqueue herr
    have hpushed : pushed = ⟨.error err, run, #[]⟩ := enqueue_of_refusal hf hg e
    rw [hpushed]
    refine ⟨⟨rfl, rfl⟩, ?_, ?_⟩
    · intro retries hsame
      exact performAll_retries hf hg retries hsame
    · intro popped allow' e' next
      have hnext : next = ⟨.ok (), run.pop.2.store e', #[]⟩ :=
        enqueue_of_room (Ring.isFull_pop hrun) allow' e'
      rw [hnext]
      refine ⟨rfl, ?_, rfl⟩
      rw [Ring.capacity_store, Ring.capacity_pop]
  · intro hok
    rcases enqueue_cases allow run e with ⟨err, -, hq⟩ | ⟨g, log, hp, hq⟩
    · have hpushed : pushed.result = .error err := congrArg Step.result hq
      rw [hpushed] at hok
      cases hok
    · have hpushed : pushed.state = (run.push allow e).2 := congrArg Step.state hq
      rw [hpushed]
      have hlist : (run.push allow e).2.toList = run.toList ++ [e] := by
        rw [(hrun.push hp).toHolds.toList, hrun.toHolds.toList]
      exact ⟨hlist, Ring.limit_push allow run e, hrun.toHolds.capacity_push_of_ok hp⟩

/-- Leaves three events that wrap, in four slots. -/
def wrapping : List (Allocator × Op) :=
  [(.standard, .push ⟨.traceOn 1, 0, 0⟩), (.standard, .push ⟨.traceOn 2, 0, 0⟩), (.standard, .pop),
    (.standard, .push ⟨.traceOn 3, 0, 0⟩), (.standard, .push ⟨.traceOn 4, 0, 0⟩)]

/-- The queue that is left, which may grow to eight slots. -/
def wrapped : EventQueue :=
  (performAll wrapping ⟨Array.replicate 4 none, 0, 0, 8⟩).state

/-- Events that wrap stay where they are if there is no memory, and move if there is. -/
theorem enqueue_atomic_wrapped :
    (Ring.create .standard 4 8 = .ok (⟨Array.replicate 4 none, 0, 0, 8⟩ : EventQueue) ∧
      wrapped.head < wrapped.tail) ∧
    ((wrapped.enqueue (fun _ => false) ⟨.traceOn 5, 0, 0⟩).result = .error (.allocationFailed 8) ∧
      (wrapped.enqueue (fun _ => false) ⟨.traceOn 5, 0, 0⟩).state = wrapped ∧
      ∀ allow e, (EventQueue.enqueue allow wrapped.pop.2 e).result = .ok ()) ∧
    (wrapped.enqueue .standard ⟨.traceOn 5, 0, 0⟩).result = .ok () ∧
    (wrapped.enqueue .standard ⟨.traceOn 5, 0, 0⟩).state.toList =
      [⟨.traceOn 2, 0, 0⟩, ⟨.traceOn 3, 0, 0⟩, ⟨.traceOn 4, 0, 0⟩, ⟨.traceOn 5, 0, 0⟩] ∧
    (wrapped.enqueue .standard ⟨.traceOn 5, 0, 0⟩).state.capacity = 8 := by
  have h : Ring.create .standard 4 8 = .ok (⟨Array.replicate 4 none, 0, 0, 8⟩ : EventQueue) := rfl
  have hdenied : (wrapped.enqueue (fun _ => false) ⟨.traceOn 5, 0, 0⟩).result =
      .error (.allocationFailed 8) := rfl
  have hgranted : (wrapped.enqueue .standard ⟨.traceOn 5, 0, 0⟩).result = .ok () := rfl
  obtain ⟨hrefused, -⟩ := enqueue_atomic h wrapping (fun _ => false) ⟨.traceOn 5, 0, 0⟩
  obtain ⟨-, htaken⟩ := enqueue_atomic h wrapping .standard ⟨.traceOn 5, 0, 0⟩
  obtain ⟨⟨hstate, -⟩, -, hnext⟩ := hrefused _ hdenied
  obtain ⟨hlist, -, hcapacity⟩ := htaken hgranted
  refine ⟨⟨h, by decide⟩, ⟨hdenied, hstate, ?_⟩, hgranted, hlist, hcapacity⟩
  intro allow e
  exact (hnext allow e).1

end EventQueue

end TraceRelay
