/-
  TraceRelay — a latched session is frozen.

  * `processed_perform`: no operation on a latched session runs a data operation of
    the engine;
  * `queue_of_lost`: the queue that a lost event finds full is the queue
    that is left when the operation is over;
  * `frozen_of_latched`: after an error is latched, nothing is left to a session
    but to hand out its events and to take images.
-/
import TraceRelay.Proofs.Recorder
import TraceRelay.Proofs.Session.Delivery

namespace TraceRelay

namespace Session

variable {ε : Type} [DecodeEngine ε]

section
variable {mem : Allocator} {s : Session ε} {op : Op} {d : Delivery}

/-! ## The moment of latching -/

/-- **From the lost event on** the queue is what the operation leaves. -/
theorem queue_of_lost (hd : d ∈ s.deliveries mem op)
    (h : d.lost = true ∨ d.collector.latch.isSet = true) :
    d.collector.queue = (s.perform mem op).state.queue := by
  cases hl : s.latch.first with
  | some e => rw [deliveries_of_isSet (by rw [Latch.isSet, hl]; rfl)] at hd; cases hd
  | none =>
    rcases perform_cases mem op s with ⟨dop, index, data, ho, hs⟩ | ⟨_, _, ho, -⟩ |
      ⟨n, ho, -⟩ <;> rw [deliveries, ho] at hd
    · simp only [Latch.isSet, hl] at hd
      rw [hs, Step.map_state, (operate_of_clear hl).1]
      exact Collector.queue_of_mem_deliveries _ hl d hd h
    · cases hd
    · cases hd

/-! ## Steps of a latched session -/

theorem latch_performAll (h : s.latch.isSet = true) (calls : List (Allocator × Op)) :
    (s.performAll calls).state.latch = s.latch :=
  Step.chain_invariant (P := fun s' : Session ε => s'.latch = s.latch)
    (fun call s' hl => (latch_perform (by rw [hl]; exact h) call.1 call.2).trans hl) calls rfl

/-- What a latched session still hands out. -/
theorem handed_of_isSet (hv : s.Valid) (h : s.latch.isSet = true) (calls : List (Allocator × Op)) :
    handed (s.performAll calls).result ++ (s.performAll calls).state.queue.toList =
      s.queue.toList := by
  rw [performAll_delivery hv, deliveriesAll_of_isSet h, Delivery.accepted_nil, List.append_nil]

end

variable {s : Session (Recorded ε)} {e : SessionError}

theorem Offered.processed {engine engine' : Recorded ε} (h : Offered engine engine') :
    engine'.processed = engine.processed := by
  rcases h with rfl | ⟨range, path, fileOffset, rfl⟩
  · rfl
  · exact Recorded.processed_addImage range .any path fileOffset engine

/-- No operation on a latched session runs a data operation of the engine. -/
theorem processed_perform (h : s.latch.isSet = true) (mem : Allocator) (op : Op) :
    (s.perform mem op).state.engine.processed = s.engine.processed := by
  obtain ⟨e, he⟩ := Option.isSome_iff_exists.1 h
  rcases perform_cases mem op s with ⟨dop, index, data, -, hs⟩ |
    ⟨engine, images, -, ho, hs, -⟩ | ⟨n, -, hs, -⟩ <;> rw [hs]
  · rw [operate_of_isSet he]; rfl
  · exact ho.processed

theorem processed_performAll (h : s.latch.isSet = true) (calls : List (Allocator × Op)) :
    (s.performAll calls).state.engine.processed = s.engine.processed :=
  (Step.chain_invariant
    (P := fun s' : Session (Recorded ε) =>
      s'.latch = s.latch ∧ s'.engine.processed = s.engine.processed)
    (fun call s' hs' =>
      have hl : s'.latch.isSet = true := by rw [hs'.1]; exact h
      ⟨(latch_perform hl call.1 call.2).trans hs'.1,
        (processed_perform hl call.1 call.2).trans hs'.2⟩)
    calls ⟨rfl, rfl⟩).2

/-! ## The run -/

/-- **A latched session is frozen.**  Whatever is asked of it, its error and its phase
    stay, and it hands out the events that were queued when the error was latched,
    in order.  A feed or a flush does nothing but return the error. -/
theorem frozen_of_latched (hs : s.Reachable) (he : s.latch.first = some e)
    (calls : List (Allocator × Op)) :
    let run := s.performAll calls
    let taken := handed run.result
    (run.state.latch = s.latch ∧ run.state.phase = .errored) ∧
    (∀ mem data index, run.state.feed mem data index = ⟨.error e, run.state, #[]⟩) ∧
    (∀ mem, run.state.flush mem = ⟨.error e, run.state, #[]⟩) ∧
    run.state.engine.processed = s.engine.processed ∧
    taken = s.queue.toList.take taken.length ∧
    run.state.nextEvent.1 = s.queue.toList[taken.length]? ∧
    (∀ n, (run.state.drain.take n).1 = (s.queue.toList.drop taken.length).take n) ∧
    ∀ (s₀ : Session (Recorded ε)) mem op, (s₀.perform mem op).state = s →
      ∀ d ∈ s₀.deliveries mem op,
        d.lost = true ∨ d.collector.latch.isSet = true → d.collector.queue = s.queue := by
  intro run taken
  have hset : s.latch.isSet = true := by rw [Latch.isSet, he]; rfl
  have hv : run.state.Valid := (hs.performAll calls).valid
  have hlatch : run.state.latch = s.latch := latch_performAll hset calls
  have hfirst : run.state.latch.first = some e := by rw [hlatch, he]
  have htaken : taken ++ run.state.queue.toList = s.queue.toList :=
    handed_of_isSet hs.valid hset calls
  have hrest : s.queue.toList.drop taken.length = run.state.queue.toList := by
    rw [← htaken, List.drop_left]
  refine ⟨⟨hlatch, hv.errored (by rw [hlatch]; exact hset)⟩, ?_, ?_,
    processed_performAll hset calls, ?_, ?_, ?_, ?_⟩
  · intro mem data index
    rw [feed, operate_of_isSet hfirst]; rfl
  · intro mem
    rw [flush, operate_of_isSet hfirst]; rfl
  · rw [← htaken, List.take_left]
  · rw [← List.head?_drop, hrest]
    exact hv.queue.toHolds.pop_fst
  · intro n
    rw [hrest]
    exact hv.queue.toHolds.take_fst n
  · rintro s₀ mem op rfl d hd hl
    exact queue_of_lost hd hl

end Session

/-! ## An exhausted session -/

namespace Playback

/-- A session after four events came to its queue for three. -/
def exhausted : Session (Recorded Playback) :=
  ((recorded config 2).perform .standard (.feed ⟨#[0, 0]⟩ 0)).state

/-- Takes an event, tries to feed, and takes the other events. -/
def emptying : List (Allocator × Session.Op) :=
  [(.standard, .nextEvent), (.standard, .feed ⟨#[0, 0]⟩ 2), (.standard, .drain 5)]

end Playback

namespace Session

/-- Room in its queue does not make an exhausted session go on. -/
theorem frozen_of_latched_exhausted :
    Playback.exhausted.Reachable ∧
    Playback.exhausted.latch.first = some (.queueExhausted (.limitReached 4)) ∧
    (let s := (Playback.exhausted.performAll Playback.emptying).state
     s.nextEvent.1 = none ∧
     ∀ mem, s.flush mem = ⟨.error (.queueExhausted (.limitReached 4)), s, #[]⟩) ∧
    ∃ d ∈ (Playback.recorded Playback.config 2).deliveries .standard (.feed ⟨#[0, 0]⟩ 0),
      d.lost = true ∧ d.collector.queue = Playback.exhausted.queue := by
  have hr : Playback.exhausted.Reachable :=
    .perform (@Reachable.create (Recorded Playback) _ _ .standard
      (Recorded.createTree Playback.tree) Playback.config ⟨.five, #[]⟩
      (Playback.recorded Playback.config 2) rfl) .standard (.feed ⟨#[0, 0]⟩ 0)
  obtain ⟨-, -, hf, -, -, hn, -, hm⟩ := frozen_of_latched hr rfl Playback.emptying
  obtain ⟨d, hd, hl⟩ := List.any_eq_true.1
    (rfl : ((Playback.recorded Playback.config 2).deliveries .standard
      (.feed ⟨#[0, 0]⟩ 0)).any Delivery.lost = true)
  exact ⟨hr, rfl, ⟨hn, hf⟩, d, hd, hl,
    hm (Playback.recorded Playback.config 2) .standard (.feed ⟨#[0, 0]⟩ 0) rfl d hd (Or.inl hl)⟩

end Session

end TraceRelay
