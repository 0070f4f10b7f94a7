/-
  TraceRelay — sessions deliver exactly the accepted events.

  * `Session.deliveriesAll` are the reports that come to a session's collectors in
    the course of a run, in order;
  * `perform_delivery` is the step: what an operation hands out and what is pending
    after it are what was pending before it and what it accepted;
  * `handed_append_pending` is the run: the events handed out and those still
    pending are the accepted ones, each once and in order.
-/
import TraceRelay.Proofs.Session.Run

namespace TraceRelay

namespace Session

variable {ε φ : Type} [DecodeEngine ε]

/-- The reports that come to the collector of an operation.  There is none if the
    operation runs no data operation, or if an error is latched. -/
def deliveries (mem : Allocator) (op : Op) (s : Session ε) : List Delivery :=
  match op.dataOp? with
  | none => []
  | some (op, index, data) =>
    if s.latch.isSet then []
    else Collector.deliveries mem (DecodeEngine.process op index data s.engine)
      ⟨s.queue, s.latch, #[]⟩

/-- The reports of all operations of a run, in order. -/
def deliveriesAll : List (Allocator × Op) → Session ε → List Delivery
  | [], _ => []
  | (mem, op) :: calls, s => s.deliveries mem op ++ (s.perform mem op).state.deliveriesAll calls

/-- The events handed out in the course of a run, in order. -/
def handed (answers : List Answer) : List Event :=
  answers.flatMap Answer.handed

variable {mem : Allocator} {s : Session ε} {op : Op}

theorem deliveries_of_isSet (h : s.latch.isSet = true) : s.deliveries mem op = [] := by
  rw [deliveries]
  split
  · rfl
  · exact if_pos h

theorem deliveries_of_clear (h : s.latch.first = none) {dop : DataOp} {index : UInt64}
    {data : ByteArray} (hd : op.dataOp? = some (dop, index, data)) :
    s.deliveries mem op = Collector.deliveries mem
      (DecodeEngine.process dop index data s.engine) ⟨s.queue, s.latch, #[]⟩ := by
  rw [deliveries, hd]
  exact if_neg (by rw [Latch.isSet, h]; exact Bool.false_ne_true)

/-! ## What stays -/

theorem limit_perform (mem : Allocator) (op : Op) (s : Session ε) :
    (s.perform mem op).state.queue.limit = s.queue.limit := by
  rcases perform_cases mem op s with ⟨dop, index, data, -, hs⟩ | ⟨_, _, -, -, hs, -⟩ |
    ⟨n, -, hs, -⟩ <;> rw [hs]
  · rw [Step.map_state]
    cases hl : s.latch.first with
    | some e => rw [operate_of_isSet hl]
    | none =>
      rw [(operate_of_clear hl).1]
      exact Collector.limit_deliver mem _ _
  · exact Ring.limit_take n s.queue

theorem latch_perform (h : s.latch.isSet = true) (mem : Allocator) (op : Op) :
    (s.perform mem op).state.latch = s.latch := by
  obtain ⟨e, he⟩ := Option.isSome_iff_exists.1 h
  rcases perform_cases mem op s with ⟨dop, index, data, -, hs⟩ | ⟨_, _, -, -, hs, -⟩ |
    ⟨n, -, hs, -⟩ <;> rw [hs]
  rw [operate_of_isSet he]
  rfl

theorem deliveriesAll_of_isSet (h : s.latch.isSet = true) (calls : List (Allocator × Op)) :
    s.deliveriesAll calls = [] := by
  induction calls generalizing s with
  | nil => rfl
  | cons call calls ih =>
    rw [deliveriesAll, deliveries_of_isSet h, ih (by rw [latch_perform h]; exact h)]; rfl

/-! ## The step -/

/-- **What an operation does to the pending events.**  If it loses an event, an
    error is latched after it. -/
theorem perform_delivery (h : s.Valid) (mem : Allocator) (op : Op) :
    (s.perform mem op).result.handed ++ (s.perform mem op).state.queue.toList =
      s.queue.toList ++ Delivery.accepted (s.deliveries mem op) ∧
    ((s.deliveries mem op).any Delivery.lost = true →
      (s.perform mem op).state.latch.isSet = true) := by
  rcases perform_cases mem op s with ⟨dop, index, data, hd, hs⟩ |
    ⟨engine, images, hd, -, hs, hh⟩ | ⟨n, hd, hs, hh⟩
  · rw [hs, Step.map_result, Op.handed_answer, List.nil_append, Step.map_state]
    cases hl : s.latch.first with
    | some e =>
      rw [deliveries_of_isSet (by rw [Latch.isSet, hl]; rfl), operate_of_isSet hl,
        Delivery.accepted_nil, List.append_nil]
      exact ⟨rfl, fun ha => absurd ha Bool.false_ne_true⟩
    | none =>
      obtain ⟨hq, hlost⟩ := Collector.deliver_spec mem (c := ⟨s.queue, s.latch, #[]⟩)
        (DecodeEngine.process dop index data s.engine) h.queue hl
      rw [deliveries_of_clear hl hd, (operate_of_clear hl).1]
      refine ⟨hq.toHolds.toList, fun ha => ?_⟩
      rcases hlost with ⟨hn, -⟩ | ⟨err, -, hc⟩
      · rw [hn] at ha; cases ha
      · have hf : (s.deliverTo mem dop index data).2.latch.first = some (.queueExhausted err) := by
          rw [deliverTo, hc]
        rw [Latch.isSet, latchAfter_first hf]; rfl
  · rw [hh, hs, deliveries, hd]
    exact ⟨(List.append_nil _).symm, fun ha => absurd ha Bool.false_ne_true⟩
  · rw [hh, Answer.handed, hs, deliveries, hd, h.queue.toHolds.take_fst,
      (h.queue.take n).toHolds.toList, List.take_append_drop]
    exact ⟨(List.append_nil _).symm, fun ha => absurd ha Bool.false_ne_true⟩

/-! ## The run -/

theorem performAll_delivery (h : s.Valid) (calls : List (Allocator × Op)) :
    handed (s.performAll calls).result ++ (s.performAll calls).state.queue.toList =
      s.queue.toList ++ Delivery.accepted (s.deliveriesAll calls) := by
  induction calls generalizing s with
  | nil => exact (List.append_nil _).symm
  | cons call calls ih =>
    obtain ⟨mem, op⟩ := call
    obtain ⟨hstep, hlost⟩ := perform_delivery h mem op
    -- after a loss no report comes any more, so that the loss is the first of the run
    have happ : Delivery.accepted (s.deliveriesAll ((mem, op) :: calls)) =
        Delivery.accepted (s.deliveries mem op) ++
          Delivery.accepted ((s.perform mem op).state.deliveriesAll calls) :=
      Delivery.accepted_append_of_end fun ha => deliveriesAll_of_isSet (hlost ha) calls
    rw [happ, ← List.append_assoc, ← hstep, List.append_assoc, ← ih (h.perform mem op),
      ← List.append_assoc]
    rfl

end Session

end TraceRelay
