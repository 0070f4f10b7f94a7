/-
  TraceRelay — what a collector makes of an engine's reports.

  * `Delivery` is a report with the collector that it comes to, and
    `Collector.deliveries` are those of a data operation, in order;
  * `accepted` are the events of the deliveries before the first event that could
    not be queued;
  * `deliver_of_isSet`: a collector whose latch is set changes nothing;
  * `deliver_spec`: one whose latch is clear queues the accepted events, and
    latches iff an event was lost;
  * `queue_of_mem_deliveries`: from the lost event on the queue stays as it is;
  * `welcome` is a sink that never stops the engine.  `deliver_eq_welcome`: as long as
    nothing is lost, a collector is that sink; `deliver_first_eq_none_iff`: with the standard
    allocator something is lost iff the events of that sink exceed the room; `deliver_of_grants`:
    with any allocator nothing is lost if the stores are granted.
-/
import TraceRelay.Collector
import TraceRelay.Proofs.EventQueue
import TraceRelay.Proofs.Ring.Room

namespace TraceRelay

variable {α σ : Type}

@[simp] theorem Reporting.deliver_done (sink : Sink σ) (a : α) (s : σ) :
    (Reporting.done a).deliver sink s = (a, s) :=
  rfl

@[simp] theorem Reporting.deliver_report (sink : Sink σ) (r : Report)
    (next : Response → Reporting α) (s : σ) : (Reporting.report r next).deliver sink s =
      (next (sink r s).1).deliver sink (sink r s).2 :=
  rfl

/-! ## Deliveries -/

/-- A report, with the allocator and the collector that it comes to. -/
structure Delivery where
  mem : Allocator
  report : Report
  collector : Collector

namespace Delivery

/-- The event of the reported element, if it has one. -/
def event? (d : Delivery) : Option Event :=
  d.report.element.event?

/-- Whether there is an event, and the queue does not take it. -/
def lost (d : Delivery) : Bool :=
  d.event?.any fun e => !(d.collector.queue.enqueue d.mem e).result.isOk

/-- The events of the deliveries before the first that is lost. -/
def accepted (ds : List Delivery) : List Event :=
  (ds.takeWhile fun d => !d.lost).filterMap event?

@[simp] theorem accepted_nil : accepted [] = [] :=
  rfl

theorem accepted_cons_of_lost {d : Delivery} (h : d.lost = true) (ds : List Delivery) :
    accepted (d :: ds) = [] := by
  simp [accepted, h]

theorem accepted_cons_of_not_lost {d : Delivery} (h : d.lost = false) (ds : List Delivery) :
    accepted (d :: ds) = d.event?.toList ++ accepted ds := by
  cases he : d.event? <;> simp [accepted, h, he]

/-- If nothing is lost, the events of all deliveries are accepted. -/
theorem accepted_append {ds : List Delivery} (h : ds.any lost = false) (ds' : List Delivery) :
    accepted (ds ++ ds') = accepted ds ++ accepted ds' := by
  induction ds with
  | nil => rfl
  | cons d ds ih =>
    rw [List.any_cons, Bool.or_eq_false_iff] at h
    rw [List.cons_append, accepted_cons_of_not_lost h.1, accepted_cons_of_not_lost h.1, ih h.2,
      List.append_assoc]

/-- If a loss is the end of all deliveries, it is the first one. -/
theorem accepted_append_of_end {ds ds' : List Delivery} (h : ds.any lost = true → ds' = []) :
    accepted (ds ++ ds') = accepted ds ++ accepted ds' := by
  cases ha : ds.any lost with
  | false => exact accepted_append ha ds'
  | true => rw [h ha, List.append_nil, accepted_nil, List.append_nil]

end Delivery

namespace Collector

variable {mem : Allocator} {c : Collector} {es : List Event}

/-- The deliveries of an operation to a collector. -/
def deliveries (mem : Allocator) : Reporting α → Collector → List Delivery
  | .done _, _ => []
  | .report r next, c =>
    ⟨mem, r, c⟩ :: deliveries mem (next (collect mem r c).1) (collect mem r c).2

/-! ## One report -/

theorem collect_of_isSet (h : c.latch.isSet = true) (r : Report) :
    collect mem r c = (.abort, c) := by
  simp [collect, h]

/-- With a clear latch a report is dropped, queued or lost. -/
theorem collect_cases (h : c.latch.first = none) (mem : Allocator) (r : Report) :
    (∃ log, r.element.event? = none ∧ Delivery.lost ⟨mem, r, c⟩ = false ∧
      collect mem r c = (.proceed, ⟨c.queue, c.latch, log⟩)) ∨
    (∃ e g log, r.element.event? = some e ∧ Delivery.lost ⟨mem, r, c⟩ = false ∧
      (c.queue.push mem e).1 = .ok g ∧
      collect mem r c = (.proceed, ⟨(c.queue.push mem e).2, c.latch, log⟩)) ∨
    (∃ e err log, r.element.event? = some e ∧ Delivery.lost ⟨mem, r, c⟩ = true ∧
      (c.queue.push mem e).1 = .error err ∧ collect mem r c =
        (.abort, ⟨c.queue, { c.latch with first := some (.queueExhausted err) }, log⟩)) := by
  have hs : c.latch.isSet = false := by rw [Latch.isSet, h]; rfl
  cases he : r.element.event? with
  | none =>
    refine Or.inl ⟨c.log.push _, rfl, ?_, by simp only [collect, hs, he]; rfl⟩
    simp [Delivery.lost, Delivery.event?, he]
  | some e =>
    rcases EventQueue.enqueue_cases mem c.queue e with ⟨err, hp, hq⟩ | ⟨g, log, hp, hq⟩
    · refine Or.inr (Or.inr ⟨e, err, c.log ++ #[] ++ #[.errorLatched (.queueExhausted err)], rfl,
        ?_, hp, ?_⟩)
      · simp [Delivery.lost, Delivery.event?, he, hq, Except.isOk, Except.toBool]
      · simp only [collect, hs, he, hq, Latch.set, h]; rfl
    · refine Or.inr (Or.inl ⟨e, g, c.log ++ log, rfl, ?_, hp, ?_⟩)
      · simp [Delivery.lost, Delivery.event?, he, hq, Except.isOk, Except.toBool]
      · simp only [collect, hs, he, hq]; rfl

theorem limit_collect (mem : Allocator) (r : Report) (c : Collector) :
    (collect mem r c).2.queue.limit = c.queue.limit := by
  cases hl : c.latch.first with
  | some e => rw [collect_of_isSet (by rw [Latch.isSet, hl]; rfl)]
  | none =>
    rcases collect_cases hl mem r with ⟨log, -, -, hr⟩ | ⟨e, g, log, -, -, -, hr⟩ |
      ⟨e, err, log, -, -, -, hr⟩ <;> rw [hr]
    exact Ring.limit_push mem c.queue e

/-! ## All reports of an operation -/

theorem limit_deliver (mem : Allocator) (t : Reporting α) (c : Collector) :
    (t.deliver (collect mem) c).2.queue.limit = c.queue.limit := by
  induction t generalizing c with
  | done a => rfl
  | report r next ih => rw [Reporting.deliver_report, ih, limit_collect]

/-- **A collector whose latch is set changes nothing.** -/
theorem deliver_of_isSet (t : Reporting α) (h : c.latch.isSet = true) :
    (t.deliver (collect mem) c).2 = c := by
  induction t with
  | done a => rfl
  | report r next ih => rw [Reporting.deliver_report, collect_of_isSet h]; exact ih .abort

/-- Its later reports find it as it is. -/
theorem collector_of_mem_deliveries (t : Reporting α) (h : c.latch.isSet = true) :
    ∀ d ∈ deliveries mem t c, d.collector = c := by
  induction t with
  | done a => simp [deliveries]
  | report r next ih =>
    intro d hd
    rw [deliveries, collect_of_isSet h] at hd
    rcases List.mem_cons.1 hd with rfl | hd
    · rfl
    · exact ih .abort d hd

/-- **A collector whose latch is clear** queues what is accepted, and latches iff an
    event was lost. -/
theorem deliver_spec (mem : Allocator) (t : Reporting α) (hq : c.queue.Represents es)
    (hc : c.latch.first = none) :
    (t.deliver (collect mem) c).2.queue.Represents (es ++ Delivery.accepted (deliveries mem t c)) ∧
    (((deliveries mem t c).any Delivery.lost = false ∧
        (t.deliver (collect mem) c).2.latch = c.latch) ∨
      ∃ err, (deliveries mem t c).any Delivery.lost = true ∧
        (t.deliver (collect mem) c).2.latch =
          { c.latch with first := some (.queueExhausted err) }) := by
  induction t generalizing c es with
  | done a => exact ⟨by rw [deliveries, Delivery.accepted_nil, List.append_nil]; exact hq,
      Or.inl ⟨rfl, rfl⟩⟩
  | report r next ih =>
    rw [Reporting.deliver_report, deliveries, List.any_cons]
    rcases collect_cases hc mem r with ⟨log, he, hl, hr⟩ | ⟨e, g, log, he, hl, hp, hr⟩ |
      ⟨e, err, log, he, hl, hp, hr⟩
    · rw [hr, Delivery.accepted_cons_of_not_lost hl, Delivery.event?, he, hl]
      exact ih .proceed (c := ⟨c.queue, c.latch, log⟩) hq hc
    · rw [hr, Delivery.accepted_cons_of_not_lost hl, Delivery.event?, he, hl, ← List.append_assoc]
      exact ih .proceed (c := ⟨(c.queue.push mem e).2, c.latch, log⟩) (hq.push hp) hc
    · rw [hr, Delivery.accepted_cons_of_lost hl, deliver_of_isSet _ rfl, List.append_nil, hl]
      exact ⟨hq, Or.inr ⟨err, rfl, rfl⟩⟩

/-- **From the lost event on** the queue is what it is in the end. -/
theorem queue_of_mem_deliveries (t : Reporting α) (hc : c.latch.first = none) :
    ∀ d ∈ deliveries mem t c, d.lost = true ∨ d.collector.latch.isSet = true →
      d.collector.queue = (t.deliver (collect mem) c).2.queue := by
  induction t generalizing c with
  | done a => simp [deliveries]
  | report r next ih =>
    intro d hd hl
    rw [deliveries] at hd
    rw [Reporting.deliver_report]
    have hs : c.latch.isSet = false := by rw [Latch.isSet, hc]; rfl
    rcases collect_cases hc mem r with ⟨log, -, hn, hr⟩ | ⟨e, g, log, -, hn, -, hr⟩ |
      ⟨e, err, log, -, -, -, hr⟩ <;> rw [hr] at hd ⊢
    · rcases List.mem_cons.1 hd with rfl | hd
      · rw [hn, hs] at hl; rcases hl with hl | hl <;> cases hl
      · exact ih .proceed (c := ⟨c.queue, c.latch, log⟩) hc d hd hl
    · rcases List.mem_cons.1 hd with rfl | hd
      · rw [hn, hs] at hl; rcases hl with hl | hl <;> cases hl
      · exact ih .proceed (c := ⟨(c.queue.push mem e).2, c.latch, log⟩) hc d hd hl
    · rw [deliver_of_isSet _ rfl]
      rcases List.mem_cons.1 hd with rfl | hd
      · rfl
      · rw [collector_of_mem_deliveries _ rfl d hd]

/-! ## The sink that never stops the engine -/

/-- Adds the event of a report to a list, and lets the engine go on. -/
def welcome : Sink (List Event) :=
  fun r es => (.proceed, es ++ r.element.event?.toList)

theorem deliver_welcome (t : Reporting α) (es : List Event) : t.deliver welcome es =
    ((t.deliver welcome []).1, es ++ (t.deliver welcome []).2) := by
  induction t generalizing es with
  | done a => simp
  | report r next ih =>
    simp only [Reporting.deliver_report, welcome, List.nil_append]
    rw [ih .proceed (es ++ _), ih .proceed r.element.event?.toList, List.append_assoc]

/-- **As long as nothing is lost, a collector is the sink that never stops the engine.** -/
theorem deliver_eq_welcome (t : Reporting α) (hq : c.queue.Represents es)
    (hc : c.latch.first = none) (h : (t.deliver (collect mem) c).2.latch.first = none) :
    (t.deliver (collect mem) c).1 = (t.deliver welcome es).1 ∧
      (t.deliver (collect mem) c).2.queue.Represents (t.deliver welcome es).2 := by
  induction t generalizing c es with
  | done a => exact ⟨rfl, hq⟩
  | report r next ih =>
    rw [Reporting.deliver_report] at h ⊢
    rw [Reporting.deliver_report, welcome]
    rcases collect_cases hc mem r with ⟨log, he, -, hr⟩ | ⟨e, g, log, he, -, hp, hr⟩ |
      ⟨e, err, log, he, -, hp, hr⟩ <;> rw [hr] at h ⊢ <;> rw [he]
    · rw [Option.toList_none, List.append_nil]
      exact ih .proceed (c := ⟨c.queue, c.latch, log⟩) hq hc h
    · exact ih .proceed (c := ⟨(c.queue.push mem e).2, c.latch, log⟩) (hq.push hp) hc h
    · rw [deliver_of_isSet _ rfl] at h; cases h

/-- With the standard allocator the store stays one that it grants. -/
theorem granted_deliver (t : Reporting α) (hq : c.queue.Represents es) (hg : c.queue.Granted)
    (hc : c.latch.first = none) : (t.deliver (collect .standard) c).2.queue.Granted := by
  induction t generalizing c es with
  | done a => exact hg
  | report r next ih =>
    rw [Reporting.deliver_report]
    rcases collect_cases hc .standard r with ⟨log, -, -, hr⟩ | ⟨e, g, log, -, -, hp, hr⟩ |
      ⟨e, err, log, -, -, -, hr⟩ <;> rw [hr]
    · exact ih .proceed (c := ⟨c.queue, c.latch, log⟩) hq hg hc
    · exact ih .proceed (c := ⟨(c.queue.push .standard e).2, c.latch, log⟩) (hq.push hp)
        (hg.push hq.toHolds e) hc
    · rw [deliver_of_isSet _ rfl]
      exact hg

/-- **When something is lost**: with the standard allocator, iff the queue and the
    events of the operation do not fit into the largest store. -/
theorem deliver_first_eq_none_iff (t : Reporting α) (hq : c.queue.Represents es)
    (hg : c.queue.Granted) (hc : c.latch.first = none) :
    (t.deliver (collect .standard) c).2.latch.first = none ↔
      (t.deliver welcome es).2.length < Ring.slotBound c.queue.limit := by
  induction t generalizing c es with
  | done a => exact iff_of_true hc (Ring.length_lt_slotBound hq hg)
  | report r next ih =>
    rw [Reporting.deliver_report, Reporting.deliver_report, welcome]
    rcases collect_cases hc .standard r with ⟨log, he, -, hr⟩ | ⟨e, g, log, he, -, hp, hr⟩ |
      ⟨e, err, log, he, -, hp, hr⟩ <;> rw [hr, he]
    · rw [Option.toList_none, List.append_nil]
      exact ih .proceed (c := ⟨c.queue, c.latch, log⟩) hq hg hc
    · have := ih .proceed (c := ⟨(c.queue.push .standard e).2, c.latch, log⟩) (hq.push hp)
        (hg.push hq.toHolds e) hc
      rwa [Ring.limit_push] at this
    · have hfull := mt (Ring.isOk_push_standard_iff hq hg e).2 (by rw [hp]; nofun)
      rw [deliver_of_isSet _ rfl, deliver_welcome]
      refine iff_of_false nofun fun h => hfull ?_
      simp only [List.length_append, Option.toList_some, List.length_singleton] at h
      omega

/-- **Nothing is lost** if the stores are granted that the queue and the events need. -/
theorem deliver_of_grants {n : Nat} (t : Reporting α) (hq : c.queue.Represents es)
    (hl : UInt64.size ≤ c.queue.limit.toNat + 1) (hc : c.latch.first = none)
    (hg : mem.Grants c.queue.capacity n) (hn : (t.deliver welcome es).2.length ≤ n) :
    (t.deliver (collect mem) c).2.latch.first = none := by
  induction t generalizing c es with
  | done a => exact hc
  | report r next ih =>
    rw [Reporting.deliver_report, welcome] at hn
    rw [Reporting.deliver_report]
    -- all events together are no more than `n`, so that there are fewer before a push
    have hpush : ∀ e, r.element.event? = some e → (∃ g, (c.queue.push mem e).1 = .ok g) ∧
        mem.Grants (c.queue.push mem e).2.capacity n := by
      intro e he
      refine Ring.push_of_grants hq hl hg ?_ e
      rw [he, deliver_welcome, List.length_append, List.length_append, Option.toList_some,
        List.length_singleton] at hn
      omega
    rcases collect_cases hc mem r with ⟨log, he, -, hr⟩ | ⟨e, g, log, he, -, hp, hr⟩ |
      ⟨e, err, log, he, -, hp, hr⟩ <;> rw [hr]
    · rw [he, Option.toList_none, List.append_nil] at hn
      exact ih .proceed (c := ⟨c.queue, c.latch, log⟩) hq hl hc hg hn
    · rw [he] at hn
      refine ih .proceed (c := ⟨(c.queue.push mem e).2, c.latch, log⟩) (hq.push hp) ?_ hc
        (hpush e he).2 hn
      rw [Ring.limit_push]
      exact hl
    · obtain ⟨g, hg⟩ := (hpush e he).1
      rw [hp] at hg
      cases hg

end Collector

end TraceRelay
