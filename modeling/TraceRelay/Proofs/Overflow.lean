/-
  TraceRelay — a collector that gets one report after the other.

  An engine may go on after it was told to stop.  What then becomes of its
  reports depends only on the room in the queue and on which of them have an
  event.

  * `Collector.collectAll` brings reports to a collector, whatever it answers,
    and `getElem?_collectAll` ties each answer to the latch after it;
  * `Overflows room reports j`: the event of the report at `j` is the first for
    which there is no room;
  * `collectAll_housed` is the queue and the latch after all reports;
  * `collectAll_of_reports`: the answers, the queue and the latch.
-/
import TraceRelay.Proofs.Capacity

namespace TraceRelay

namespace Collector

open EventQueue (Housed)

/-! ## Reports one after the other -/

/-- Brings reports to a collector, and returns its answers. -/
def collectAll (mem : Allocator) : List Report → Collector → List Response × Collector
  | [], c => ([], c)
  | r :: rs, c =>
    let (answer, c) := collect mem r c
    let (answers, c) := collectAll mem rs c
    (answer :: answers, c)

/-- The events of reports, in order. -/
def eventsOf (rs : List Report) : List Event :=
  rs.filterMap fun r => r.element.event?

variable {mem : Allocator} {c : Collector} {es : List Event} {limit : UInt64} {room j : Nat}
  {rs : List Report}

@[simp] theorem collectAll_cons (mem : Allocator) (r : Report) (rs : List Report) (c : Collector) :
    collectAll mem (r :: rs) c =
      ((collect mem r c).1 :: (collectAll mem rs (collect mem r c).2).1,
        (collectAll mem rs (collect mem r c).2).2) :=
  rfl

theorem length_collectAll (mem : Allocator) (rs : List Report) (c : Collector) :
    (collectAll mem rs c).1.length = rs.length := by
  induction rs generalizing c with
  | nil => rfl
  | cons r rs ih => simp [ih]

theorem collectAll_of_isSet (h : c.latch.isSet = true) (rs : List Report) :
    collectAll mem rs c = (List.replicate rs.length .abort, c) := by
  induction rs with
  | nil => rfl
  | cons r rs ih =>
    rw [collectAll_cons, collect_of_isSet h, ih]
    rfl

/-- An answer is an abort iff the latch is set after it. -/
theorem collect_fst (mem : Allocator) (r : Report) (c : Collector) :
    (collect mem r c).1 =
      if (collect mem r c).2.latch.isSet = true then .abort else .proceed := by
  cases hl : c.latch.first with
  | some e =>
    have hs : c.latch.isSet = true := by rw [Latch.isSet, hl]; rfl
    rw [collect_of_isSet hs, if_pos hs]
  | none =>
    have hs : ¬ c.latch.isSet = true := by simp [Latch.isSet, hl]
    rcases collect_cases hl mem r with ⟨log, -, -, hr⟩ | ⟨e, g, log, -, -, -, hr⟩ |
      ⟨e, err, log, -, -, -, hr⟩ <;> rw [hr]
    · exact (if_neg hs).symm
    · exact (if_neg hs).symm
    · rfl

theorem getElem?_collectAll (mem : Allocator) (c : Collector) {i : Nat} (hi : i < rs.length) :
    (collectAll mem rs c).1[i]? = some
      (if (collectAll mem (rs.take (i + 1)) c).2.latch.isSet = true then .abort
        else .proceed) := by
  induction rs generalizing c i with
  | nil => cases hi
  | cons r rs ih =>
    cases i with
    | zero => simpa [collectAll] using collect_fst mem r c
    | succ i =>
      rw [List.take_succ_cons, collectAll_cons, collectAll_cons, List.getElem?_cons_succ]
      exact ih (collect mem r c).2 (Nat.lt_of_succ_lt_succ hi)

/-! ## The first event without room -/

/-- The report at `j` has an event, and `room` of those before it have one. -/
structure Overflows (room : Nat) (rs : List Report) (j : Nat) : Prop where
  event : ∃ r e, rs[j]? = some r ∧ r.element.event? = some e
  before : (eventsOf (rs.take j)).length = room

theorem length_eventsOf_take_le {i j : Nat} (h : i ≤ j) (rs : List Report) :
    (eventsOf (rs.take i)).length ≤ (eventsOf (rs.take j)).length :=
  ((List.take_sublist_take_left h).filterMap _).length_le

theorem Overflows.lt_length (h : Overflows room rs j) : j < rs.length := by
  obtain ⟨r, e, hr, -⟩ := h.event
  exact (List.getElem?_eq_some_iff.1 hr).1

theorem Overflows.length_take_succ (h : Overflows room rs j) :
    (eventsOf (rs.take (j + 1))).length = room + 1 := by
  obtain ⟨⟨r, e, hr, he⟩, hb⟩ := h
  rw [List.take_add_one, hr, eventsOf, List.filterMap_append, List.length_append]
  simp only [Option.toList_some, List.filterMap_cons, he, List.filterMap_nil, List.length_singleton]
  rw [← hb, eventsOf]

/-- There is no room for the events of the first `i` reports iff that one is among them. -/
theorem Overflows.lt_length_take_iff (h : Overflows room rs j) (i : Nat) :
    room < (eventsOf (rs.take i)).length ↔ j < i := by
  constructor
  · intro hlt
    by_contra hij
    have hle := length_eventsOf_take_le (Nat.not_lt.1 hij) rs
    rw [h.before] at hle
    omega
  · intro hij
    have hle := length_eventsOf_take_le (Nat.succ_le_of_lt hij) rs
    rw [h.length_take_succ] at hle
    omega

theorem exists_overflows_iff : (∃ j, Overflows room rs j) ↔ room < (eventsOf rs).length := by
  constructor
  · rintro ⟨j, h⟩
    have hlt := (h.lt_length_take_iff rs.length).2 h.lt_length
    rwa [List.take_length] at hlt
  · intro h
    induction rs generalizing room with
    | nil => cases h
    | cons r rs ih =>
      cases he : r.element.event? with
      | none =>
        obtain ⟨j, hj⟩ : ∃ j, Overflows room rs j := ih (by simpa [eventsOf, he] using h)
        exact ⟨j + 1, hj.event, by simpa [eventsOf, he] using hj.before⟩
      | some e =>
        cases room with
        | zero => exact ⟨0, ⟨r, e, rfl, he⟩, rfl⟩
        | succ room =>
          obtain ⟨j, hj⟩ : ∃ j, Overflows room rs j := ih (by simpa [eventsOf, he] using h)
          exact ⟨j + 1, hj.event, by simpa [eventsOf, he] using hj.before⟩

/-! ## The queue and the latch -/

/-- A report to a collector with a clear latch, by the room. -/
theorem collect_housed (h : Housed limit es c.queue) (hl : c.latch.first = none) (r : Report) :
    (∃ log, r.element.event? = none ∧
      collect .standard r c = (.proceed, ⟨c.queue, c.latch, log⟩)) ∨
    (∃ e queue log, r.element.event? = some e ∧ es.length + 1 ≠ Ring.slotBound limit ∧
      Housed limit (es ++ [e]) queue ∧
      collect .standard r c = (.proceed, ⟨queue, c.latch, log⟩)) ∨
    (∃ e log, r.element.event? = some e ∧ es.length + 1 = Ring.slotBound limit ∧
      collect .standard r c = (.abort, ⟨c.queue,
        { c.latch with first := some (.queueExhausted (Ring.refusal limit)) }, log⟩)) := by
  rcases collect_cases hl .standard r with ⟨log, he, -, hr⟩ | ⟨e, g, log, he, -, hp, hr⟩ |
    ⟨e, err, log, he, -, hp, hr⟩
  · exact Or.inl ⟨log, he, hr⟩
  · rcases EventQueue.push_housed h e with ⟨hroom, -, hs⟩ | ⟨-, hp'⟩
    · exact Or.inr (Or.inl ⟨e, _, log, he, hroom, hs, hr⟩)
    · rw [hp] at hp'; cases hp'
  · rcases EventQueue.push_housed h e with ⟨-, ⟨g, hp'⟩, -⟩ | ⟨hfull, hp'⟩
    · rw [hp] at hp'; cases hp'
    · obtain rfl := Except.error.inj (hp.symm.trans hp')
      exact Or.inr (Or.inr ⟨e, log, he, hfull, hr⟩)

/-- **The queue and the latch after all reports**: as many events are taken as there is room for,
    and the latch is set iff there are more. -/
theorem collectAll_housed (h : Housed limit es c.queue) (hl : c.latch.first = none)
    (hroom : es.length + room + 1 = Ring.slotBound limit) (rs : List Report) :
    let after := (collectAll .standard rs c).2
    Housed limit (es ++ (eventsOf rs).take room) after.queue ∧
    ((room < (eventsOf rs).length ∧ after.latch =
        { c.latch with first := some (.queueExhausted (Ring.refusal limit)) }) ∨
      ((eventsOf rs).length ≤ room ∧ after.latch = c.latch)) := by
  induction rs generalizing c es room with
  | nil =>
    refine ⟨?_, Or.inr ⟨Nat.zero_le _, rfl⟩⟩
    rw [eventsOf, List.filterMap_nil, List.take_nil, List.append_nil]
    exact h
  | cons r rs ih =>
    rcases collect_housed h hl r with ⟨log, he, hr⟩ | ⟨e, queue, log, he, hne, hs, hr⟩ |
      ⟨e, log, he, hfull, hr⟩ <;> simp only [collectAll_cons, hr, eventsOf, List.filterMap_cons, he]
    · exact ih (c := ⟨c.queue, c.latch, log⟩) h hl hroom
    · obtain ⟨n, rfl⟩ : ∃ n, room = n + 1 := ⟨room - 1, by omega⟩
      have hleft : (es ++ [e]).length + n + 1 = Ring.slotBound limit := by
        rw [List.length_append, List.length_singleton]
        omega
      have hstep := ih (c := ⟨queue, c.latch, log⟩) hs hl hleft
      simpa [eventsOf, List.take_succ_cons] using hstep
    · obtain rfl : room = 0 := by omega
      rw [collectAll_of_isSet rfl]
      simpa using h

/-! ## The answers -/

/-- Answers that are aborts from the `j`-th on. -/
theorem eq_replicate_append {answers : List Response} {n : Nat} (hlen : answers.length = n)
    (hj : j ≤ n) (h : ∀ i < n, answers[i]? = some (if j ≤ i then .abort else .proceed)) :
    answers = List.replicate j .proceed ++ List.replicate (n - j) .abort := by
  ext i : 1
  by_cases hi : i < n
  · rw [h i hi, List.getElem?_append, List.length_replicate]
    by_cases hij : i < j
    · rw [if_neg (by omega), if_pos hij, List.getElem?_replicate, if_pos hij]
    · rw [if_pos (by omega), if_neg hij, List.getElem?_replicate, if_pos (by omega)]
  · rw [List.getElem?_eq_none (by omega), List.getElem?_eq_none (by simp; omega)]

/-- An answer is an abort iff there is no room for the events up to its report. -/
theorem answer_collectAll (h : Housed limit es c.queue) (hl : c.latch.first = none)
    (hroom : es.length + room + 1 = Ring.slotBound limit) {i : Nat} (hi : i < rs.length) :
    (collectAll .standard rs c).1[i]? = some
      (if room < (eventsOf (rs.take (i + 1))).length then .abort else .proceed) := by
  rw [getElem?_collectAll .standard c hi]
  obtain ⟨-, ⟨hlt, hs⟩ | ⟨hle, hs⟩⟩ := collectAll_housed h hl hroom (rs.take (i + 1))
  · rw [if_pos (by rw [hs]; rfl), if_pos hlt]
  · rw [hs, if_neg (by simp [Latch.isSet, hl]), if_neg (by omega)]

theorem answers_of_overflows (h : Housed limit es c.queue) (hl : c.latch.first = none)
    (hroom : es.length + room + 1 = Ring.slotBound limit) (ho : Overflows room rs j) :
    (collectAll .standard rs c).1 =
      List.replicate j .proceed ++ List.replicate (rs.length - j) .abort := by
  refine eq_replicate_append (length_collectAll ..) (Nat.le_of_lt ho.lt_length) ?_
  intro i hi
  rw [answer_collectAll h hl hroom hi]
  simp only [ho.lt_length_take_iff, Nat.lt_succ_iff]

theorem answers_of_room (h : Housed limit es c.queue) (hl : c.latch.first = none)
    (hroom : es.length + room + 1 = Ring.slotBound limit) (hle : (eventsOf rs).length ≤ room) :
    (collectAll .standard rs c).1 = List.replicate rs.length .proceed := by
  have hall := eq_replicate_append (j := rs.length) (length_collectAll .standard rs c)
    (Nat.le_refl _) ?_
  · simpa using hall
  · intro i hi
    have hprefix := length_eventsOf_take_le (i := i + 1) hi rs
    rw [List.take_length] at hprefix
    rw [answer_collectAll h hl hroom hi, if_neg (by omega), if_neg (by omega)]

/-- **What a collector makes of a list of reports.**  With its latch set it refuses all and changes
    nothing.  Else it takes the events for which there is room and lets the engine go on until the
    first for which there is none; then it latches the queue's error, and all that comes later is
    refused and leaves no trace.  An answer is an abort iff the latch is set after it. -/
theorem collectAll_of_reports :
    (∀ (mem : Allocator) (rs : List Report) (c : Collector), c.latch.isSet = true →
      collectAll mem rs c = (List.replicate rs.length .abort, c)) ∧
    (∀ (mem : Allocator) (rs : List Report) (c : Collector) (i : Nat), i < rs.length →
      ((collectAll mem rs c).1[i]? = some .abort ↔
        (collectAll mem (rs.take (i + 1)) c).2.latch.isSet = true)) ∧
    ∀ (capacity limit : UInt64) (q : EventQueue) (ops : List EventQueue.Op),
      Ring.create .standard capacity limit = .ok q →
      ∀ (latch : Latch) (log : Array LogRecord), latch.first = none → ∀ rs : List Report,
        let queue := (EventQueue.serve ops q).state
        let after := collectAll .standard rs ⟨queue, latch, log⟩
        let bound := Ring.slotBound limit
        let room := bound - 1 - queue.length
        IsGreatest {p : Nat | p.isPowerOfTwo ∧ p ≤ limit.toNat ∧ p ≤ 1 <<< 57} bound ∧
        (∀ j, Overflows room rs j → after.1 =
          List.replicate j .proceed ++ List.replicate (rs.length - j) .abort) ∧
        ((¬ ∃ j, Overflows room rs j) → after.1 = List.replicate rs.length .proceed) ∧
        after.2.queue.toList = queue.toList ++ (eventsOf rs).take room ∧
        (after.2.latch.isSet = true ↔ ∃ j, Overflows room rs j) ∧
        after.2.latch.suppressed = latch.suppressed ∧
        ∀ err, after.2.latch.first = some err → ∃ cause, err = .queueExhausted cause ∧
          ∀ e, (after.2.queue.enqueue .standard e).result = .error cause := by
  refine ⟨fun mem rs c hs => collectAll_of_isSet hs rs, ?_, ?_⟩
  · intro mem rs c i hi
    rw [getElem?_collectAll mem c hi]
    cases (collectAll mem (rs.take (i + 1)) c).2.latch.isSet <;> simp
  · intro capacity limit q ops hq latch log hl rs queue after bound room
    have hhoused : Housed limit queue.toList queue := (Housed.create hq).serve ops
    have hlength : queue.length = queue.toList.length := hhoused.toHolds.length
    have hlt := Ring.length_lt_slotBound hhoused.toRepresents hhoused.granted
    rw [hhoused.limit_eq] at hlt
    have hroom : queue.toList.length + room + 1 = Ring.slotBound limit := by
      simp only [room, bound, hlength]
      omega
    obtain ⟨hafter, hlatch⟩ := collectAll_housed (c := ⟨queue, latch, log⟩) hhoused hl hroom rs
    refine ⟨?_, fun j => answers_of_overflows hhoused hl hroom, ?_, hafter.toHolds.toList, ?_, ?_,
      ?_⟩
    · exact Ring.isGreatest_slotBound (hhoused.limit_eq ▸ hhoused.limit_pos)
    · intro hnone
      rw [exists_overflows_iff, Nat.not_lt] at hnone
      exact answers_of_room hhoused hl hroom hnone
    · rw [exists_overflows_iff]
      rcases hlatch with ⟨hlt, hs⟩ | ⟨hle, hs⟩
      · exact iff_of_true (by rw [hs]; rfl) hlt
      · exact iff_of_false (by rw [hs]; simp [Latch.isSet, hl]) (Nat.not_lt.2 hle)
    · rcases hlatch with ⟨-, hs⟩ | ⟨-, hs⟩ <;> rw [hs]
    · intro err herr
      rcases hlatch with ⟨hlt, hs⟩ | ⟨-, hs⟩ <;> rw [hs] at herr
      · obtain rfl := Option.some.inj herr
        refine ⟨_, rfl, fun e => ?_⟩
        rcases EventQueue.enqueue_housed hafter e with ⟨hne, -⟩ | ⟨-, hr, -⟩
        · rw [List.length_append, List.length_take, Nat.min_eq_left (Nat.le_of_lt hlt)] at hne
          exact absurd hroom hne
        · exact hr
      · rw [hl] at herr; cases herr

end Collector

namespace Playback

/-- Seven reports, four of them of events. -/
def mixed : List Report :=
  [resumed 1, ⟨0, 0x10, {}⟩, resumed 2, ⟨1, 0x10, {}⟩, resumed 3, ⟨2, 0x10, {}⟩, resumed 4]

/-- A collector over a queue with room for two more events, after two errors. -/
def nearlyFull : Collector where
  queue := (EventQueue.serve [push 8, push 9, .pop] (slots 2)).state
  latch := { suppressed := 2 }

end Playback

namespace Collector

open Playback in
/-- The third event finds no room.  It is refused, and so is the report of no event after it. -/
theorem collectAll_of_reports_mixed :
    Ring.create .standard 2 5 = .ok (slots 2) ∧ nearlyFull.latch.first = none ∧
    Overflows 2 mixed 4 ∧
    (collectAll .standard mixed nearlyFull).1 =
      [.proceed, .proceed, .proceed, .proceed, .abort, .abort, .abort] ∧
    (collectAll .standard mixed nearlyFull).2.queue.toList =
      [⟨.traceOn 9, 0, 0⟩, ⟨.traceOn 1, 0, -1⟩, ⟨.traceOn 2, 0, -1⟩] ∧
    (collectAll .standard mixed nearlyFull).2.latch.isSet = true ∧
    (collectAll .standard mixed nearlyFull).2.latch.suppressed = 2 ∧
    (∀ rs, collectAll .standard rs (collectAll .standard mixed nearlyFull).2 =
      (List.replicate rs.length .abort, (collectAll .standard mixed nearlyFull).2)) := by
  have hq : Ring.create .standard 2 5 = .ok (slots 2) := rfl
  have ho : Overflows 2 mixed 4 := ⟨⟨_, _, rfl, rfl⟩, rfl⟩
  obtain ⟨hset, -, hclear⟩ := collectAll_of_reports
  obtain ⟨-, hanswers, -, hlist, hlatch, hcount, -⟩ :=
    hclear 2 5 (slots 2) [push 8, push 9, .pop] hq { suppressed := 2 } #[] rfl mixed
  have hafter := hlatch.2 ⟨4, ho⟩
  exact ⟨hq, rfl, ho, hanswers 4 ho, hlist, hafter, hcount, fun rs => hset .standard rs _ hafter⟩

end Collector

end TraceRelay
