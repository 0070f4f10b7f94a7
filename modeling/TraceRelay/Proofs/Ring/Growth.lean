/-
  TraceRelay — how a full ring buffer grows.

  A full ring buffer wraps, unless its tail is the first slot.  If it wraps, the slots from the
  tail on move to the end of the doubled store; if not, all slots stay where they are.  Either way
  the rest of the new store is empty, and what is read from the tail around is what was read.

  * `Moved` and `Extended`: the two ways of doubling a store;
  * `moved_widen`, `extended_widen`, and `full_cases`, which says which of the two it is;
  * `Checked.grow_eq_ok_iff`: a store that was doubled, and the report of it;
  * `grow_of_full`: the growth of an event queue that is full.
-/
import TraceRelay.Proofs.Ring.Safety

namespace TraceRelay

namespace Ring

variable {α : Type} {r wide : Ring α} {as : List α}

/-! ## Two ways of doubling a store -/

/-- In `wide`, the slots of `r` from the tail on lie at the end. -/
structure Moved (r wide : Ring α) : Prop where
  tail : wide.tail = r.tail + r.capacity
  front : ∀ i < r.tail, wide.slots[i]? = r.slots[i]?
  gap : ∀ i, r.tail ≤ i → i < r.tail + r.capacity → wide.slots[i]? = some none
  back : ∀ i, r.tail ≤ i → i < r.capacity → wide.slots[i + r.capacity]? = r.slots[i]?

/-- In `wide`, empty slots follow those of `r`. -/
structure Extended (r wide : Ring α) : Prop where
  tail : wide.tail = r.tail
  front : ∀ i < r.capacity, wide.slots[i]? = r.slots[i]?
  back : ∀ i, r.capacity ≤ i → i < 2 * r.capacity → wide.slots[i]? = some none

theorem moved_widen (hw : r.head < r.tail) (ht : r.tail ≤ r.capacity) : r.Moved r.widen := by
  rw [widen_of_lt hw]
  refine ⟨rfl, fun i hi => ?_, fun i hl hi => ?_, fun i hl hi => ?_⟩ <;>
    refine (getElem?_spread ht _).trans ?_
  · rw [if_pos hi]
  · rw [if_neg (Nat.not_lt.2 hl)]; exact if_pos hi
  · change (if _ then _ else if _ < r.tail + r.capacity then _ else r.slots[_ - r.capacity]?) = _
    rw [if_neg (by omega), if_neg (by omega), Nat.add_sub_cancel]

theorem extended_widen (hw : r.tail ≤ r.head) : r.Extended r.widen := by
  rw [widen_of_le hw]
  refine ⟨rfl, fun i hi => Array.getElem?_append_left hi, fun i hl hi => ?_⟩
  refine (Array.getElem?_append_right hl).trans ?_
  change (Array.replicate r.capacity none)[i - r.capacity]? = _
  rw [Array.getElem?_replicate, if_pos (by omega)]

@[simp] theorem head_widen (r : Ring α) : r.widen.head = r.head := by
  by_cases hw : r.head < r.tail
  · rw [widen_of_lt hw]
  · rw [widen_of_le (Nat.le_of_not_lt hw)]

/-- A full ring buffer wraps, or starts at the first slot. -/
theorem full_cases (h : r.Represents as) (hf : r.isFull = true) :
    r.head < r.tail ∨ (r.tail < r.head ∧ r.tail = 0) := by
  have hh := h.head_lt
  have hc := h.two_le
  rw [isFull, beq_iff_eq] at hf
  by_cases hw : r.head + 1 < r.capacity
  · rw [Nat.mod_eq_of_lt hw] at hf
    exact Or.inl (by omega)
  · have hend : r.head + 1 = r.capacity := by omega
    rw [hend, Nat.mod_self] at hf
    exact Or.inr (by omega)

/-! ## Growth, step by step -/

/-- The store grows iff that is not refused. -/
theorem Checked.grow_eq_ok_iff (h : r.Represents as) {mem : Allocator} {growth : Growth} :
    Checked.grow mem r = .ok (.ok growth, wide) ↔ r.growthRefusal? mem = none ∧
      growth = ⟨r.capacity, 2 * r.capacity, r.length⟩ ∧ wide = r.widen := by
  cases hg : r.growthRefusal? mem with
  | some e =>
    rw [grow, hg]
    exact ⟨fun hr => by simp [pure, Except.pure] at hr, fun hr => by cases hr.1⟩
  | none =>
    have hl : r.widen.length = r.length := (h.widen hg).toHolds.length.trans h.toHolds.length.symm
    rw [grow_eq h hg, h.toHolds.capacity_widen, hl]
    constructor
    · rintro ⟨⟩
      exact ⟨rfl, rfl, rfl⟩
    · rintro ⟨-, rfl, rfl⟩
      rfl

end Ring

/-! ## Event queues -/

namespace EventQueue

open TraceRelay.Ring (Moved Extended)

/-- **A full event queue grows by moving what wraps.**  An event that finds the queue full is
    written into the doubled store, whose growth is logged. -/
theorem grow_of_full {mem allow : Allocator} {c limit : UInt64} {q run wide : EventQueue}
    {growth : Growth} (h : Ring.create mem c limit = .ok q) (calls : List (Allocator × Op))
    (hrun : (performAll calls q).state = run) (hf : run.length = run.capacity - 1)
    (hg : Ring.Checked.grow allow run = .ok (.ok growth, wide)) :
    wide.capacity = 2 * run.capacity ∧
    wide.head = run.head ∧
    (run.head < run.tail ∧ Moved run wide ∨
      run.tail < run.head ∧ run.tail = 0 ∧ Extended run wide) ∧
    wide.toList = run.toList ∧
    growth = ⟨run.capacity, 2 * run.capacity, run.capacity - 1⟩ ∧
    ∀ e, run.enqueue allow e = ⟨.ok (), wide.store e, #[.queueGrew growth]⟩ := by
  obtain ⟨es, -, hq⟩ := performAll_listRun (Ring.Represents.create h) calls
  rw [hrun] at hq
  obtain ⟨hnone, rfl, rfl⟩ := (Ring.Checked.grow_eq_ok_iff hq).1 hg
  have hlt := hq.length_lt
  have hfull : run.isFull = true := by
    rw [hq.toHolds.length] at hf
    exact hq.toHolds.isFull_iff.2 (by omega)
  refine ⟨hq.toHolds.capacity_widen, Ring.head_widen run, ?_, ?_, by rw [hf], fun e => ?_⟩
  · rcases Ring.full_cases hq hfull with hw | ⟨hw, h₀⟩
    · exact Or.inl ⟨hw, Ring.moved_widen hw (Nat.le_of_lt hq.tail_lt)⟩
    · exact Or.inr ⟨hw, h₀, Ring.extended_widen (Nat.le_of_lt hw)⟩
  · exact (hq.widen hnone).toHolds.toList.trans hq.toHolds.toList.symm
  · rw [enqueue, Ring.push_of_growth hfull hnone, hq.toHolds.capacity_widen,
      (hq.widen hnone).toHolds.length, hq.toHolds.length]

/-- A queue that wraps after its second event, with its tail in the third of four slots. -/
theorem grow_of_full_four :
    ∃ run wide : EventQueue,
      run.slots = #[some ⟨.traceOn 5, 0, 0⟩, none, some ⟨.traceOn 3, 0, 0⟩,
        some ⟨.traceOn 4, 0, 0⟩] ∧
      run.tail = 2 ∧
      wide.slots = #[some ⟨.traceOn 5, 0, 0⟩, none, none, none, none, none,
        some ⟨.traceOn 3, 0, 0⟩, some ⟨.traceOn 4, 0, 0⟩] ∧
      Moved run wide ∧
      wide.toList = run.toList ∧
      run.enqueue .standard ⟨.traceOn 6, 0, 0⟩ =
        ⟨.ok (), wide.store ⟨.traceOn 6, 0, 0⟩, #[.queueGrew ⟨4, 8, 3⟩]⟩ := by
  have hq := @grow_of_full .standard .standard 4 8 ⟨Array.replicate 4 none, 0, 0, 8⟩ _
    ⟨#[some ⟨.traceOn 5, 0, 0⟩, none, none, none, none, none, some ⟨.traceOn 3, 0, 0⟩,
      some ⟨.traceOn 4, 0, 0⟩], 1, 6, 8⟩ ⟨4, 8, 3⟩ rfl
    [(.standard, .push ⟨.traceOn 1, 0, 0⟩), (.standard, .push ⟨.traceOn 2, 0, 0⟩),
      (.standard, .push ⟨.traceOn 3, 0, 0⟩), (.standard, .drain 2),
      (.standard, .push ⟨.traceOn 4, 0, 0⟩), (.standard, .push ⟨.traceOn 5, 0, 0⟩)] rfl rfl rfl
  have hmoved := hq.2.2.1.resolve_right fun hw => absurd hw.1 (by decide)
  exact ⟨_, _, rfl, rfl, rfl, hmoved.2, hq.2.2.2.1, hq.2.2.2.2.2 _⟩

end EventQueue

end TraceRelay
