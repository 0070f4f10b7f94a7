/-
  TraceRelay — no step of a ring buffer goes wrong.

  A ring buffer is well-formed if its store has a size that comes up, and if just the slots from
  the tail up to and without the head are filled.  That is all it takes for the operations to be
  free of faults.

  * `Ring.WellFormed`, and `wellFormed_iff`: the ring buffers that represent a queue;
  * `Holds.rotate_slots`: the slots from the tail around, and `Holds.countP_slots`;
  * `Ring.Faultless`: every operation, step by step, ends with what the operation returns;
  * `wellFormed_of_create`: all that can be made of a new event queue is well-formed.
-/
import Mathlib.Data.List.Rotate
import TraceRelay.Proofs.EventQueue
import TraceRelay.Ring.Checked

namespace TraceRelay

/-! ## Steps -/

namespace Checked

variable {α β : Type}

@[simp] theorem ok_bind (a : α) (f : α → Except Fault β) : (Except.ok a >>= f) = f a :=
  rfl

theorem add_of_lt {a b : Nat} (h : a + b < UInt64.size) : add a b = .ok (a + b) :=
  if_pos h

theorem sub_of_le {a b : Nat} (h : b ≤ a) : sub a b = .ok (a - b) :=
  if_pos h

theorem rem_of_pos {a b : Nat} (h : 0 < b) : rem a b = .ok (a % b) :=
  if_neg (Nat.ne_of_gt h)

theorem get_of_eq_some {xs : Array α} {i : Nat} {x : α} (h : xs[i]? = some x) :
    get xs i = .ok x := by
  rw [get, h]

theorem set_of_lt {xs : Array α} {i : Nat} (h : i < xs.size) (x : α) :
    set xs i x = .ok (xs.setIfInBounds i x) :=
  if_pos h

theorem split_of_le {xs : Array α} {i : Nat} (h : i ≤ xs.size) :
    split xs i = .ok (xs.extract 0 i, xs.extract i) :=
  if_pos h

theorem split_append (xs ys : Array α) : split (xs ++ ys) xs.size = .ok (xs, ys) := by
  rw [split_of_le (by rw [Array.size_append]; omega), Array.extract_append_left,
    Array.extract_size, Array.extract_append]
  simp

theorem swap_of_size {xs ys : Array α} (h : xs.size = ys.size) : swap xs ys = .ok (ys, xs) :=
  if_pos h

end Checked

namespace Ring

variable {α : Type} {r : Ring α} {as : List α}

/-! ## Well-formed ring buffers -/

/-- The filled slots of `r` are those from the tail up to and without the head. -/
structure WellFormed (r : Ring α) : Prop extends Sized r where
  head_lt : r.head < r.capacity
  tail_lt : r.tail < r.capacity
  filled : ∀ i < r.length, ∃ a, r.slots[(r.tail + i) % r.capacity]? = some (some a)
  empty : ∀ i, r.length ≤ i → i < r.capacity → r.slots[(r.tail + i) % r.capacity]? = some none

namespace WellFormed

/-- The position after the last filled one is the head. -/
theorem head_eq (h : r.WellFormed) : r.head = (r.tail + r.length) % r.capacity := by
  have ht := h.tail_lt
  have hsum : r.tail + (r.head + r.capacity - r.tail) = r.head + r.capacity := by omega
  rw [length, Nat.add_mod_mod, hsum, Nat.add_mod_right, Nat.mod_eq_of_lt h.head_lt]

theorem length_lt (h : r.WellFormed) : r.length < r.capacity :=
  Nat.mod_lt _ h.pos

theorem exists_represents (h : r.WellFormed) : ∃ as, r.Represents as := by
  choose a ha using h.filled
  have hl : (List.ofFn fun i : Fin r.length => a i i.isLt).length = r.length := List.length_ofFn
  refine ⟨_, ⟨hl ▸ h.length_lt, h.tail_lt, hl.symm ▸ h.head_eq, fun i hi => ?_⟩, h.toSized⟩
  rw [List.getElem?_ofFn]
  by_cases hlt : i < r.length
  · rw [dif_pos hlt]; exact ha i hlt
  · rw [dif_neg hlt]; exact h.empty i (Nat.le_of_not_lt hlt) hi

end WellFormed

theorem Represents.wellFormed (h : r.Represents as) : r.WellFormed := by
  refine ⟨h.toSized, h.head_lt, h.tail_lt, fun i hi => ?_, fun i hl hi => ?_⟩
  · rw [h.toHolds.length] at hi
    exact ⟨as[i], by rw [h.slot i (Nat.lt_trans hi h.length_lt), List.getElem?_eq_getElem hi]⟩
  · rw [h.toHolds.length] at hl
    rw [h.slot i hi, List.getElem?_eq_none hl]

/-- **The well-formed ring buffers are those that represent a queue.** -/
theorem wellFormed_iff : r.WellFormed ↔ ∃ as, r.Represents as :=
  ⟨WellFormed.exists_represents, fun ⟨_, h⟩ => h.wellFormed⟩

/-! ## The number of filled slots -/

/-- From the tail around, a store has the values first, and then empty slots only. -/
theorem Holds.rotate_slots (h : r.Holds as) : r.slots.toList.rotate r.tail =
    as.map some ++ List.replicate (r.capacity - as.length) none := by
  have hl := h.length_lt
  have hs : r.slots.toList.length = r.capacity := Array.length_toList
  refine List.ext_getElem? fun i => ?_
  by_cases hi : i < r.capacity
  · rw [List.getElem?_rotate (by rw [hs]; exact hi), hs, Nat.add_comm, Array.getElem?_toList,
      h.slot i hi, List.getElem?_append, List.length_map, List.getElem?_map]
    by_cases hlt : i < as.length
    · rw [if_pos hlt, List.getElem?_eq_getElem hlt]; rfl
    · rw [if_neg hlt, List.getElem?_eq_none (by omega), List.getElem?_replicate,
        if_pos (by omega)]
  · rw [List.getElem?_eq_none, List.getElem?_eq_none]
    · rw [List.length_append, List.length_map, List.length_replicate]; omega
    · rw [List.length_rotate, hs]; omega

theorem Holds.countP_slots (h : r.Holds as) : r.slots.countP Option.isSome = r.length := by
  have hp := (List.rotate_perm r.slots.toList r.tail).countP_eq Option.isSome
  rw [h.rotate_slots, List.countP_append, List.countP_map, List.countP_replicate] at hp
  rw [h.length, ← Array.countP_toList, ← hp]
  simp

/-! ## Operations, step by step -/

/-- Twice the number of slots is a word, or the first number that is none. -/
theorem Sized.twice_le (h : r.Sized) : 2 * r.capacity ≤ UInt64.size := by
  obtain ⟨k, hk⟩ := h.isPowerOfTwo
  have hlt : 2 ^ k < 2 ^ 64 :=
    hk ▸ Nat.lt_of_le_of_lt h.le_limit r.limit.toNat_lt_size
  rw [Nat.pow_lt_pow_iff_right Nat.one_lt_two] at hlt
  calc 2 * r.capacity = 2 ^ (k + 1) := by rw [hk, Nat.pow_succ']
    _ ≤ 2 ^ 64 := Nat.pow_le_pow_right Nat.two_pos hlt

namespace Checked

open TraceRelay.Checked

theorem next_eq (h : r.Sized) {i : Nat} (hi : i < r.capacity) :
    next r i = .ok ((i + 1) % r.capacity) := by
  have hw := h.twice_le
  have hc := h.two_le
  rw [next, add_of_lt (by omega)]
  exact rem_of_pos h.pos

theorem length_eq (h : r.Represents as) : length r = .ok r.length := by
  have hw := h.twice_le
  have hh := h.head_lt
  have ht := h.tail_lt
  rw [length, add_of_lt (by omega), ok_bind, sub_of_le (by omega), ok_bind]
  exact rem_of_pos h.pos

theorem pop_eq (h : r.Represents as) : pop r = .ok r.pop := by
  by_cases he : r.head = r.tail
  · rw [pop, isEmpty, if_pos (beq_iff_eq.2 he), pop_of_eq he]; rfl
  · have hs := h.slot_ge (Nat.le_refl _) h.tail_lt
    rw [pop, isEmpty, if_neg (mt beq_iff_eq.1 he), get_of_eq_some hs, ok_bind,
      set_of_lt h.tail_lt, ok_bind, next_eq h.toSized h.tail_lt, pop_of_ne he, hs]
    rfl

theorem take_eq (h : r.Represents as) (n : Nat) :
    take n r = .ok ((r.drain.take n).1, (r.drain.take n).2.ring) := by
  induction n generalizing r as with
  | zero => rfl
  | succ n ih =>
    have hrest := ih h.pop
    rw [take, pop_eq h, ok_bind, drain, Drain.take_succ]
    rcases hp : r.pop with ⟨_ | a, rest⟩
    · rfl
    · rw [hp] at hrest
      dsimp only
      rw [hrest]; rfl

theorem clear_eq (h : r.Represents as) : clear r = .ok r.clear := by
  rw [clear, length_eq h]; rfl

theorem store_eq (h : r.Represents as) (a : α) : store r a = .ok (r.store a) := by
  rw [store, next_eq h.toSized h.head_lt, ok_bind, set_of_lt h.head_lt]; rfl

/-- The slots of a wrapped store that was doubled, after the values from the tail on were swapped
    with the end of the new slots. -/
theorem widen_eq_swap (hw : r.head < r.tail) (ht : r.tail ≤ r.capacity) :
    let fresh := Array.replicate r.capacity none
    r.widen = { r with
      slots := r.slots.extract 0 r.tail ++ fresh.extract r.tail ++
        (fresh.extract 0 r.tail ++ r.slots.extract r.tail)
      tail := r.tail + r.capacity } := by
  intro fresh
  have hfresh : fresh.extract r.tail ++ fresh.extract 0 r.tail = fresh := by
    rw [Array.extract_replicate, Array.extract_replicate, Array.replicate_append_replicate,
      Array.size_replicate]
    congr 1; omega
  have hslots : r.slots.extract 0 r.tail ++ fresh.extract r.tail ++
      (fresh.extract 0 r.tail ++ r.slots.extract r.tail) =
        r.slots.extract 0 r.tail ++ fresh ++ r.slots.extract r.tail := by
    rw [← Array.append_assoc, @Array.append_assoc _ (r.slots.extract 0 r.tail), hfresh]
  rw [hslots]
  exact widen_of_lt hw

/-- **The store doubles in place.** -/
theorem grow_eq (h : r.Represents as) {mem : Allocator} (hg : r.growthRefusal? mem = none) :
    grow mem r = .ok (.ok ⟨r.capacity, r.widen.capacity, r.widen.length⟩, r.widen) := by
  have hwide := h.widen hg
  have ht := Nat.le_of_lt h.tail_lt
  have hafter : sub (2 * r.capacity) r.capacity = .ok r.capacity := by
    rw [sub_of_le (by omega)]; congr 1; omega
  rw [grow, hg]
  dsimp only
  rw [hafter, ok_bind, h.toHolds.capacity_widen]
  by_cases hw : r.head < r.tail
  · have hcut := split_append r.slots (Array.replicate r.capacity none)
    have hsize : (r.slots.extract r.tail).size =
        ((Array.replicate r.capacity (none : Option α)).extract r.tail).size := by
      rw [Array.size_extract, Array.size_extract, Array.size_replicate]; rfl
    have htail : sub (2 * r.capacity) (r.capacity - r.tail) = .ok (r.tail + r.capacity) := by
      rw [sub_of_le (by omega)]; congr 1; omega
    change split _ r.capacity = _ at hcut
    -- the store is cut where the old one ended, and both halves at the tail
    rw [if_pos hw, sub_of_le ht, ok_bind, hcut, ok_bind]
    dsimp only
    rw [split_of_le ht, ok_bind, split_of_le (by rw [Array.size_replicate]; exact ht), ok_bind]
    dsimp only
    rw [swap_of_size hsize, ok_bind, htail, ok_bind, pure_bind]
    dsimp only
    rw [← widen_eq_swap hw ht, length_eq hwide]; rfl
  · rw [if_neg hw, pure_bind, ← widen_of_le (Nat.le_of_not_lt hw), length_eq hwide]; rfl

theorem push_eq (h : r.Represents as) (mem : Allocator) (a : α) :
    push mem r a = .ok (r.push mem a) := by
  rw [push, next_eq h.toSized h.head_lt, ok_bind]
  rcases push_cases mem r a with ⟨e, hf, hg, hp⟩ | ⟨hf, hg, hp⟩ | ⟨hf, hp⟩
  · rw [if_pos (beq_iff_eq.1 hf), grow, hg, hp]; rfl
  · rw [if_pos (beq_iff_eq.1 hf), grow_eq h hg, ok_bind]
    dsimp only
    rw [store_eq (h.widen hg), hp]; rfl
  · rw [if_neg (beq_eq_false_iff_ne.1 hf), store_eq h, hp]; rfl

end Checked

/-- No operation on `r` goes wrong in a step, and each returns what the operation on exact numbers
    returns. -/
structure Faultless (r : Ring α) : Prop where
  length : Checked.length r = .ok r.length
  pop : Checked.pop r = .ok r.pop
  /-- A value is found in every ring buffer that is not empty. -/
  pop_isSome : r.isEmpty = false → ∃ a, r.pop.1 = some a
  take : ∀ n, Checked.take n r = .ok ((r.drain.take n).1, (r.drain.take n).2.ring)
  clear : Checked.clear r = .ok r.clear
  push : ∀ mem a, Checked.push mem r a = .ok (r.push mem a)

theorem Represents.faultless (h : r.Represents as) : r.Faultless where
  length := Checked.length_eq h
  pop := Checked.pop_eq h
  pop_isSome he := by
    cases as with
    | nil => rw [h.toHolds.isEmpty_iff.2 rfl] at he; cases he
    | cons a as => exact ⟨a, h.toHolds.pop_fst⟩
  take := Checked.take_eq h
  clear := Checked.clear_eq h
  push := Checked.push_eq h

end Ring

/-! ## Event queues -/

namespace EventQueue

/-- **No operation on an event queue goes wrong.**  All that can be made of a new queue is
    well-formed.  A well-formed queue has as many filled slots as it has events, no operation on it
    goes wrong, and every operation leaves it well-formed. -/
theorem wellFormed_of_create {mem : Allocator} {c limit : UInt64} {q : EventQueue}
    (h : Ring.create mem c limit = .ok q) (calls : List (Allocator × Op)) :
    (performAll calls q).state.WellFormed ∧
    ∀ r : EventQueue, r.WellFormed →
      r.slots.countP Option.isSome = r.length ∧
      r.Faultless ∧
      ∀ allow op, (perform allow op r).state.WellFormed := by
  refine ⟨?_, fun r hr => ?_⟩
  · obtain ⟨es, -, hq⟩ := performAll_listRun (Ring.Represents.create h) calls
    exact hq.wellFormed
  · obtain ⟨es, hes⟩ := Ring.wellFormed_iff.1 hr
    refine ⟨hes.toHolds.countP_slots, hes.faultless, fun allow op => ?_⟩
    obtain ⟨es', -, hes'⟩ := perform_listStep hes allow op
    exact hes'.wellFormed

/-- A queue that wraps, is refused a store, doubles and goes on. -/
theorem wellFormed_of_create_four :
    Ring.create .standard 4 8 = .ok (⟨Array.replicate 4 none, 0, 0, 8⟩ : EventQueue) ∧
    ∃ q : EventQueue, q.WellFormed ∧ q.Faultless ∧ q.head = 2 ∧ q.tail = 7 ∧
      q.slots = #[some ⟨.traceOn 5, 0, 0⟩, some ⟨.traceOn 6, 0, 0⟩, none, none, none, none, none,
        some ⟨.traceOn 4, 0, 0⟩] := by
  have hq := @wellFormed_of_create .standard 4 8 ⟨Array.replicate 4 none, 0, 0, 8⟩ rfl
    [(.standard, .push ⟨.traceOn 1, 0, 0⟩), (.standard, .push ⟨.traceOn 2, 0, 0⟩),
      (.standard, .push ⟨.traceOn 3, 0, 0⟩), (.standard, .drain 2),
      (.standard, .push ⟨.traceOn 4, 0, 0⟩), (.standard, .push ⟨.traceOn 5, 0, 0⟩),
      (fun _ => false, .push ⟨.traceOn 6, 0, 0⟩), (.standard, .push ⟨.traceOn 6, 0, 0⟩),
      (.standard, .pop)]
  exact ⟨rfl, _, hq.1, (hq.2 _ hq.1).2.1, rfl, rfl, rfl⟩

end EventQueue

end TraceRelay
