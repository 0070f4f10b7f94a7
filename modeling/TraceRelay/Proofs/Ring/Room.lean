/-
  TraceRelay — the room in a ring buffer.

  With the standard allocator the limit alone decides how many values a ring
  buffer can hold: one less than the slots of the largest store that it can get.
  How the store came to its size, and where the values lie in it, do not matter.

  * `slotBound limit` is the number of slots of that store;
  * `isOk_push_standard_iff`: a push fails iff `slotBound limit - 1` values are held;
  * `refusal limit` is the error that it fails with.

  With any other allocator, `Allocator.Grants` says that a number of values can be held, and
  `push_of_grants` that they are.
-/
import TraceRelay.Proofs.Ring.Capacity

namespace TraceRelay

namespace Ring

variable {α : Type} {r : Ring α} {as : List α}

/-- The largest power of two that is neither above `limit` nor above 2^57. -/
def slotBound (limit : UInt64) : Nat :=
  1 <<< (min limit.toNat (1 <<< 57)).log2

/-- A power of two is at most the bound iff it is within the limit and granted. -/
theorem le_slotBound_iff {limit : UInt64} {n : Nat} (hp : n.isPowerOfTwo) (hl : 0 < limit.toNat) :
    n ≤ slotBound limit ↔ n ≤ limit.toNat ∧ Allocator.standard n = true := by
  obtain ⟨k, rfl⟩ := hp
  have hm : min limit.toNat (2 ^ 57) ≠ 0 := by omega
  rw [slotBound, Nat.one_shiftLeft, Nat.one_shiftLeft, Nat.pow_le_pow_iff_right Nat.one_lt_two,
    Nat.le_log2 hm, Nat.le_min, Nat.pow_le_pow_iff_right Nat.one_lt_two, Allocator.standard,
    decide_eq_true_iff, Nat.one_shiftLeft, Nat.pow_lt_pow_iff_right Nat.one_lt_two,
    Nat.lt_succ_iff (n := 57)]

/-- A power of two is below the bound iff its double is at most the bound. -/
theorem lt_slotBound_iff {limit : UInt64} {n : Nat} (hp : n.isPowerOfTwo) :
    n < slotBound limit ↔ 2 * n ≤ slotBound limit := by
  obtain ⟨k, rfl⟩ := hp
  rw [slotBound, Nat.one_shiftLeft, ← Nat.pow_succ', Nat.pow_lt_pow_iff_right Nat.one_lt_two,
    Nat.pow_le_pow_iff_right Nat.one_lt_two, Nat.succ_le_iff]

/-- The store is one that the standard allocator grants. -/
def Granted (r : Ring α) : Prop :=
  Allocator.standard r.capacity = true

theorem Granted.create {c limit : UInt64} (h : Ring.create .standard c limit = .ok r) :
    r.Granted := by
  obtain ⟨-, hm, rfl⟩ := create_eq_ok_iff.1 h
  rw [Granted, capacity, Array.size_replicate]
  exact hm

theorem Granted.push (h : r.Granted) (ha : r.Holds as) (a : α) :
    (r.push .standard a).2.Granted := by
  rcases push_cases .standard r a with ⟨_, -, -, hp⟩ | ⟨-, hg, hp⟩ | ⟨-, hp⟩ <;> rw [hp, Granted]
  · exact h
  · rw [capacity_store, ha.capacity_widen]
    exact (growthRefusal?_eq_none_iff.1 hg).2
  · rw [capacity_store]; exact h

/-- A store can be doubled iff it has fewer slots than the largest one. -/
theorem growthRefusal?_standard_iff (h : r.Sized) :
    r.growthRefusal? .standard = none ↔ r.capacity < slotBound r.limit := by
  obtain ⟨k, hk⟩ := h.isPowerOfTwo
  have hd : (2 * r.capacity).isPowerOfTwo := ⟨k + 1, by rw [hk, Nat.pow_succ']⟩
  rw [growthRefusal?_eq_none_iff, lt_slotBound_iff h.isPowerOfTwo, le_slotBound_iff hd h.limit_pos]

theorem capacity_le_slotBound (h : r.Sized) (hg : r.Granted) : r.capacity ≤ slotBound r.limit :=
  (le_slotBound_iff h.isPowerOfTwo h.limit_pos).2 ⟨h.le_limit, hg⟩

/-- One value less than the largest store has slots can be held. -/
theorem length_lt_slotBound (h : r.Represents as) (hg : r.Granted) :
    as.length < slotBound r.limit :=
  Nat.lt_of_lt_of_le h.length_lt (capacity_le_slotBound h.toSized hg)

/-- **A push fails iff the largest store is full.** -/
theorem isOk_push_standard_iff (h : r.Represents as) (hg : r.Granted) (a : α) :
    (r.push .standard a).1.isOk = true ↔ as.length + 1 < slotBound r.limit := by
  have hf := h.toHolds.isFull_iff
  have hl := h.length_lt
  have hb := capacity_le_slotBound h.toSized hg
  have hr := growthRefusal?_standard_iff h.toSized
  rcases push_cases .standard r a with ⟨e, hf', hg', hp⟩ | ⟨hf', hg', hp⟩ | ⟨hf', hp⟩ <;> rw [hp]
  · have hne : ¬ r.capacity < slotBound r.limit := fun hc => by simp [hr.2 hc] at hg'
    simp only [Except.isOk, Except.toBool, Bool.false_eq_true, false_iff]
    rw [← hf.1 hf'] at hne; exact hne
  · simp only [Except.isOk, Except.toBool, true_iff]
    rw [hf.1 hf']; exact hr.1 hg'
  · have hne : as.length + 1 ≠ r.capacity := fun hc => by simp [hf.2 hc] at hf'
    simp only [Except.isOk, Except.toBool, true_iff]; omega

/-! ## The error -/

/-- Why the largest store is not doubled: its double is above the limit, or is not granted. -/
def refusal (limit : UInt64) : StoreError :=
  if limit.toNat < 2 * slotBound limit then .limitReached limit
  else .allocationFailed (.ofNat (2 * slotBound limit))

theorem isPowerOfTwo_slotBound (limit : UInt64) : (slotBound limit).isPowerOfTwo :=
  ⟨_, Nat.one_shiftLeft _⟩

theorem growthRefusal?_standard_of_eq (h : r.Sized) (hc : r.capacity = slotBound r.limit) :
    r.growthRefusal? .standard = some (refusal r.limit) := by
  obtain ⟨k, hk⟩ := h.isPowerOfTwo
  have hd : (2 * r.capacity).isPowerOfTwo := ⟨k + 1, by rw [hk, Nat.pow_succ']⟩
  have hpos := h.pos
  have hfits := (le_slotBound_iff h.isPowerOfTwo h.limit_pos).1 (Nat.le_of_eq hc)
  have htwice := mt (le_slotBound_iff hd h.limit_pos).2 (by omega)
  simp only [Allocator.standard, decide_eq_true_eq] at hfits htwice
  rw [growthRefusal?, refusal, ← hc, if_neg (by simp [UInt64.size]; omega)]
  split
  · rfl
  · rename_i hl
    rw [if_neg]
    simp only [Allocator.standard, decide_eq_true_eq]
    exact fun hg => htwice ⟨by omega, hg⟩

/-- **A push appends, or fails with the error of the largest store.** -/
theorem fst_push_standard (h : r.Represents as) (hg : r.Granted) (a : α) :
    (as.length + 1 < slotBound r.limit ∧ ∃ g, (r.push .standard a).1 = .ok g) ∨
    (as.length + 1 = slotBound r.limit ∧ (r.push .standard a).1 = .error (refusal r.limit)) := by
  have hok := isOk_push_standard_iff h hg a
  have hlt := length_lt_slotBound h hg
  rcases push_cases .standard r a with ⟨e, hf, he, hp⟩ | ⟨-, -, hp⟩ | ⟨-, hp⟩ <;> rw [hp] at hok ⊢
  · have hnot : ¬ as.length + 1 < slotBound r.limit := fun hl => by cases hok.2 hl
    have hfull : as.length + 1 = slotBound r.limit := by omega
    have hlargest : r.capacity = slotBound r.limit := (h.toHolds.isFull_iff.1 hf).symm.trans hfull
    rw [growthRefusal?_standard_of_eq h.toSized hlargest] at he
    obtain rfl := Option.some.inj he
    exact Or.inr ⟨hfull, rfl⟩
  · exact Or.inl ⟨hok.1 rfl, _, rfl⟩
  · exact Or.inl ⟨hok.1 rfl, _, rfl⟩

end Ring

/-! ## Any allocator -/

/-- The allocator grants the stores that `n` values need, from a store of `capacity` slots on: one
    that should hold as many values as it has slots is doubled. -/
def Allocator.Grants (mem : Allocator) (capacity n : Nat) : Prop :=
  ∀ k, capacity <<< k ≤ n →
    capacity <<< (k + 1) < UInt64.size ∧ mem (capacity <<< (k + 1)) = true

variable {mem : Allocator} {capacity n : Nat}

/-- Values for which there is room need no store. -/
theorem Allocator.Grants.of_lt (h : n < capacity) : mem.Grants capacity n := by
  intro k hk
  have hle : capacity ≤ capacity <<< k := by
    rw [Nat.shiftLeft_eq]
    exact Nat.le_mul_of_pos_right capacity (Nat.two_pow_pos k)
  omega

theorem Allocator.Grants.double (h : mem.Grants capacity n) : mem.Grants (2 * capacity) n := by
  intro k hk
  rw [← Nat.shiftLeft_succ_inside] at hk ⊢
  exact h (k + 1) hk

/-- **A push appends if the stores are granted.** -/
theorem Ring.push_of_grants {α : Type} {r : Ring α} {as : List α} (h : r.Represents as)
    (hl : UInt64.size ≤ r.limit.toNat + 1) (hg : mem.Grants r.capacity n) (hn : as.length < n)
    (a : α) :
    (∃ g, (r.push mem a).1 = .ok g) ∧ mem.Grants (r.push mem a).2.capacity n := by
  rcases push_cases mem r a with ⟨e, hf, he, hp⟩ | ⟨hf, -, hp⟩ | ⟨-, hp⟩ <;> rw [hp]
  · have hc := h.toHolds.isFull_iff.1 hf
    obtain ⟨hsize, hmem⟩ := hg 0 (by rw [Nat.shiftLeft_zero]; omega)
    rw [Nat.zero_add, Nat.shiftLeft_eq, Nat.pow_one, Nat.mul_comm] at hsize hmem
    rw [growthRefusal?_eq_none_iff.2 ⟨by omega, hmem⟩] at he
    cases he
  · refine ⟨⟨_, rfl⟩, ?_⟩
    rw [capacity_store, h.toHolds.capacity_widen]
    exact hg.double
  · exact ⟨⟨_, rfl⟩, by rw [capacity_store]; exact hg⟩

end TraceRelay
