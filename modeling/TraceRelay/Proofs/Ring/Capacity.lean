/-
  TraceRelay — the sizes of a ring buffer's store.

  * `le_roundedCapacity` and `roundedCapacity_le`: rounding gives the least power of
    two, from 2 on, that is no less than the request;
  * `create_eq_ok_iff` says when a ring buffer is made, and which;
  * `Ring.Sized` are the sizes that come up: a power of two, at least two and at
    most the limit.  Every operation keeps them.
-/
import TraceRelay.Proofs.Ring.Layout

namespace TraceRelay

namespace Ring

variable {α : Type}

/-! ## Rounding -/

theorem isPowerOfTwo_roundedCapacity (c : UInt64) : (roundedCapacity c).isPowerOfTwo :=
  ⟨_, Nat.one_shiftLeft _⟩

theorem two_le_roundedCapacity (c : UInt64) : 2 ≤ roundedCapacity c := by
  rw [roundedCapacity, Nat.one_shiftLeft]
  exact Nat.le_of_dvd (Nat.two_pow_pos _) ⟨_, Nat.pow_succ'⟩

theorem le_roundedCapacity (c : UInt64) : c.toNat ≤ roundedCapacity c := by
  have h := Nat.lt_log2_self (n := max c.toNat minCapacity - 1)
  have hc := Nat.le_max_left c.toNat minCapacity
  rw [roundedCapacity, Nat.one_shiftLeft]; omega

/-- No smaller power of two would do. -/
theorem roundedCapacity_le {c : UInt64} {n : Nat} (hp : n.isPowerOfTwo) (h₂ : 2 ≤ n)
    (h : c.toNat ≤ n) : roundedCapacity c ≤ n := by
  have hm : max c.toNat minCapacity ≤ n := Nat.max_le.2 ⟨h, h₂⟩
  have hmin : 2 ≤ max c.toNat minCapacity := Nat.le_max_right c.toNat minCapacity
  obtain ⟨k, rfl⟩ := hp
  rw [roundedCapacity, Nat.one_shiftLeft]
  refine Nat.pow_le_pow_right Nat.two_pos ((Nat.log2_lt ?_).2 ?_) <;> omega

/-- Rounding leaves a size alone that is right already. -/
theorem roundedCapacity_ofNat {n : Nat} (hp : n.isPowerOfTwo) (h₂ : 2 ≤ n)
    (hn : n < UInt64.size) : roundedCapacity (.ofNat n) = n := by
  have hc : (UInt64.ofNat n).toNat = n := UInt64.toNat_ofNat_of_lt' hn
  refine Nat.le_antisymm (roundedCapacity_le hp h₂ (Nat.le_of_eq hc)) ?_
  simpa only [hc] using le_roundedCapacity (.ofNat n)

/-! ## Creation -/

theorem create_eq_ok_iff {mem : Allocator} {c limit : UInt64} {r : Ring α} :
    create mem c limit = .ok r ↔ roundedCapacity c ≤ limit.toNat ∧ mem (roundedCapacity c) = true ∧
      r = ⟨Array.replicate (roundedCapacity c) none, 0, 0, limit⟩ := by
  have hlim := limit.toNat_lt_size
  simp only [create]
  split
  · exact ⟨nofun, fun h => by omega⟩
  · split
    · exact ⟨nofun, fun h => by omega⟩
    · split
      · rename_i h₁ h₂
        exact ⟨fun h => ⟨by omega, h₂, by injection h with h; exact h.symm⟩, fun h => by rw [h.2.2]⟩
      · rename_i h₁ h₂
        exact ⟨nofun, fun h => absurd h.2.1 h₂⟩

/-! ## Sizes that come up -/

/-- The store has a size that a ring buffer's can have. -/
structure Sized (r : Ring α) : Prop where
  isPowerOfTwo : r.capacity.isPowerOfTwo
  two_le : 2 ≤ r.capacity
  le_limit : r.capacity ≤ r.limit.toNat

/-- The store can be doubled iff its double is a size, within the limit and granted. -/
theorem growthRefusal?_eq_none_iff {mem : Allocator} {r : Ring α} :
    r.growthRefusal? mem = none ↔ 2 * r.capacity ≤ r.limit.toNat ∧ mem (2 * r.capacity) = true := by
  have := r.limit.toNat_lt_size
  simp only [growthRefusal?]
  split
  · exact ⟨nofun, fun h => by omega⟩
  · split
    · exact ⟨nofun, fun h => by omega⟩
    · split
      · rename_i h₁ h₂
        exact ⟨fun _ => ⟨by omega, h₂⟩, fun _ => rfl⟩
      · rename_i h₁ h₂
        exact ⟨nofun, fun h => absurd h.2 h₂⟩

namespace Sized

variable {r : Ring α} {as : List α}

theorem pos (h : r.Sized) : 0 < r.capacity :=
  Nat.lt_of_lt_of_le Nat.two_pos h.two_le

theorem limit_pos (h : r.Sized) : 0 < r.limit.toNat :=
  Nat.lt_of_lt_of_le h.pos h.le_limit

/-- Only the size of the store and the limit matter. -/
theorem congr {r' : Ring α} (h : r.Sized) (hc : r'.capacity = r.capacity)
    (hl : r'.limit = r.limit) :
    r'.Sized :=
  ⟨hc ▸ h.isPowerOfTwo, hc ▸ h.two_le, by rw [hc, hl]; exact h.le_limit⟩

theorem create {mem : Allocator} {c limit : UInt64} (h : Ring.create mem c limit = .ok r) :
    r.Sized := by
  obtain ⟨hl, -, rfl⟩ := create_eq_ok_iff.1 h
  have hc : capacity (⟨Array.replicate (roundedCapacity c) none, 0, 0, limit⟩ : Ring α) =
      roundedCapacity c := Array.size_replicate
  refine ⟨?_, ?_, ?_⟩ <;> rw [hc]
  · exact isPowerOfTwo_roundedCapacity c
  · exact two_le_roundedCapacity c
  · exact hl

theorem pop (h : r.Sized) : r.pop.2.Sized :=
  h.congr (capacity_pop r) (limit_pop r)

theorem clear (h : r.Sized) : r.clear.2.Sized :=
  h.congr (capacity_clear r) (limit_clear r)

theorem widen (h : r.Sized) (ha : r.Holds as) {mem : Allocator} (hg : r.growthRefusal? mem = none) :
    r.widen.Sized := by
  obtain ⟨k, hk⟩ := h.isPowerOfTwo
  have hc := ha.capacity_widen
  refine ⟨⟨k + 1, by rw [hc, hk, Nat.pow_succ, Nat.mul_comm]⟩, ?_, ?_⟩ <;> rw [hc]
  · have := h.two_le; omega
  · rw [limit_widen]; exact (growthRefusal?_eq_none_iff.1 hg).1

theorem push (h : r.Sized) (ha : r.Holds as) (mem : Allocator) (a : α) :
    (r.push mem a).2.Sized := by
  rcases push_cases mem r a with ⟨_, -, -, hp⟩ | ⟨-, hg, hp⟩ | ⟨-, hp⟩ <;> rw [hp]
  · exact h
  · exact (h.widen ha hg).congr (capacity_store _ _) (limit_store _ _)
  · exact h.congr (capacity_store _ _) (limit_store _ _)

theorem take (h : r.Sized) (n : Nat) : (r.drain.take n).2.ring.Sized :=
  h.congr (capacity_take n r) (limit_take n r)

end Sized

/-- **A cleared ring buffer is a new one of the same size.** -/
theorem create_eq_clear {r : Ring α} (h : r.Sized) {mem : Allocator} (hm : mem r.capacity = true) :
    create mem (.ofNat r.capacity) r.limit = .ok r.clear.2 := by
  have hr := roundedCapacity_ofNat h.isPowerOfTwo h.two_le
    (Nat.lt_of_le_of_lt h.le_limit r.limit.toNat_lt_size)
  rw [create_eq_ok_iff, hr]
  exact ⟨h.le_limit, hm, rfl⟩

/-- The store doubles iff one slot only was left. -/
theorem Holds.capacity_push_of_ok {r : Ring α} {as : List α} (h : r.Holds as) {mem : Allocator}
    {a : α} {g : Option Growth} (hp : (r.push mem a).1 = .ok g) : (r.push mem a).2.capacity =
      if r.length = r.capacity - 1 then 2 * r.capacity else r.capacity := by
  have hlt := h.length_lt
  rw [h.length]
  rcases push_cases mem r a with ⟨_, -, -, hp'⟩ | ⟨hf, -, hp'⟩ | ⟨hf, hp'⟩ <;> rw [hp'] at hp ⊢
  · cases hp
  · have hfull := h.isFull_iff.1 hf
    rw [if_pos (by omega), capacity_store, h.capacity_widen]
  · have hroom : as.length + 1 ≠ r.capacity := fun hc => by simp [h.isFull_iff.2 hc] at hf
    rw [if_neg (by omega), capacity_store]

/-! ## Representing a queue -/

/-- `r` holds the values `as`, in a store of a size that comes up. -/
structure Represents (r : Ring α) (as : List α) : Prop extends Holds r as, Sized r

namespace Represents

variable {r : Ring α} {as : List α}

theorem self (h : r.Represents as) : r.Represents r.toList :=
  h.toHolds.toList ▸ h

theorem create {mem : Allocator} {c limit : UInt64} (h : Ring.create mem c limit = .ok r) :
    r.Represents [] := by
  refine ⟨?_, .create h⟩
  obtain ⟨-, -, rfl⟩ := create_eq_ok_iff.1 h
  exact holds_replicate (Nat.lt_of_lt_of_le Nat.two_pos (two_le_roundedCapacity c)) limit

theorem pop (h : r.Represents as) : r.pop.2.Represents as.tail :=
  ⟨h.toHolds.pop_snd, h.toSized.pop⟩

theorem take (h : r.Represents as) (n : Nat) : (r.drain.take n).2.ring.Represents (as.drop n) :=
  ⟨h.toHolds.take_snd n, h.toSized.take n⟩

theorem clear (h : r.Represents as) : r.clear.2.Represents [] :=
  ⟨holds_clear h.toSized.pos, h.toSized.clear⟩

theorem widen (h : r.Represents as) {mem : Allocator} (hg : r.growthRefusal? mem = none) :
    r.widen.Represents as :=
  ⟨h.toHolds.widen, h.toSized.widen h.toHolds hg⟩

theorem push (h : r.Represents as) {mem : Allocator} {a : α} {g : Option Growth}
    (hp : (r.push mem a).1 = .ok g) : (r.push mem a).2.Represents (as ++ [a]) :=
  ⟨h.toHolds.push hp, h.toSized.push h.toHolds mem a⟩

end Represents

end Ring

end TraceRelay
