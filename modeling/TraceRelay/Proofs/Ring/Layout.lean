/-
  TraceRelay — the layout of a ring buffer.

  `Ring.Holds r as` says where the values of a queue `as` lie in the store of
  `r`: the `i`-th of them `i` places after the tail, and nothing in the slots
  after the last one.  Every operation of a ring buffer is described by what it
  does to the queue, so that no later proof looks at a slot.

  * `Holds.length`, `Holds.toList`, `Holds.isEmpty_iff`, `Holds.isFull_iff`: what is
    read off a ring buffer;
  * `Holds.pop_fst`, `Holds.pop_snd`, `Holds.store`, `Holds.widen`, `holds_clear`: what
    the operations do;
  * `push_cases`: the three ways in which a push can go;
  * `Ring.Sized`: the sizes of store that come up.
-/
import TraceRelay.Ring.Drain

namespace TraceRelay

namespace Ring

variable {α : Type}

/-- A position that has passed the end of the store at most once. -/
theorem mod_of_lt_two_mul {i n : Nat} (h : i < 2 * n) : i % n = if i < n then i else i - n := by
  by_cases hi : i < n
  · rw [if_pos hi, Nat.mod_eq_of_lt hi]
  · rw [if_neg hi, Nat.mod_eq_sub_mod (Nat.le_of_not_lt hi), Nat.mod_eq_of_lt (by omega)]

/-- Looking up the positions of a list in turn gives the list. -/
theorem filterMap_range {f : Nat → Option α} : ∀ {as : List α}, (∀ i < as.length, f i = as[i]?) →
    (List.range as.length).filterMap f = as
  | [], _ => rfl
  | a :: as, h => by
    have h₀ : f 0 = some a := h 0 (Nat.succ_pos _)
    have hs : ∀ i < as.length, (f ∘ Nat.succ) i = as[i]? :=
      fun i hi => h (i + 1) (Nat.succ_lt_succ hi)
    rw [List.length_cons, List.range_succ_eq_map, List.filterMap_cons, h₀, List.filterMap_map,
      filterMap_range hs]

/-! ## The operations, by the fields -/

theorem pop_of_eq {r : Ring α} (h : r.head = r.tail) : r.pop = (none, r) :=
  if_pos h

theorem pop_of_ne {r : Ring α} (h : r.head ≠ r.tail) : r.pop = (r.slots[r.tail]?.join,
    { r with slots := r.slots.setIfInBounds r.tail none, tail := (r.tail + 1) % r.capacity }) :=
  if_neg h

theorem store_eq (r : Ring α) (a : α) : r.store a =
    { r with slots := r.slots.setIfInBounds r.head (some a), head := (r.head + 1) % r.capacity } :=
  rfl

theorem widen_of_lt {r : Ring α} (h : r.head < r.tail) : r.widen =
    { r with
      slots := r.slots.extract 0 r.tail ++ Array.replicate r.capacity none ++ r.slots.extract r.tail
      tail := r.tail + r.capacity } :=
  if_pos h

/-- The slots of a store that was doubled around its tail. -/
theorem getElem?_spread {slots : Array (Option α)} {t : Nat} (ht : t ≤ slots.size) (p : Nat) :
    (slots.extract 0 t ++ Array.replicate slots.size none ++ slots.extract t)[p]? =
      if p < t then slots[p]?
      else if p < t + slots.size then some none else slots[p - slots.size]? := by
  have hs : (slots.extract 0 t).size = t := by simp [ht]
  rw [Array.getElem?_append, Array.getElem?_append, Array.size_append, hs, Array.size_replicate]
  by_cases h₁ : p < t
  · rw [if_pos (by omega), if_pos h₁, if_pos h₁, Array.getElem?_extract]
    simp [ht, h₁]
  · by_cases h₂ : p < t + slots.size
    · rw [if_pos h₂, if_neg h₁, if_neg h₁, if_pos h₂, Array.getElem?_replicate, if_pos (by omega)]
    · rw [if_neg h₂, if_neg h₁, if_neg h₂, Array.getElem?_extract]
      split
      · congr 1; omega
      · rw [Array.getElem?_eq_none (by omega)]

theorem widen_of_le {r : Ring α} (h : r.tail ≤ r.head) : r.widen =
    { r with slots := r.slots ++ Array.replicate r.capacity none } :=
  if_neg (Nat.not_lt.2 h)

/-! ### What an operation leaves alone -/

@[simp] theorem capacity_pop (r : Ring α) : r.pop.2.capacity = r.capacity := by
  by_cases h : r.head = r.tail
  · rw [pop_of_eq h]
  · rw [pop_of_ne h]; exact Array.size_setIfInBounds

@[simp] theorem limit_pop (r : Ring α) : r.pop.2.limit = r.limit := by
  by_cases h : r.head = r.tail
  · rw [pop_of_eq h]
  · rw [pop_of_ne h]

@[simp] theorem capacity_store (r : Ring α) (a : α) : (r.store a).capacity = r.capacity :=
  Array.size_setIfInBounds

@[simp] theorem limit_store (r : Ring α) (a : α) : (r.store a).limit = r.limit :=
  rfl

@[simp] theorem limit_widen (r : Ring α) : r.widen.limit = r.limit := by
  by_cases h : r.head < r.tail
  · rw [widen_of_lt h]
  · rw [widen_of_le (Nat.le_of_not_lt h)]

@[simp] theorem capacity_clear (r : Ring α) : r.clear.2.capacity = r.capacity :=
  Array.size_replicate

@[simp] theorem limit_clear (r : Ring α) : r.clear.2.limit = r.limit :=
  rfl

/-! ### The ways of a push -/

theorem push_of_room {r : Ring α} (hf : r.isFull = false) (mem : Allocator) (a : α) :
    r.push mem a = (.ok none, r.store a) := by
  simp [push, hf]

theorem push_of_refusal {mem : Allocator} {r : Ring α} {e : StoreError} (hf : r.isFull = true)
    (hg : r.growthRefusal? mem = some e) (a : α) : r.push mem a = (.error e, r) := by
  simp [push, hf, hg]

theorem push_of_growth {mem : Allocator} {r : Ring α} (hf : r.isFull = true)
    (hg : r.growthRefusal? mem = none) (a : α) : r.push mem a =
      (.ok (some ⟨r.capacity, r.widen.capacity, r.widen.length⟩), r.widen.store a) := by
  simp [push, hf, hg]

/-- A push is refused, doubles the store, or just writes. -/
theorem push_cases (mem : Allocator) (r : Ring α) (a : α) :
    (∃ e, r.isFull = true ∧ r.growthRefusal? mem = some e ∧ r.push mem a = (.error e, r)) ∨
    (r.isFull = true ∧ r.growthRefusal? mem = none ∧ r.push mem a =
      (.ok (some ⟨r.capacity, r.widen.capacity, r.widen.length⟩), r.widen.store a)) ∨
    (r.isFull = false ∧ r.push mem a = (.ok none, r.store a)) := by
  cases hf : r.isFull with
  | false => exact Or.inr (Or.inr ⟨rfl, push_of_room hf mem a⟩)
  | true =>
    cases hg : r.growthRefusal? mem with
    | some e => exact Or.inl ⟨e, rfl, rfl, push_of_refusal hf hg a⟩
    | none => exact Or.inr (Or.inl ⟨rfl, rfl, push_of_growth hf hg a⟩)

/-- A refused push leaves the ring buffer as it was. -/
theorem push_snd_of_error {mem : Allocator} {r : Ring α} {a : α} {e : StoreError}
    (h : (r.push mem a).1 = .error e) : (r.push mem a).2 = r := by
  rcases push_cases mem r a with ⟨_, -, -, hp⟩ | ⟨-, -, hp⟩ | ⟨-, hp⟩ <;> rw [hp] at h ⊢ <;> cases h

@[simp] theorem limit_push (mem : Allocator) (r : Ring α) (a : α) :
    (r.push mem a).2.limit = r.limit := by
  rcases push_cases mem r a with ⟨_, -, -, hp⟩ | ⟨-, -, hp⟩ | ⟨-, hp⟩ <;> simp [hp]

/-! ### Steps of a drain -/

theorem Drain.take_succ (r : Ring α) (n : Nat) : Drain.take (n + 1) ⟨r⟩ =
    match r.pop.1 with
    | none => ([], ⟨r.pop.2⟩)
    | some a => (a :: (r.pop.2.drain.take n).1, (r.pop.2.drain.take n).2) := by
  rw [Drain.take, Drain.next?]
  rcases r.pop with ⟨_ | a, r⟩ <;> rfl

/-- A pop is a drain of one value. -/
theorem take_one (r : Ring α) : r.drain.take 1 = (r.pop.1.toList, ⟨r.pop.2⟩) := by
  rw [drain, Drain.take_succ]
  cases r.pop.1 <;> rfl

/-- What every pop leaves alone, a drain leaves alone. -/
theorem take_ring_eq {β : Type} {f : Ring α → β} (hf : ∀ r, f r.pop.2 = f r) :
    ∀ (n : Nat) (r : Ring α), f (r.drain.take n).2.ring = f r
  | 0, _ => rfl
  | n + 1, r => by
    rw [drain, Drain.take_succ]
    cases r.pop.1 with
    | none => exact hf r
    | some a => exact (take_ring_eq hf n r.pop.2).trans (hf r)

@[simp] theorem capacity_take (n : Nat) (r : Ring α) :
    (r.drain.take n).2.ring.capacity = r.capacity :=
  take_ring_eq capacity_pop n r

@[simp] theorem limit_take (n : Nat) (r : Ring α) : (r.drain.take n).2.ring.limit = r.limit :=
  take_ring_eq limit_pop n r

/-! ## Holding a queue -/

/-- `r` holds the values `as`, the oldest first.  One slot at least is left. -/
structure Holds (r : Ring α) (as : List α) : Prop where
  length_lt : as.length < r.capacity
  tail_lt : r.tail < r.capacity
  head_eq : r.head = (r.tail + as.length) % r.capacity
  slot : ∀ i < r.capacity, r.slots[(r.tail + i) % r.capacity]? = some as[i]?

theorem holds_mk {slots : Array (Option α)} {head tail n : Nat} {limit : UInt64} {as : List α}
    (hn : slots.size = n) (hl : as.length < n) (ht : tail < n) (hh : head = (tail + as.length) % n)
    (hs : ∀ i < n, slots[(tail + i) % n]? = some as[i]?) : Holds ⟨slots, head, tail, limit⟩ as := by
  subst hn; exact ⟨hl, ht, hh, hs⟩

namespace Holds

variable {r : Ring α} {as : List α}

theorem head_lt (h : r.Holds as) : r.head < r.capacity := by
  rw [h.head_eq]; exact Nat.mod_lt _ (by have := h.tail_lt; omega)

/-- The head, by whether the values wrap. -/
theorem head_eq_ite (h : r.Holds as) : r.head =
    if r.tail + as.length < r.capacity then r.tail + as.length
    else r.tail + as.length - r.capacity := by
  have := h.tail_lt
  have := h.length_lt
  rw [h.head_eq, mod_of_lt_two_mul (by omega)]

/-- The slots by position: those from the tail on, then those before it. -/
theorem slot_ge (h : r.Holds as) {j : Nat} (h₁ : r.tail ≤ j) (h₂ : j < r.capacity) :
    r.slots[j]? = some as[j - r.tail]? := by
  have := h.slot (j - r.tail) (by omega)
  rwa [Nat.add_sub_cancel' h₁, Nat.mod_eq_of_lt h₂] at this

theorem slot_lt (h : r.Holds as) {j : Nat} (hj : j < r.tail) :
    r.slots[j]? = some as[j + r.capacity - r.tail]? := by
  have ht := h.tail_lt
  have := h.slot (j + r.capacity - r.tail) (by omega)
  rwa [mod_of_lt_two_mul (by omega), if_neg (by omega),
    show r.tail + (j + r.capacity - r.tail) - r.capacity = j by omega] at this

theorem length (h : r.Holds as) : r.length = as.length := by
  have := h.tail_lt
  have := h.length_lt
  have hh := h.head_eq_ite
  split at hh <;> rw [Ring.length, mod_of_lt_two_mul (by omega)] <;> split <;> omega

theorem isEmpty_iff (h : r.Holds as) : r.isEmpty = true ↔ as = [] := by
  have := h.tail_lt
  have := h.length_lt
  have hh := h.head_eq_ite
  rw [isEmpty, beq_iff_eq, ← List.length_eq_zero_iff]
  split at hh <;> omega

theorem isFull_iff (h : r.Holds as) : r.isFull = true ↔ as.length + 1 = r.capacity := by
  have := h.tail_lt
  have := h.length_lt
  have hh := h.head_eq_ite
  rw [isFull, beq_iff_eq, mod_of_lt_two_mul (by have := h.head_lt; omega)]
  split at hh <;> split <;> omega

theorem get? (h : r.Holds as) {i : Nat} (hi : i < r.capacity) : r.get? i = as[i]? := by
  rw [Ring.get?, h.slot i hi]; rfl

/-- **A ring buffer reads as the queue that it holds.** -/
theorem toList (h : r.Holds as) : r.toList = as := by
  rw [Ring.toList, h.length]
  exact filterMap_range fun i hi => h.get? (Nat.lt_trans hi h.length_lt)

/-! ### Taking -/

theorem head_eq_tail_iff (h : r.Holds as) : r.head = r.tail ↔ as = [] := by
  rw [← h.isEmpty_iff, isEmpty, beq_iff_eq]

theorem pop_fst (h : r.Holds as) : r.pop.1 = as.head? := by
  by_cases he : r.head = r.tail
  · rw [pop_of_eq he, h.head_eq_tail_iff.1 he]; rfl
  · have h₀ := h.slot 0 (Nat.zero_lt_of_lt h.tail_lt)
    rw [Nat.add_zero, Nat.mod_eq_of_lt h.tail_lt] at h₀
    rw [pop_of_ne he, h₀, List.head?_eq_getElem?]; rfl

theorem pop_snd (h : r.Holds as) : r.pop.2.Holds as.tail := by
  by_cases he : r.head = r.tail
  · rw [pop_of_eq he, h.head_eq_tail_iff.1 he]
    simpa [h.head_eq_tail_iff.1 he] using h
  · have ht := h.tail_lt
    have hl := h.length_lt
    have hpos : 0 < as.length := List.length_pos_iff.2 (mt h.head_eq_tail_iff.2 he)
    rw [pop_of_ne he]
    refine holds_mk (n := r.capacity) Array.size_setIfInBounds ?_ (Nat.mod_lt _ (by omega)) ?_
      fun i hi => ?_
    · rw [List.length_tail]; omega
    · rw [List.length_tail, Nat.mod_add_mod, h.head_eq]
      congr 1; omega
    · have hp : (r.tail + 1 + i) % r.capacity = (r.tail + (i + 1)) % r.capacity := by congr 1; omega
      rw [Nat.mod_add_mod, hp, List.getElem?_tail, Array.getElem?_setIfInBounds]
      -- the slot that is emptied is one round further on, where no value is looked for
      rcases Nat.lt_or_eq_of_le (Nat.succ_le_of_lt hi) with hi' | hi'
      · rw [if_neg, h.slot _ hi']
        rw [mod_of_lt_two_mul (by omega)]; split <;> omega
      · have he' : (r.tail + (i + 1)) % r.capacity = r.tail := by
          rw [show i + 1 = r.capacity from hi', Nat.add_mod_right, Nat.mod_eq_of_lt ht]
        rw [he', if_pos rfl, if_pos (show r.tail < r.slots.size from ht),
          List.getElem?_eq_none (by omega)]

/-! ### Writing -/

theorem store (h : r.Holds as) (hl : as.length + 1 < r.capacity) (a : α) :
    (r.store a).Holds (as ++ [a]) := by
  have ht := h.tail_lt
  rw [store_eq]
  refine holds_mk (n := r.capacity) Array.size_setIfInBounds ?_ ht ?_ fun i hi => ?_
  · simpa using hl
  · rw [List.length_append, List.length_singleton, h.head_eq, Nat.mod_add_mod, Nat.add_assoc]
  · rw [Array.getElem?_setIfInBounds]
    by_cases hi' : i = as.length
    · subst hi'
      rw [if_pos h.head_eq, if_pos (show r.head < r.slots.size from h.head_lt),
        List.getElem?_concat_length]
    · have hne : r.head ≠ (r.tail + i) % r.capacity := by
        rw [h.head_eq, mod_of_lt_two_mul (by omega), mod_of_lt_two_mul (by omega)]
        split <;> split <;> omega
      rw [if_neg hne, h.slot i hi, List.getElem?_append, List.getElem?_singleton]
      split
      · rfl
      · rw [if_neg (by omega), List.getElem?_eq_none (by omega)]

theorem widen (h : r.Holds as) : r.widen.Holds as := by
  have ht := h.tail_lt
  have hl := h.length_lt
  have hh := h.head_eq_ite
  by_cases hw : r.head < r.tail
  · rw [widen_of_lt hw]
    refine holds_mk (n := 2 * r.capacity) ?_ (by omega) (by omega) ?_ fun i hi => ?_
    · simp only [Array.size_append, Array.size_extract, Array.size_replicate, capacity] at *; omega
    · rw [mod_of_lt_two_mul (by omega)]
      split at hh <;> split <;> omega
    · rw [mod_of_lt_two_mul (by omega)]
      refine (getElem?_spread (Nat.le_of_lt ht) _).trans ?_
      change (if _ then _ else if _ < r.tail + r.capacity then _ else r.slots[_ - r.capacity]?) = _
      by_cases hi₁ : r.tail + r.capacity + i < 2 * r.capacity
      · rw [if_pos hi₁, if_neg (by omega), if_neg (by omega), h.slot_ge (by omega) (by omega)]
        congr 2; omega
      · rw [if_neg hi₁]
        by_cases hi₂ : i < r.capacity
        · rw [if_pos (by omega), h.slot_lt (by omega)]
          congr 2; omega
        · rw [if_neg (by omega), if_pos (by omega), List.getElem?_eq_none (by omega)]
  · rw [widen_of_le (Nat.le_of_not_lt hw)]
    refine holds_mk (n := 2 * r.capacity) ?_ (by omega) (by omega) ?_ fun i hi => ?_
    · simp only [Array.size_append, Array.size_replicate, capacity]; omega
    · rw [Nat.mod_eq_of_lt (by omega)]
      split at hh <;> omega
    · rw [mod_of_lt_two_mul (by omega), Array.getElem?_append]
      change (if _ < r.capacity then _ else (Array.replicate _ _)[_ - r.capacity]?) = _
      -- the values end before the old store does, so that all that lies past it is empty
      have hlt : r.tail + as.length < r.capacity := by split at hh <;> omega
      by_cases hi₁ : r.tail + i < 2 * r.capacity
      · rw [if_pos hi₁]
        by_cases hi₂ : r.tail + i < r.capacity
        · rw [if_pos hi₂, h.slot_ge (by omega) hi₂, Nat.add_sub_cancel_left]
        · rw [if_neg hi₂, Array.getElem?_replicate, if_pos (by omega),
            List.getElem?_eq_none (by omega)]
      · rw [if_neg hi₁, if_pos (by omega), h.slot_lt (by omega), List.getElem?_eq_none (by omega),
          List.getElem?_eq_none (by omega)]

theorem capacity_widen (h : r.Holds as) : r.widen.capacity = 2 * r.capacity := by
  have ht := h.tail_lt
  by_cases hw : r.head < r.tail
  · rw [widen_of_lt hw]
    simp only [capacity, Array.size_append, Array.size_extract, Array.size_replicate] at *; omega
  · rw [widen_of_le (Nat.le_of_not_lt hw)]
    simp only [capacity, Array.size_append, Array.size_replicate]; omega

/-- **A push that is not refused appends.** -/
theorem push (h : r.Holds as) {mem : Allocator} {a : α} {g : Option Growth}
    (hp : (r.push mem a).1 = .ok g) : (r.push mem a).2.Holds (as ++ [a]) := by
  have hl := h.length_lt
  rcases push_cases mem r a with ⟨_, -, -, hp'⟩ | ⟨-, -, hp'⟩ | ⟨hf, hp'⟩ <;> rw [hp'] at hp ⊢
  · cases hp
  · exact h.widen.store (by rw [h.capacity_widen]; omega) a
  · have hne : as.length + 1 ≠ r.capacity := fun hc => by simp [h.isFull_iff.2 hc] at hf
    exact h.store (by omega) a

/-! ### Draining -/

/-- **Draining takes values off the front.** -/
theorem take_fst (h : r.Holds as) (n : Nat) : (r.drain.take n).1 = as.take n := by
  induction n generalizing r as with
  | zero => rfl
  | succ n ih =>
    rw [drain, Drain.take_succ, h.pop_fst]
    cases as with
    | nil => rfl
    | cons a as => exact congrArg (a :: ·) (ih h.pop_snd)

/-- A drain that is dropped leaves the other values. -/
theorem take_snd (h : r.Holds as) (n : Nat) : (r.drain.take n).2.ring.Holds (as.drop n) := by
  induction n generalizing r as with
  | zero => exact h
  | succ n ih =>
    rw [drain, Drain.take_succ, h.pop_fst]
    cases as with
    | nil => exact h.pop_snd
    | cons a as => exact ih h.pop_snd

end Holds

theorem holds_replicate {n : Nat} (hn : 0 < n) (limit : UInt64) :
    Holds (⟨Array.replicate n none, 0, 0, limit⟩ : Ring α) [] :=
  holds_mk Array.size_replicate hn hn (Nat.zero_mod n).symm fun i hi => by
    rw [Array.getElem?_replicate, if_pos (Nat.mod_lt _ hn)]; rfl

theorem holds_clear {r : Ring α} (h : 0 < r.capacity) : r.clear.2.Holds [] :=
  holds_replicate h r.limit

end Ring

end TraceRelay
