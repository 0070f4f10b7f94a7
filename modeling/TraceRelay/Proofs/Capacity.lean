/-
  TraceRelay — how far an event queue grows, and when it is exhausted.

  A store doubles when an event comes to it and it is full, and it never
  shrinks.  Its size thus tells the greatest length that the queue has had.

  * `peak` is the greatest length of a queue in the course of a run, and
    `Fitted` says that the store is as large as it was at first or not larger
    than the peak asks for;
  * `Housed` are the queues that come up with the standard allocator.  They
    are lists of bounded length: `Op.onList` says what an operation does to
    such a list, and `perform_housed` is the step;
  * `capacity_of_run`: the size of the store by the peak, the failure of a push
    by the length, and what follows for sessions.
-/
import Mathlib.Data.Nat.Find
import Mathlib.Order.Bounds.Defs
import TraceRelay.Proofs.Session.Delivery

namespace TraceRelay

/-! ## Powers of two -/

theorem exists_isLeast_isPowerOfTwo (n : Nat) :
    ∃ p, IsLeast {p : Nat | p.isPowerOfTwo ∧ n < p} p := by
  classical
  have h : ∃ p : Nat, p.isPowerOfTwo ∧ n < p := ⟨2 ^ n, ⟨n, rfl⟩, Nat.lt_two_pow_self⟩
  exact ⟨Nat.find h, Nat.find_spec h, fun p hp => Nat.find_min' h hp⟩

theorem Ring.isGreatest_slotBound {limit : UInt64} (hl : 0 < limit.toNat) :
    IsGreatest {p : Nat | p.isPowerOfTwo ∧ p ≤ limit.toNat ∧ p ≤ 1 <<< 57} (slotBound limit) := by
  -- the standard allocator grants a power of two below 2^58 iff it is at most 2^57
  have hgrant : ∀ p : Nat, p.isPowerOfTwo → (Allocator.standard p = true ↔ p ≤ 1 <<< 57) := by
    rintro p ⟨k, rfl⟩
    rw [Allocator.standard, decide_eq_true_iff, Nat.one_shiftLeft, Nat.one_shiftLeft,
      Nat.pow_lt_pow_iff_right Nat.one_lt_two, Nat.pow_le_pow_iff_right Nat.one_lt_two]
    exact Nat.lt_succ_iff
  constructor
  · have hp := isPowerOfTwo_slotBound limit
    obtain ⟨h₁, h₂⟩ := (le_slotBound_iff hp hl).1 (Nat.le_refl _)
    exact ⟨hp, h₁, (hgrant _ hp).1 h₂⟩
  · rintro p ⟨hp, h₁, h₂⟩
    exact (le_slotBound_iff hp hl).2 ⟨h₁, (hgrant p hp).2 h₂⟩

namespace EventQueue

variable {q q' : EventQueue} {es : List Event} {limit : UInt64}

/-! ## The store and the peak -/

/-- The greatest length of a queue in the course of a run, the beginning and the end included. -/
def peak : List (Allocator × Op) → EventQueue → Nat
  | [], q => q.length
  | (mem, op) :: calls, q => max q.length (peak calls (perform mem op q).state)

theorem length_le_peak (calls : List (Allocator × Op)) (q : EventQueue) :
    q.length ≤ peak calls q := by
  cases calls with
  | nil => exact Nat.le_refl _
  | cons call calls => exact Nat.le_max_left _ _

/-- A store that had `c` slots at first, in a queue that has held up to `m` events. -/
structure Fitted (c m : Nat) (q : EventQueue) : Prop where
  le_capacity : c ≤ q.capacity
  lt_capacity : m < q.capacity
  /-- Half of the slots would not hold the events. -/
  minimal : q.capacity = c ∨ q.capacity ≤ 2 * m

/-- The store stays as it is, or is full and doubles. -/
theorem capacity_perform (h : q.Represents es) (mem : Allocator) (op : Op) :
    (perform mem op q).state.capacity = q.capacity ∨
    ((perform mem op q).state.length = q.capacity ∧
      (perform mem op q).state.capacity = 2 * q.capacity) := by
  cases op with
  | push e =>
    rcases enqueue_cases mem q e with ⟨err, -, hq⟩ | ⟨g, log, hp, hq⟩
    · exact Or.inl (by rw [perform, hq]; rfl)
    · rw [perform, hq]
      have hc := h.toHolds.capacity_push_of_ok hp
      have hlen := (h.push hp).toHolds.length
      have hlt := h.length_lt
      rw [List.length_append, List.length_singleton, ← h.toHolds.length] at hlen
      rw [← h.toHolds.length] at hlt
      by_cases hfull : q.length = q.capacity - 1
      · have hall : (q.push mem e).2.length = q.capacity := by omega
        rw [if_pos hfull] at hc
        exact Or.inr ⟨hall, hc⟩
      · rw [if_neg hfull] at hc
        exact Or.inl hc
  | pop => exact Or.inl (Ring.capacity_pop q)
  | drain n => exact Or.inl (Ring.capacity_take n q)
  | clear => exact Or.inl (Ring.capacity_clear q)

theorem capacity_le_perform (h : q.Represents es) (mem : Allocator) (op : Op) :
    q.capacity ≤ (perform mem op q).state.capacity := by
  rcases capacity_perform h mem op with hc | ⟨-, hc⟩ <;> omega

theorem represents_perform (h : q.Represents es) (mem : Allocator) (op : Op) :
    (perform mem op q).state.Represents (perform mem op q).state.toList := by
  obtain ⟨es', -, h'⟩ := perform_listStep h mem op
  exact h'.self

/-- **The step.** -/
theorem Fitted.perform {c m : Nat} (h : Fitted c m q) (hq : q.Represents es) (mem : Allocator)
    (op : Op) :
    Fitted c (max m (EventQueue.perform mem op q).state.length)
      (EventQueue.perform mem op q).state := by
  obtain ⟨h₁, h₂, h₃⟩ := h
  have hr := represents_perform hq mem op
  have hlt := hr.length_lt
  rw [← hr.toHolds.length] at hlt
  rcases capacity_perform hq mem op with hc | ⟨hl, hc⟩
  · constructor <;> omega
  · constructor <;> omega

theorem capacity_le_performAll (h : q.Represents es) (calls : List (Allocator × Op)) :
    q.capacity ≤ (performAll calls q).state.capacity := by
  induction calls generalizing q es with
  | nil => exact Nat.le_refl _
  | cons call calls ih =>
    exact Nat.le_trans (capacity_le_perform h call.1 call.2)
      (ih (represents_perform h call.1 call.2))

theorem limit_performAll (calls : List (Allocator × Op)) (q : EventQueue) :
    (performAll calls q).state.limit = q.limit := by
  refine Step.chain_invariant (P := fun q' : EventQueue => q'.limit = q.limit) ?_ calls rfl
  rintro ⟨mem, op⟩ q' hq'
  rw [← hq']
  cases op with
  | push e =>
    rcases enqueue_cases mem q' e with ⟨err, -, he⟩ | ⟨g, log, -, he⟩
    · simp only [perform, he, Step.map_state]
    · simp only [perform, he, Step.map_state, Ring.limit_push]
  | pop => exact Ring.limit_pop q'
  | drain n => exact Ring.limit_take n q'
  | clear => exact Ring.limit_clear q'

/-- **The run.** -/
theorem Fitted.performAll {c m : Nat} (h : Fitted c m q) (hq : q.Represents es)
    (hm : q.length ≤ m) (calls : List (Allocator × Op)) :
    Fitted c (max m (peak calls q)) (EventQueue.performAll calls q).state := by
  induction calls generalizing q es m with
  | nil => rw [peak, Nat.max_eq_left hm]; exact h
  | cons call calls ih =>
    have hstep := ih (h.perform hq call.1 call.2) (represents_perform hq call.1 call.2)
      (Nat.le_max_right _ _)
    have hle := length_le_peak calls (EventQueue.perform call.1 call.2 q).state
    have hmax : max m (peak (call :: calls) q) =
        max (max m (EventQueue.perform call.1 call.2 q).state.length)
          (peak calls (EventQueue.perform call.1 call.2 q).state) := by
      rw [peak]
      omega
    rw [hmax]
    exact hstep

/-- The size of the store, by the size at first and the peak. -/
theorem Fitted.capacity_eq {c m : Nat} (h : Fitted c m q) (hq : q.capacity.isPowerOfTwo) :
    ∃ p, IsLeast {p : Nat | p.isPowerOfTwo ∧ m < p} p ∧ q.capacity = max c p := by
  obtain ⟨p, hp⟩ := exists_isLeast_isPowerOfTwo m
  obtain ⟨h₁, h₂, h₃⟩ := h
  have hle : p ≤ q.capacity := hp.2 ⟨hq, h₂⟩
  refine ⟨p, hp, ?_⟩
  rcases h₃ with h₃ | h₃
  · omega
  · obtain ⟨⟨⟨j, rfl⟩, hm⟩, -⟩ := hp
    obtain ⟨k, hk⟩ := hq
    -- a power of two that is less than the double of another is no greater
    have hlt : 2 ^ k < 2 ^ (j + 1) := by rw [Nat.pow_succ]; omega
    have hkj : k ≤ j := Nat.lt_succ_iff.1 ((Nat.pow_lt_pow_iff_right Nat.one_lt_two).1 hlt)
    have hpow : 2 ^ k ≤ 2 ^ j := Nat.pow_le_pow_right Nat.two_pos hkj
    omega

/-! ## Queues with the standard allocator -/

/-- Performs operations with the standard allocator. -/
abbrev serve : List Op → EventQueue → Step EventQueue (List Answer) :=
  Step.chain (perform .standard)

/-- A queue that stands for a list and may grow to `limit` slots, as far as the standard
    allocator grants them. -/
structure Housed (limit : UInt64) (es : List Event) (q : EventQueue) : Prop
    extends Ring.Represents q es where
  granted : q.Granted
  limit_eq : q.limit = limit

/-- What an operation answers on a list that must stay shorter than the largest store, and what
    it makes of the list. -/
def Op.onList (limit : UInt64) : Op → List Event → Answer × List Event
  | .push e, es =>
    if es.length + 1 = Ring.slotBound limit then (.pushed (.error (Ring.refusal limit)), es)
    else (.pushed (.ok ()), es ++ [e])
  | .pop, es => (.popped es.head?, es.tail)
  | .drain n, es => (.drained (es.take n), es.drop n)
  | .clear, es => (.cleared es.length, [])

theorem Housed.create {c : UInt64} (h : Ring.create .standard c limit = .ok q) :
    Housed limit [] q := by
  refine ⟨.create h, .create h, ?_⟩
  rw [(Ring.create_eq_ok_iff.1 h).2.2]

theorem Housed.self (h : Housed limit es q) : Housed limit q.toList q :=
  ⟨h.toRepresents.self, h.granted, h.limit_eq⟩

/-- An event is taken, or refused with the error of the largest store. -/
theorem push_housed (h : Housed limit es q) (e : Event) :
    (es.length + 1 ≠ Ring.slotBound limit ∧ (∃ g, (q.push .standard e).1 = .ok g) ∧
      Housed limit (es ++ [e]) (q.push .standard e).2) ∨
    (es.length + 1 = Ring.slotBound limit ∧
      (q.push .standard e).1 = .error (Ring.refusal limit)) := by
  obtain ⟨hq, hg, rfl⟩ := h
  rcases Ring.fst_push_standard hq hg e with ⟨hroom, g, hp⟩ | ⟨hfull, hp⟩
  · exact Or.inl ⟨Nat.ne_of_lt hroom, ⟨g, hp⟩, hq.push hp, hg.push hq.toHolds e,
      Ring.limit_push .standard q e⟩
  · exact Or.inr ⟨hfull, hp⟩

theorem enqueue_housed (h : Housed limit es q) (e : Event) :
    (es.length + 1 ≠ Ring.slotBound limit ∧ (q.enqueue .standard e).result = .ok () ∧
      Housed limit (es ++ [e]) (q.enqueue .standard e).state) ∨
    (es.length + 1 = Ring.slotBound limit ∧
      (q.enqueue .standard e).result = .error (Ring.refusal limit) ∧
      (q.enqueue .standard e).state = q) := by
  rcases push_housed h e with ⟨hroom, ⟨g, hp⟩, hs⟩ | ⟨hfull, hp⟩
  · rcases enqueue_cases .standard q e with ⟨err, hp', -⟩ | ⟨g', log, -, he⟩
    · rw [hp] at hp'; cases hp'
    · rw [he]; exact Or.inl ⟨hroom, rfl, hs⟩
  · rcases enqueue_cases .standard q e with ⟨err, hp', he⟩ | ⟨g', log, hp', -⟩
    · obtain rfl := Except.error.inj (hp'.symm.trans hp)
      rw [he]; exact Or.inr ⟨hfull, rfl, rfl⟩
    · rw [hp] at hp'; cases hp'

/-- **The step.**  The length of the list is all that an operation asks for. -/
theorem perform_housed (h : Housed limit es q) (op : Op) :
    (perform .standard op q).result = (op.onList limit es).1 ∧
      Housed limit (op.onList limit es).2 (perform .standard op q).state := by
  obtain ⟨hq, hg, hl⟩ := h
  cases op with
  | push e =>
    rw [perform, Op.onList, Step.map_result, Step.map_state]
    rcases enqueue_housed ⟨hq, hg, hl⟩ e with ⟨hroom, hr, hs⟩ | ⟨hfull, hr, hs⟩
    · rw [if_neg hroom, hr]
      exact ⟨rfl, hs⟩
    · rw [if_pos hfull, hr, hs]
      exact ⟨rfl, hq, hg, hl⟩
  | pop =>
    refine ⟨congrArg Answer.popped hq.toHolds.pop_fst, hq.pop, ?_, ?_⟩
    · rw [Ring.Granted, perform, Ring.capacity_pop]
      exact hg
    · exact (Ring.limit_pop q).trans hl
  | drain n =>
    refine ⟨congrArg Answer.drained (hq.toHolds.take_fst n), hq.take n, ?_, ?_⟩
    · rw [Ring.Granted, perform, Ring.capacity_take]
      exact hg
    · exact (Ring.limit_take n q).trans hl
  | clear =>
    refine ⟨congrArg Answer.cleared hq.toHolds.length, hq.clear, ?_, ?_⟩
    · rw [Ring.Granted, perform, Ring.capacity_clear]
      exact hg
    · exact (Ring.limit_clear q).trans hl

theorem Housed.serve (h : Housed limit es q) (ops : List Op) :
    Housed limit (serve ops q).state.toList (serve ops q).state := by
  induction ops generalizing q es with
  | nil => exact h.self
  | cons op ops ih => exact ih (perform_housed h op).2

/-- **Two queues that stand for one list** answer alike and stand for one list again. -/
theorem serve_alike (h : Housed limit es q) (h' : Housed limit es q') (ops : List Op) :
    (serve ops q).result = (serve ops q').result ∧
      (serve ops q).state.toList = (serve ops q').state.toList := by
  induction ops generalizing q q' es with
  | nil => exact ⟨rfl, h.toHolds.toList.trans h'.toHolds.toList.symm⟩
  | cons op ops ih =>
    obtain ⟨hr, hs⟩ := perform_housed h op
    obtain ⟨hr', hs'⟩ := perform_housed h' op
    obtain ⟨ihr, ihs⟩ := ih hs hs'
    constructor
    · rw [Step.chain_cons_result, Step.chain_cons_result, hr, hr', ihr]
    · exact ihs

end EventQueue

/-! ## Sessions -/

/-- The limit on a session's queue is that of its configuration. -/
theorem Session.limit_performAll {ε φ : Type} [DecodeEngine ε] {mem : Allocator}
    {tree : SourceFormat → φ → Step φ (Except Status ε)} {config : Config} {factory : φ}
    {s : Session ε} (h : (create mem tree config factory).result = .ok s)
    (calls : List (Allocator × Op)) :
    (s.performAll calls).state.queue.limit = config.slotLimit := by
  have hstep : ∀ (call : Allocator × Op) (s : Session ε), s.queue.limit = config.slotLimit →
      (s.perform call.1 call.2).state.queue.limit = config.slotLimit := by
    intro call s hs
    exact (limit_perform call.1 call.2 s).trans hs
  exact Step.chain_invariant hstep calls (limit_create h)

/-- Fewer events are pending than the queue may have slots. -/
theorem Session.pending_lt {ε φ : Type} [DecodeEngine ε] {mem : Allocator}
    {tree : SourceFormat → φ → Step φ (Except Status ε)} {config : Config} {factory : φ}
    {s : Session ε} (h : (create mem tree config factory).result = .ok s)
    (calls : List (Allocator × Op)) :
    (s.performAll calls).state.pending < config.slotLimit.toNat := by
  have hq := ((Reachable.create h).performAll calls).valid.queue
  have hlt := hq.length_lt
  have hle := hq.le_limit
  rw [limit_performAll h calls] at hle
  rw [pending, hq.toHolds.length]
  omega

/-! ## The law -/

namespace EventQueue

/-- **The capacity of an event queue.**  Its store has as many slots as at first, or as the least
    power of two above the greatest length so far: it never shrinks and never exceeds the limit.
    With the standard allocator a push fails iff the largest store is full, so that neither the
    size of the store nor the past tells in what a queue answers.  A session with a limit
    has fewer events pending than that. -/
theorem capacity_of_run {mem : Allocator} {c limit : UInt64} {q : EventQueue}
    (h : Ring.create mem c limit = .ok q) (calls : List (Allocator × Op)) :
    let run := (performAll calls q).state
    let bound := Ring.slotBound limit
    ((∃ p, IsLeast {p : Nat | p.isPowerOfTwo ∧ peak calls q < p} p ∧
        run.capacity = max q.capacity p) ∧
      run.capacity ≤ limit.toNat ∧
      ∀ more, run.capacity ≤ (performAll more run).state.capacity) ∧
    IsGreatest {p : Nat | p.isPowerOfTwo ∧ p ≤ limit.toNat ∧ p ≤ 1 <<< 57} bound ∧
    (∀ (c₁ : UInt64) (q₁ : EventQueue) (ops₁ : List Op),
      Ring.create .standard c₁ limit = .ok q₁ →
      let run₁ := (serve ops₁ q₁).state
      (∀ e, (run₁.enqueue .standard e).result =
        if run₁.length = bound - 1 then
          .error (if limit.toNat < 2 * bound then .limitReached limit
            else .allocationFailed (.ofNat (2 * bound)))
        else .ok ()) ∧
      ∀ (c₂ : UInt64) (q₂ : EventQueue) (ops₂ : List Op),
        Ring.create .standard c₂ limit = .ok q₂ →
        let run₂ := (serve ops₂ q₂).state
        run₁.toList = run₂.toList → ∀ ops, (serve ops run₁).result = (serve ops run₂).result ∧
          (serve ops run₁).state.toList = (serve ops run₂).state.toList) ∧
    ∀ (ε φ : Type) [DecodeEngine ε] (mem : Allocator)
      (tree : SourceFormat → φ → Step φ (Except Status ε)) (config : Config) (factory : φ)
      (s : Session ε), (Session.create mem tree config factory).result = .ok s →
      config.limit = some limit → ∀ calls, (s.performAll calls).state.pending < limit.toNat := by
  intro run bound
  have hnew := Ring.Represents.create h
  have hlimit : q.limit = limit := by rw [(Ring.create_eq_ok_iff.1 h).2.2]
  have hlength : q.length = 0 := hnew.toHolds.length
  obtain ⟨es, -, hrun⟩ := performAll_listRun hnew calls
  refine ⟨⟨?_, ?_, ?_⟩, ?_, ?_, ?_⟩
  · have hfit : Fitted q.capacity (max 0 (peak calls q)) run :=
      Fitted.performAll ⟨Nat.le_refl _, hnew.toSized.pos, Or.inl rfl⟩ hnew
        (Nat.le_of_eq hlength) calls
    rw [Nat.zero_max] at hfit
    exact hfit.capacity_eq hrun.isPowerOfTwo
  · have hle := hrun.le_limit
    rwa [limit_performAll, hlimit] at hle
  · intro more
    exact capacity_le_performAll hrun more
  · exact Ring.isGreatest_slotBound (hlimit ▸ hnew.toSized.limit_pos)
  · intro c₁ q₁ ops₁ h₁ run₁
    have hs₁ : Housed limit run₁.toList run₁ := (Housed.create h₁).serve ops₁
    constructor
    · intro e
      have hpos : 0 < Ring.slotBound limit :=
        Nat.pos_of_isPowerOfTwo (Ring.isPowerOfTwo_slotBound limit)
      rw [hs₁.toHolds.length]
      show _ = if run₁.toList.length = Ring.slotBound limit - 1 then _ else _
      rcases enqueue_housed hs₁ e with ⟨hroom, hr, -⟩ | ⟨hfull, hr, -⟩
      · rw [hr, if_neg (by omega)]
      · rw [hr, if_pos (by omega)]
        rfl
    · intro c₂ q₂ ops₂ h₂ run₂ heq ops
      have hs₂ : Housed limit run₂.toList run₂ := (Housed.create h₂).serve ops₂
      exact serve_alike hs₁ (heq ▸ hs₂) ops
  · intro ε φ _ mem tree config factory s hs hconfig calls
    have hlt := Session.pending_lt hs calls
    rwa [Config.slotLimit, hconfig] at hlt

end EventQueue

/-! ## A limit that is no size of a store -/

namespace Playback

/-- An empty queue with a store of `n` slots, which may grow to five. -/
def slots (n : Nat) : EventQueue :=
  ⟨Array.replicate n none, 0, 0, 5⟩

/-- The push of an event that tracing resumed. -/
def push (start : UInt64) : EventQueue.Op :=
  .push ⟨.traceOn start, 0, 0⟩

/-- Pushes two events and takes them. -/
def fillAndDrain : List (Allocator × EventQueue.Op) :=
  [(.standard, push 1), (.standard, push 2), (.standard, .drain 2)]

/-- A session whose queue may have five slots. -/
def limited : Session Playback :=
  ⟨{ config with limit := some 5 }, five, #[], slots 2, {}, .configured⟩

end Playback

namespace EventQueue

open Playback in
/-- Four slots are the most that a limit of five allows.  After the peak the store does not
    shrink, and two queues of different sizes that hold the same event answer alike. -/
theorem capacity_of_run_five :
    Ring.create .standard 2 5 = .ok (slots 2) ∧ Ring.create .standard 4 5 = .ok (slots 4) ∧
    (∃ p, IsLeast {p : Nat | p.isPowerOfTwo ∧ 2 < p} p ∧
      (performAll fillAndDrain (slots 2)).state.capacity = max 2 p) ∧
    ((serve [push 1, push 2, push 3] (slots 2)).state.enqueue .standard
      ⟨.traceOn 4, 0, 0⟩).result = .error (.limitReached 5) ∧
    (serve [push 1] (slots 2)).state.toList =
      (serve [push 0, push 1, .pop] (slots 4)).state.toList ∧
    (serve [push 2, push 3, push 4, .pop] (serve [push 1] (slots 2)).state).result =
      (serve [push 2, push 3, push 4, .pop]
        (serve [push 0, push 1, .pop] (slots 4)).state).result ∧
    (Session.create .standard tree limited.config five).result = .ok limited ∧
    (limited.performAll calls).state.pending < 5 := by
  have hq : Ring.create .standard 2 5 = .ok (slots 2) := rfl
  have hwide : Ring.create .standard 4 5 = .ok (slots 4) := rfl
  have hlist : (serve [push 1] (slots 2)).state.toList =
      (serve [push 0, push 1, .pop] (slots 4)).state.toList := rfl
  have hpeak : peak fillAndDrain (slots 2) = 2 := rfl
  have hcapacity : (slots 2).capacity = 2 := rfl
  obtain ⟨⟨hfit, -, -⟩, -, hhoused, hpending⟩ := capacity_of_run hq fillAndDrain
  obtain ⟨hfull, -⟩ := hhoused 2 (slots 2) [push 1, push 2, push 3] hq
  obtain ⟨-, halike⟩ := hhoused 2 (slots 2) [push 1] hq
  obtain ⟨hsame, -⟩ := halike 4 (slots 4) [push 0, push 1, .pop] hwide hlist
    [push 2, push 3, push 4, .pop]
  rw [hpeak, hcapacity] at hfit
  exact ⟨hq, hwide, hfit, hfull ⟨.traceOn 4, 0, 0⟩, hlist, hsame, rfl,
    hpending Playback Playback .standard tree limited.config five limited rfl rfl calls⟩

end EventQueue

end TraceRelay
