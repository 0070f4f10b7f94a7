/-
  TraceRelay — drains of an event queue.

  A drain takes the events that as many pops would take, and knows at every step how many are still
  to come.

  * `Drain.requests` asks a drain for its next value again and again, also after the last one, and
    `Drain.Yields` are the values that it has to offer;
  * `Holds.take_add`: a drain that is cut in two takes what one drain takes;
  * `Drain.total?` is the number of values that a run asks for, if all that it does is to take
    values.  `Holds.chain_of_total`: such a run is one drain, whatever is around the buffer;
  * `EventQueue.DrainsExactly` says all this of an event queue, and `drainsExactly_of_create` that
    it is so for every queue that comes up, in a session too.
-/
import TraceRelay.Proofs.Ring.Safety
import TraceRelay.Proofs.Session.Delivery

namespace TraceRelay

/-! ## Requests -/

namespace Drain

variable {α : Type}

/-- The answers to `n` requests for the next value, and the drain after them. -/
def requests : Nat → Drain α → List (Option α) × Drain α
  | 0, d => ([], d)
  | n + 1, d =>
    let (answer, rest) := d.next?
    let (answers, rest) := requests n rest
    (answer :: answers, rest)

/-- However often the drain is asked, it answers with the values `as`, in order, and from then on
    with none. -/
def Yields (d : Drain α) (as : List α) : Prop :=
  ∀ n, (d.requests n).1 = (as.take n).map some ++ List.replicate (n - as.length) none

/-- The number of values that operations ask for in all, if each of them only asks for values;
    `count` tells how many. -/
def total? {ο : Type} (count : ο → Option Nat) : List ο → Option Nat
  | [] => some 0
  | op :: ops => (count op).bind fun n => (total? count ops).map (n + ·)

end Drain

namespace Ring

variable {α : Type} {r : Ring α} {as : List α} {a : α}

theorem requests_succ (r : Ring α) (n : Nat) : r.drain.requests (n + 1) =
    (r.pop.1 :: (r.pop.2.drain.requests n).1, (r.pop.2.drain.requests n).2) :=
  rfl

namespace Holds

/-! ## What a drain takes -/

theorem pop_nil (h : r.Holds []) : r.pop = (none, r) :=
  pop_of_eq (h.head_eq_tail_iff.2 rfl)

theorem take_nil (h : r.Holds []) (n : Nat) : r.drain.take n = ([], r.drain) := by
  cases n with
  | zero => rfl
  | succ n =>
    rw [drain, Drain.take_succ, h.pop_nil]

theorem take_cons (h : r.Holds (a :: as)) (n : Nat) : r.drain.take (n + 1) =
    (a :: (r.pop.2.drain.take n).1, (r.pop.2.drain.take n).2) := by
  rw [drain, Drain.take_succ, h.pop_fst]; rfl

/-- **A drain that is cut in two** takes what one drain takes. -/
theorem take_add (h : r.Holds as) (m n : Nat) : r.drain.take (m + n) =
    ((r.drain.take m).1 ++ ((r.drain.take m).2.take n).1, ((r.drain.take m).2.take n).2) := by
  induction m generalizing r as with
  | zero => rw [Nat.zero_add]; rfl
  | succ m ih =>
    cases as with
    | nil => rw [h.take_nil, h.take_nil, h.take_nil]; rfl
    | cons a as =>
      have hrest := ih h.pop_snd
      rw [Nat.add_right_comm, h.take_cons, h.take_cons, hrest]; rfl

/-- **Requests** are answered with what a drain takes, and with none when it has ended. -/
theorem requests_eq (h : r.Holds as) (n : Nat) : r.drain.requests n =
    ((as.take n).map some ++ List.replicate (n - as.length) none, (r.drain.take n).2) := by
  induction n generalizing r as with
  | zero => rw [List.take_zero, Nat.zero_sub]; rfl
  | succ n ih =>
    cases as with
    | nil =>
      have hrest := ih h
      rw [List.take_nil, List.length_nil, Nat.sub_zero, h.take_nil] at hrest ⊢
      rw [requests_succ, h.pop_nil, hrest]
      rfl
    | cons a as =>
      have hrest := ih h.pop_snd
      rw [requests_succ, hrest, h.pop_fst, h.take_cons, List.length_cons, Nat.succ_sub_succ]
      rfl

theorem yields (h : r.Holds as) : r.drain.Yields as :=
  fun n => congrArg Prod.fst (h.requests_eq n)

/-- **Operations that only take values** are one drain.  `hold` is the state around a buffer. -/
theorem chain_of_total {ο σ β : Type} {f : ο → σ → Step σ β} {count : ο → Option Nat}
    {handed : β → List α} (hold : Ring α → σ)
    (hf : ∀ {op n}, count op = some n → ∀ r, handed (f op (hold r)).result = (r.drain.take n).1 ∧
      (f op (hold r)).state = hold (r.drain.take n).2.ring)
    (h : r.Holds as) {ops : List ο} {n : Nat} (hn : Drain.total? count ops = some n) :
    (Step.chain f ops (hold r)).result.flatMap handed = (r.drain.take n).1 ∧
      (Step.chain f ops (hold r)).state = hold (r.drain.take n).2.ring := by
  induction ops generalizing r as n with
  | nil =>
    obtain rfl := Option.some.inj hn
    exact ⟨rfl, rfl⟩
  | cons op ops ih =>
    obtain ⟨m, hm, hops⟩ := Option.bind_eq_some_iff.1 hn
    obtain ⟨k, hk, rfl⟩ := Option.map_eq_some_iff.1 hops
    obtain ⟨hfirst, hstate⟩ := hf hm r
    obtain ⟨hrest, hend⟩ := ih (h.take_snd m) hk
    rw [h.take_add, Step.chain_cons_result, Step.chain_cons_state, hstate, List.flatMap_cons,
      hfirst]
    exact ⟨congrArg ((r.drain.take m).1 ++ ·) hrest, hend⟩

/-! ## How many are to come -/

theorem sizeHint (h : r.Holds as) : r.drain.sizeHint = (as.length, some as.length) := by
  rw [Drain.sizeHint, drain, h.length]

theorem exactLength? (h : r.Holds as) : r.drain.exactLength? = some as.length := by
  rw [Drain.exactLength?, h.sizeHint]
  exact if_pos rfl

end Holds

end Ring

/-! ## Operations that take events -/

namespace EventQueue

/-- The number of events that an operation asks for, if all it does is to take events. -/
def Op.wanted? : Op → Option Nat
  | .pop => some 1
  | .drain n => some n
  | .push _ | .clear => none

/-- The events that an answer hands out. -/
def Answer.handed : Answer → List Event
  | .popped e => e.toList
  | .drained es => es
  | .pushed _ | .cleared _ => []

/-- The events handed out in the course of a run, in order. -/
def handed (answers : List Answer) : List Event :=
  answers.flatMap Answer.handed

/-- The number of events that a run asks for, if all it does is to take events. -/
def wanted? (calls : List (Allocator × Op)) : Option Nat :=
  Drain.total? (fun call => call.2.wanted?) calls

theorem perform_of_wanted {op : Op} {n : Nat} (h : op.wanted? = some n) (mem : Allocator)
    (q : EventQueue) :
    (perform mem op q).result.handed = (q.drain.take n).1 ∧
    (perform mem op q).state = (q.drain.take n).2.ring := by
  cases op with
  | pop =>
    obtain rfl := Option.some.inj h
    rw [Ring.take_one]
    exact ⟨rfl, rfl⟩
  | drain m =>
    obtain rfl := Option.some.inj h
    exact ⟨rfl, rfl⟩
  | push | clear => cases h

/-- **Any number of pops and drains** is one drain. -/
theorem performAll_of_wanted {q : EventQueue} {es : List Event} (h : q.Holds es)
    {calls : List (Allocator × Op)} {n : Nat} (hn : wanted? calls = some n) :
    handed (performAll calls q).result = (q.drain.take n).1 ∧
    (performAll calls q).state = (q.drain.take n).2.ring :=
  h.chain_of_total id (fun hop => perform_of_wanted hop _) hn

theorem wanted?_pops (mem : Allocator) (n : Nat) :
    wanted? (List.replicate n (mem, .pop)) = some n := by
  induction n with
  | zero => rfl
  | succ n ih =>
    rw [wanted?] at ih ⊢
    rw [List.replicate_succ, Drain.total?, ih]
    exact congrArg some (Nat.add_comm 1 n)

/-- Pops are answered as the requests to a drain are. -/
theorem performAll_pops (mem : Allocator) (n : Nat) (q : EventQueue) :
    (performAll (List.replicate n (mem, .pop)) q).result = (q.drain.requests n).1.map .popped := by
  induction n generalizing q with
  | zero => rfl
  | succ n ih => exact congrArg (Answer.popped q.pop.1 :: ·) (ih q.pop.2)

end EventQueue

namespace Session

/-- The number of events that an operation asks for, if all it does is to take events. -/
def Op.wanted? : Op → Option Nat
  | .nextEvent => some 1
  | .drain n => some n
  | .feed .. | .flush | .addImage .. => none

/-- The number of events that a run asks for, if all it does is to take events. -/
def wanted? (calls : List (Allocator × Op)) : Option Nat :=
  Drain.total? (fun call => call.2.wanted?) calls

theorem perform_of_wanted {ε : Type} [DecodeEngine ε] {op : Op} {n : Nat}
    (h : op.wanted? = some n) (mem : Allocator) (s : Session ε) :
    (s.perform mem op).result.handed = (s.drain.take n).1 ∧
    (s.perform mem op).state = s.afterDrain (s.drain.take n).2 := by
  cases op with
  | nextEvent =>
    obtain rfl := Option.some.inj h
    rw [drain, Ring.take_one]
    exact ⟨rfl, rfl⟩
  | drain m =>
    obtain rfl := Option.some.inj h
    exact ⟨rfl, rfl⟩
  | feed | flush | addImage => cases h

/-- So it is in a session, and nothing else changes. -/
theorem performAll_of_wanted {ε : Type} [DecodeEngine ε] {s : Session ε} {es : List Event}
    (h : s.queue.Holds es) {calls : List (Allocator × Op)} {n : Nat}
    (hn : wanted? calls = some n) :
    handed (s.performAll calls).result = (s.drain.take n).1 ∧
    (s.performAll calls).state = s.afterDrain (s.drain.take n).2 := by
  refine h.chain_of_total (fun queue => { s with queue }) (fun hop queue => ?_) hn
  exact perform_of_wanted hop _ { s with queue }

end Session

/-! ## Event queues -/

namespace EventQueue

variable {q : EventQueue} {es : List Event}

/-- How event queues are drained. -/
structure DrainsExactly (q : EventQueue) : Prop where
  length : q.toList.length = q.length
  /-- As many pops hand out the same events, are answered as the drain is, and leave the same
      queue. -/
  popped : ∀ (mem : Allocator) (k : Nat),
    let pops := performAll (List.replicate k (mem, .pop)) q
    (q.drain.take k).1 = q.toList.take k ∧
    handed pops.result = (q.drain.take k).1 ∧
    pops.result = (q.drain.requests k).1.map .popped ∧
    pops.state = (q.drain.take k).2.ring
  /-- After any number of requests it is known how many events are to come. -/
  requested : ∀ k,
    let d := (q.drain.requests k).2
    d = (q.drain.take k).2 ∧
    d.Yields (q.toList.drop k) ∧
    d.sizeHint = (q.length - k, some (q.length - k)) ∧
    d.exactLength? = some (q.length - k) ∧
    Ring.Checked.length d.ring = .ok (q.length - k)
  /-- A drain may be cut into pops and drains in any way. -/
  split : ∀ (calls : List (Allocator × Op)) (n : Nat), wanted? calls = some n →
    handed (performAll calls q).result = (q.drain.take n).1 ∧
    (performAll calls q).state = (q.drain.take n).2.ring

/-- **Every queue is drained exactly.** -/
theorem drainsExactly_of_represents (h : q.Represents es) : q.DrainsExactly := by
  have hlist : q.toList = es := h.toHolds.toList
  have hlength : q.length = es.length := h.toHolds.length
  refine ⟨?_, fun mem k => ?_, fun k => ?_, fun calls n hn => performAll_of_wanted h.toHolds hn⟩
  · rw [hlist, hlength]
  · intro pops
    obtain ⟨hhanded, hstate⟩ := performAll_of_wanted h.toHolds (wanted?_pops mem k)
    exact ⟨by rw [hlist, h.toHolds.take_fst], hhanded, performAll_pops mem k q, hstate⟩
  · intro d
    have hd : d = (q.drain.take k).2 := congrArg Prod.snd (h.toHolds.requests_eq k)
    -- a drain in progress is that of a queue that represents what is still to come
    have hrest : d.ring.Represents (es.drop k) := hd ▸ h.take k
    have hleft : q.length - k = (es.drop k).length := by rw [hlength, List.length_drop]
    rw [hlist, hleft]
    refine ⟨hd, hrest.toHolds.yields, hrest.toHolds.sizeHint, hrest.toHolds.exactLength?, ?_⟩
    rw [hrest.faultless.length, hrest.toHolds.length]

/-- **Draining is popping.**  In any queue that comes up, also as part of a session, a drain hands
    out as many events as are asked for, as pops would, and leaves what they would leave.  The
    hint is the number of events still to come, at every step and also after the last one, and it
    makes no difference into which pops and drains a drain is cut. -/
theorem drainsExactly_of_create {mem : Allocator} {c limit : UInt64}
    (h : Ring.create mem c limit = .ok q) (calls : List (Allocator × Op)) :
    (performAll calls q).state.DrainsExactly ∧
    ∀ (ε : Type) [DecodeEngine ε] (s : Session ε), s.Reachable →
      s.queue.DrainsExactly ∧
      ∀ (calls : List (Allocator × Session.Op)) (n : Nat), Session.wanted? calls = some n →
        Session.handed (s.performAll calls).result = (s.drain.take n).1 ∧
        (s.performAll calls).state = s.afterDrain (s.drain.take n).2 := by
  constructor
  · obtain ⟨es, -, hq⟩ := performAll_listRun (Ring.Represents.create h) calls
    exact drainsExactly_of_represents hq
  · intro ε _ s hs
    have hq := hs.valid.queue
    exact ⟨drainsExactly_of_represents hq, fun calls n => Session.performAll_of_wanted hq.toHolds⟩

/-- Three events, the last of them in the first slot: one comes after two requests, and a pop and
    two drains take all three.  A session's three events: two come after a request, and a drain and
    then the next event are the first two. -/
theorem drainsExactly_of_create_wrapped :
    let fed := (Playback.session.perform .standard (.feed ⟨#[0, 0]⟩ 0)).state
    (fed.Reachable ∧ (fed.queue.drain.requests 1).2.sizeHint = (2, some 2) ∧
      Session.handed (fed.performAll [(.standard, .drain 1), (.standard, .nextEvent)]).result =
        [⟨.traceOn 1, 0, -1⟩, ⟨.traceOn 2, 0, -1⟩]) ∧
    Ring.create .standard 4 8 = .ok (⟨Array.replicate 4 none, 0, 0, 8⟩ : EventQueue) ∧
    ∃ q : EventQueue,
      (q.slots = #[some ⟨.traceOn 5, 0, 0⟩, none, some ⟨.traceOn 3, 0, 0⟩,
          some ⟨.traceOn 4, 0, 0⟩] ∧ q.tail = 2) ∧
      (performAll (List.replicate 2 (.standard, .pop)) q).state = (q.drain.take 2).2.ring ∧
      (q.drain.take 2).1 = [⟨.traceOn 3, 0, 0⟩, ⟨.traceOn 4, 0, 0⟩] ∧
      (q.drain.requests 2).2.Yields [⟨.traceOn 5, 0, 0⟩] ∧
      (q.drain.requests 2).2.exactLength? = some 1 ∧
      handed (performAll [(.standard, .pop), (.standard, .drain 1), (.standard, .drain 5)]
        q).result = [⟨.traceOn 3, 0, 0⟩, ⟨.traceOn 4, 0, 0⟩, ⟨.traceOn 5, 0, 0⟩] := by
  intro fed
  have h : Ring.create .standard 4 8 = .ok (⟨Array.replicate 4 none, 0, 0, 8⟩ : EventQueue) := rfl
  obtain ⟨hq, hsession⟩ := drainsExactly_of_create h
    [(.standard, .push ⟨.traceOn 1, 0, 0⟩), (.standard, .push ⟨.traceOn 2, 0, 0⟩),
      (.standard, .push ⟨.traceOn 3, 0, 0⟩), (.standard, .drain 2),
      (.standard, .push ⟨.traceOn 4, 0, 0⟩), (.standard, .push ⟨.traceOn 5, 0, 0⟩)]
  have hfed : fed.Reachable :=
    (@Session.Reachable.create Playback _ _ .standard Playback.tree Playback.config .five _
      rfl).perform ..
  have hthree : fed.queue.length = 3 := by decide +kernel
  obtain ⟨hdrains, hcut⟩ := hsession Playback fed hfed
  obtain ⟨-, -, hhint, -⟩ := hdrains.requested 1
  rw [hthree] at hhint
  obtain ⟨hfirst, -⟩ := hcut [(.standard, .drain 1), (.standard, .nextEvent)] 2 rfl
  obtain ⟨htaken, -, -, hstate⟩ := hq.popped .standard 2
  obtain ⟨-, hyields, -, hlength, -⟩ := hq.requested 2
  obtain ⟨hhanded, -⟩ := hq.split
    [(.standard, .pop), (.standard, .drain 1), (.standard, .drain 5)] 7 rfl
  exact ⟨⟨hfed, hhint, hfirst⟩, h, _, ⟨rfl, rfl⟩, hstate, htaken, hyields, hlength, hhanded⟩

end EventQueue

end TraceRelay
