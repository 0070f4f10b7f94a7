/-
  TraceRelay — when events are taken does not matter.

  Two sessions with the same configuration but for the capacity are fed alike, and
  events are taken at different times.

  * `Alike` relates them: they differ in nothing but their queues, and the events
    taken and then those pending are the same;
  * `operate_of_room` is what a data operation does as long as nothing is lost, and
    `not_exhausted_operate_standard_iff` says when that is;
  * `Aligned` are the schedules with the same feeds, flushes and images;
  * `alike_serve`: two runs agree as long as neither is exhausted;
  * `not_exhausted_serve`: the one that takes events earlier is not exhausted before
    the other.
-/
import Mathlib.Data.List.Induction
import TraceRelay.Proofs.Recorder
import TraceRelay.Proofs.Session.Delivery

namespace TraceRelay

namespace Session

variable {ε φ : Type}

/-- The error held is that of a queue without room. -/
def Exhausted (s : Session ε) : Prop :=
  ∃ err, s.latch.first = some (.queueExhausted err)

variable [DecodeEngine ε]

/-- Performs operations with the standard allocator. -/
abbrev serve : List Op → Session ε → Step (Session ε) (List Answer) :=
  Step.chain (perform .standard)

/-- Whether an answer is one to a feed, a flush or an image. -/
def Answer.isReply : Answer → Bool
  | .events _ => false
  | _ => true

variable {mem : Allocator} {s t : Session ε} {dop : DataOp} {index : UInt64} {data : ByteArray}
  {op : Op} {es es' : List Event} {limit : UInt64}

/-! ## One data operation -/

/-- A data operation against the sink that never stops the engine: its outcome, and
    all its events. -/
abbrev welcomed (s : Session ε) (op : DataOp) (index : UInt64) (data : ByteArray) :
    Step ε Outcome × List Event :=
  (DecodeEngine.process op index data s.engine).deliver Collector.welcome []

/-- **As long as nothing is lost**, an operation is what it is against the sink that never
    stops the engine. -/
theorem operate_of_room (hv : s.Valid) (hl : s.latch.first = none)
    (hx : (s.deliverTo mem dop index data).2.latch.first = none) (fatal : Status → SessionError) :
    let w := s.welcomed dop index data
    let latch := latchAfter s.latch w.1.result.status (fatal w.1.result.status)
    let phase := phaseAfter (if s.phase = .configured then .feeding else s.phase) latch
    ∃ queue, queue.Represents (s.queue.toList ++ w.2) ∧
      (s.operate mem dop index data fatal).state =
        ⟨s.config, w.1.state, s.images, queue, latch, phase⟩ ∧
      (s.operate mem dop index data fatal).result =
        match latch.first with
        | some e => .error e
        | none => .ok w.1.result := by
  intro w latch phase
  obtain ⟨hs, hr⟩ := @operate_of_clear ε _ mem s dop index data fatal hl
  obtain ⟨hw, hq⟩ := Collector.deliver_eq_welcome _ hv.queue hl hx
  rw [Collector.deliver_welcome] at hw hq
  have hlatch : (s.deliverTo mem dop index data).2.latch = s.latch := by
    rcases (Collector.deliver_spec mem (c := ⟨s.queue, s.latch, #[]⟩) _ hv.queue hl).2 with
      ⟨-, h⟩ | ⟨err, -, h⟩
    · exact h
    · rw [h] at hx; cases hx
  rw [hw, hlatch] at hs hr
  exact ⟨_, hq, hs, hr⟩

/-! ## Exhaustion -/

omit [DecodeEngine ε] in
theorem Op.fatal_ne (op : Op) (status : Status) (err : StoreError) :
    op.fatal status ≠ .queueExhausted err := by
  cases op <;> nofun

theorem Exhausted.perform (h : s.Exhausted) (mem : Allocator) (op : Op) :
    (s.perform mem op).state.Exhausted := by
  obtain ⟨err, he⟩ := h
  exact ⟨err, by rw [latch_perform (by rw [Latch.isSet, he]; rfl), he]⟩

/-- An operation exhausts a session iff an event is lost. -/
theorem not_exhausted_operate_iff (hv : s.Valid) (hl : s.latch.first = none) (op : Op) :
    ¬ (s.operate mem dop index data op.fatal).state.Exhausted ↔
      (s.deliverTo mem dop index data).2.latch.first = none := by
  rw [(operate_of_clear hl).1]
  rcases (Collector.deliver_spec mem (c := ⟨s.queue, s.latch, #[]⟩)
    (DecodeEngine.process dop index data s.engine) hv.queue hl).2 with ⟨-, h⟩ | ⟨err, -, h⟩
  · refine iff_of_true ?_ (by rw [deliverTo, h]; exact hl)
    rintro ⟨err, he⟩
    rw [deliverTo, h, latchAfter] at he
    split at he
    · rw [Latch.set_state_first, Latch.set, hl] at he
      exact op.fatal_ne _ err (Option.some.inj he)
    · rw [hl] at he; cases he
  · have hf : (s.deliverTo mem dop index data).2.latch.first = some (.queueExhausted err) := by
      rw [deliverTo, h]
    exact iff_of_false (fun hx => hx ⟨err, latchAfter_first hf _ _⟩)
      (by rw [hf]; exact Option.some_ne_none _)

/-- A valid session whose queue may grow to `limit` slots, as far as the standard
    allocator grants them. -/
structure Housed (limit : UInt64) (s : Session ε) : Prop extends Valid s where
  granted : s.queue.Granted
  limit_eq : s.queue.limit = limit

theorem Housed.create {tree : SourceFormat → φ → Step φ (Except Status ε)} {config : Config}
    {factory : φ} (h : (Session.create .standard tree config factory).result = .ok s) :
    s.Housed config.slotLimit :=
  ⟨.create h, .create (create_config_queue h).2, limit_create h⟩

theorem Housed.perform (h : s.Housed limit) (op : Op) :
    (s.perform .standard op).state.Housed limit := by
  refine ⟨h.toValid.perform .standard op, ?_, (limit_perform .standard op s).trans h.limit_eq⟩
  rcases perform_cases .standard op s with ⟨dop, index, data, -, hs⟩ | ⟨_, _, -, -, hs, -⟩ |
    ⟨n, -, hs, -⟩
  · rw [hs, Step.map_state]
    cases hl : s.latch.first with
    | some e => rw [operate_of_isSet hl]; exact h.granted
    | none =>
      rw [(operate_of_clear hl).1]
      exact Collector.granted_deliver (c := ⟨s.queue, s.latch, #[]⟩)
        (DecodeEngine.process dop index data s.engine) h.queue h.granted hl
  · rw [hs]; exact h.granted
  · rw [hs, Ring.Granted, Ring.capacity_take]
    exact h.granted

/-- **With the standard allocator** an operation exhausts a session iff the pending events and
    all its own do not fit into the largest store. -/
theorem not_exhausted_operate_standard_iff (h : s.Housed limit) (hl : s.latch.first = none)
    (op : Op) :
    ¬ (s.operate .standard dop index data op.fatal).state.Exhausted ↔
      s.queue.toList.length + (s.welcomed dop index data).2.length < Ring.slotBound limit := by
  rw [not_exhausted_operate_iff h.toValid hl, Collector.deliver_first_eq_none_iff
    (c := ⟨s.queue, s.latch, #[]⟩) _ h.queue h.granted hl, Collector.deliver_welcome,
    List.length_append, h.limit_eq]

/-! ## Sessions that are alike -/

omit [DecodeEngine ε] in
/-- Two sessions that differ in nothing but their queues: the events taken, `es` and `es'`,
    and then those pending are the same. -/
structure Alike (es es' : List Event) (s t : Session ε) : Prop where
  engine : s.engine = t.engine
  images : s.images = t.images
  latch : s.latch = t.latch
  phase : s.phase = t.phase
  events : es ++ s.queue.toList = es' ++ t.queue.toList

omit [DecodeEngine ε] in
theorem Alike.symm (h : Alike es es' s t) : Alike es' es t s :=
  ⟨h.engine.symm, h.images.symm, h.latch.symm, h.phase.symm, h.events.symm⟩

theorem Alike.create {tree : SourceFormat → φ → Step φ (Except Status ε)} {config : Config}
    {capacity : UInt64} {factory : φ}
    (hs : (Session.create .standard tree config factory).result = .ok s)
    (ht : (Session.create .standard tree { config with capacity } factory).result = .ok t) :
    Alike [] [] s t := by
  obtain ⟨queue, engine, hq, he, rfl⟩ := create_eq_ok hs
  obtain ⟨queue', engine', hq', he', rfl⟩ := create_eq_ok ht
  obtain rfl : engine = engine' := Except.ok.inj (he.symm.trans he')
  have hnil : queue.toList = queue'.toList := by
    rw [(Ring.Represents.create hq).toHolds.toList, (Ring.Represents.create hq').toHolds.toList]
  have hd : { config with capacity }.decoder = config.decoder := rfl
  unfold configure
  simp only [hd]
  cases (DecodeEngine.createDecoder config.decoder engine).result with
  | ok _ => exact ⟨rfl, rfl, rfl, rfl, hnil⟩
  | error status => exact ⟨rfl, rfl, rfl, rfl, hnil⟩

theorem Alike.welcomed_eq (h : Alike es es' s t) :
    s.welcomed dop index data = t.welcomed dop index data := by
  rw [welcomed, h.engine]

/-- Sessions that are alike go through a data operation alike, if neither is exhausted. -/
theorem Alike.operate (h : Alike es es' s t) (hs : s.Valid) (ht : t.Valid) (op : Op)
    (hx : ¬ (s.operate mem dop index data op.fatal).state.Exhausted)
    (hy : ¬ (t.operate mem dop index data op.fatal).state.Exhausted) :
    Alike es es' (s.operate mem dop index data op.fatal).state
        (t.operate mem dop index data op.fatal).state ∧
      (s.operate mem dop index data op.fatal).result =
        (t.operate mem dop index data op.fatal).result := by
  cases hl : s.latch.first with
  | some e =>
    rw [operate_of_isSet hl, operate_of_isSet (h.latch ▸ hl)]
    exact ⟨h, rfl⟩
  | none =>
    have hl' : t.latch.first = none := h.latch ▸ hl
    obtain ⟨q, hq, hs', hr⟩ :=
      operate_of_room hs hl ((not_exhausted_operate_iff hs hl op).1 hx) op.fatal
    obtain ⟨q', hq', ht', hr'⟩ :=
      operate_of_room ht hl' ((not_exhausted_operate_iff ht hl' op).1 hy) op.fatal
    rw [h.welcomed_eq] at hq
    rw [h.welcomed_eq, h.latch] at hs' hr
    rw [hs', ht', hr, hr', h.phase]
    refine ⟨⟨rfl, h.images, rfl, rfl, ?_⟩, rfl⟩
    rw [hq.toHolds.toList, hq'.toHolds.toList, ← List.append_assoc, ← List.append_assoc, h.events]

theorem Alike.addImage (h : Alike es es' s t) (path : Path) (loadAddress fileOffset size : UInt64) :
    Alike es es' (s.addImage path loadAddress fileOffset size).state
        (t.addImage path loadAddress fileOffset size).state ∧
      (s.addImage path loadAddress fileOffset size).result =
        (t.addImage path loadAddress fileOffset size).result := by
  unfold Session.addImage
  cases Image.ofFile? path loadAddress fileOffset size with
  | none => exact ⟨h, rfl⟩
  | some image =>
    simp only [h.engine]
    cases (DecodeEngine.addImage image.range .any path fileOffset t.engine).result with
    | error status => exact ⟨⟨rfl, h.images, h.latch, h.phase, h.events⟩, rfl⟩
    | ok _ => exact ⟨⟨rfl, congrArg (·.push image) h.images, h.latch, h.phase, h.events⟩, rfl⟩

/-- **A feed, a flush or an image** keeps sessions alike, if neither is exhausted. -/
theorem Alike.perform (h : Alike es es' s t) (hs : s.Valid) (ht : t.Valid)
    (hp : op.produces = true) (hx : ¬ (s.perform mem op).state.Exhausted)
    (hy : ¬ (t.perform mem op).state.Exhausted) :
    Alike es es' (s.perform mem op).state (t.perform mem op).state ∧
      (s.perform mem op).result = (t.perform mem op).result := by
  cases op with
  | feed data index =>
    obtain ⟨ha, hr⟩ := h.operate hs ht (.feed data index) hx hy
    exact ⟨ha, congrArg (Op.answer (.feed data index)) hr⟩
  | flush =>
    obtain ⟨ha, hr⟩ := h.operate hs ht .flush hx hy
    exact ⟨ha, congrArg (Op.answer .flush) hr⟩
  | addImage path loadAddress fileOffset size =>
    obtain ⟨ha, hr⟩ := h.addImage path loadAddress fileOffset size
    exact ⟨ha, congrArg Answer.imageAdded hr⟩
  | nextEvent | drain => cases hp

/-- **Taking events** keeps sessions alike. -/
theorem Alike.take (h : Alike es es' s t) (hs : s.Valid) (hp : op.produces = false) :
    Alike (es ++ (s.perform mem op).result.handed) es' (s.perform mem op).state t := by
  obtain ⟨n, hs', hr⟩ := perform_of_not_produces hp mem s
  rw [hs', hr]
  refine ⟨h.engine, h.images, h.latch, h.phase, ?_⟩
  rw [Answer.handed, hs.queue.toHolds.take_fst, (hs.queue.take n).toHolds.toList, List.append_assoc,
    List.take_append_drop, h.events]

/-! ## Schedules -/

omit [DecodeEngine ε] in
/-- Two schedules with the same feeds, flushes and images, in the same order. -/
inductive Aligned : List Op → List Op → Prop
  /-- Nothing was done. -/
  | nil : Aligned [] []
  /-- The first takes events. -/
  | left {ops ops' : List Op} {op : Op} (h : Aligned ops ops') (hp : op.produces = false) :
      Aligned (ops ++ [op]) ops'
  /-- The second takes events. -/
  | right {ops ops' : List Op} {op : Op} (h : Aligned ops ops') (hp : op.produces = false) :
      Aligned ops (ops' ++ [op])
  /-- Both are fed, are flushed or get an image. -/
  | both {ops ops' : List Op} {op : Op} (h : Aligned ops ops') (hp : op.produces = true) :
      Aligned (ops ++ [op]) (ops' ++ [op])

omit [DecodeEngine ε] in
theorem Aligned.of_filter_eq {ops ops' : List Op}
    (h : ops.filter Op.produces = ops'.filter Op.produces) : Aligned ops ops' := by
  induction ops using List.reverseRecOn generalizing ops' with
  | nil =>
    induction ops' using List.reverseRecOn with
    | nil => exact .nil
    | append_singleton ops' op' ih' =>
      cases hp' : op'.produces with
      | false => exact .right (ih' (by simpa [hp'] using h)) hp'
      | true => simp [hp'] at h
  | append_singleton ops op ih =>
    cases hp : op.produces with
    | false => exact .left (ih (by simpa [hp] using h)) hp
    | true =>
      -- the second schedule ends with the same operation, up to what it takes
      induction ops' using List.reverseRecOn with
      | nil => simp [hp] at h
      | append_singleton ops' op' ih' =>
        cases hp' : op'.produces with
        | false => exact .right (ih' (by simpa [hp'] using h)) hp'
        | true =>
          have hc : ops.filter Op.produces ++ [op] = ops'.filter Op.produces ++ [op'] := by
            simpa [hp, hp'] using h
          obtain ⟨hops, hop⟩ := List.append_inj' hc rfl
          obtain rfl : op = op' := List.singleton_inj.1 hop
          exact .both (ih hops) hp

omit [DecodeEngine ε] in
theorem Aligned.filter_eq {ops ops' : List Op} (h : Aligned ops ops') :
    ops.filter Op.produces = ops'.filter Op.produces := by
  induction h with
  | nil => rfl
  | left _ hp ih => simp [hp, ih]
  | right _ hp ih => simp [hp, ih]
  | both _ hp ih => simp [hp, ih]

/-! ## Runs -/

theorem Valid.serve (h : s.Valid) (ops : List Op) : (s.serve ops).state.Valid :=
  Step.chain_invariant (fun op _ h => h.perform .standard op) ops h

theorem Housed.serve (h : s.Housed limit) (ops : List Op) : (s.serve ops).state.Housed limit :=
  Step.chain_invariant (fun op _ h => h.perform op) ops h

omit [DecodeEngine ε] in
theorem handed_concat (answers : List Answer) (a : Answer) :
    handed (answers ++ [a]) = handed answers ++ a.handed := by
  simp [handed]

theorem isReply_perform (mem : Allocator) (op : Op) (s : Session ε) :
    (s.perform mem op).result.isReply = op.produces := by
  cases op <;> rfl

theorem handed_perform_of_produces (hp : op.produces = true) (mem : Allocator) (s : Session ε) :
    (s.perform mem op).result.handed = [] := by
  cases op with
  | feed | flush | addImage => rfl
  | nextEvent | drain => cases hp

/-- An operation on a session that is not exhausted afterwards was done on one that is not
    exhausted. -/
theorem not_exhausted_of_concat {ops : List Op} (h : ¬ (s.serve (ops ++ [op])).state.Exhausted) :
    ¬ (s.serve ops).state.Exhausted := by
  rw [Step.chain_concat_state] at h
  exact fun hx => h (hx.perform .standard op)

/-- **Two runs that are not exhausted agree.** -/
theorem alike_serve (h : Alike [] [] s t) (hs : s.Valid) (ht : t.Valid) {ops ops' : List Op}
    (ha : Aligned ops ops') (hx : ¬ (s.serve ops).state.Exhausted)
    (hy : ¬ (t.serve ops').state.Exhausted) :
    Alike (handed (s.serve ops).result) (handed (t.serve ops').result) (s.serve ops).state
        (t.serve ops').state ∧
      (s.serve ops).result.filter Answer.isReply = (t.serve ops').result.filter Answer.isReply := by
  induction ha with
  | nil => exact ⟨h, rfl⟩
  | left _ hp ih =>
    obtain ⟨hl, hr⟩ := ih (not_exhausted_of_concat hx) hy
    rw [Step.chain_concat_state, Step.chain_concat_result, handed_concat, List.filter_append, ← hr]
    refine ⟨hl.take (hs.serve _) hp, ?_⟩
    simp [isReply_perform, hp]
  | right _ hp ih =>
    obtain ⟨hl, hr⟩ := ih hx (not_exhausted_of_concat hy)
    rw [Step.chain_concat_state, Step.chain_concat_result, handed_concat, List.filter_append, hr]
    refine ⟨(hl.symm.take (ht.serve _) hp).symm, ?_⟩
    simp [isReply_perform, hp]
  | both _ hp ih =>
    obtain ⟨hl, hr⟩ := ih (not_exhausted_of_concat hx) (not_exhausted_of_concat hy)
    rw [Step.chain_concat_state] at hx hy
    obtain ⟨hl', hr'⟩ := hl.perform (hs.serve _) (ht.serve _) hp hx hy
    rw [Step.chain_concat_state, Step.chain_concat_state, Step.chain_concat_result,
      Step.chain_concat_result, handed_concat, handed_concat, handed_perform_of_produces hp,
      handed_perform_of_produces hp, List.append_nil, List.append_nil, List.filter_append,
      List.filter_append, hr, hr']
    exact ⟨hl', rfl⟩

/-- Before each feed and each flush, the run of `s` has taken at least as many events as
    that of `t`. -/
def Ahead (s t : Session ε) (ops ops' : List Op) : Prop :=
  ∀ before op after before' after', ops = before ++ op :: after → ops' = before' ++ op :: after' →
    before.filter Op.produces = before'.filter Op.produces → op.dataOp?.isSome = true →
    (handed (t.serve before').result).length ≤ (handed (s.serve before).result).length

theorem Ahead.of_prefix {ops₁ ops₂ ops ops' : List Op} (h : Ahead s t ops ops') (hp : ops₁ <+: ops)
    (hp' : ops₂ <+: ops') : Ahead s t ops₁ ops₂ := by
  obtain ⟨r, rfl⟩ := hp
  obtain ⟨r', rfl⟩ := hp'
  rintro before op after before' after' rfl rfl
  exact h before op (after ++ r) before' (after' ++ r') (List.append_assoc ..)
    (List.append_assoc ..)

/-- If the session that has more events pending is not exhausted by an operation, the other
    one is not. -/
theorem Alike.not_exhausted_perform (h : Alike es es' s t) (hs : s.Housed limit)
    (ht : t.Housed limit) (hlen : op.dataOp?.isSome = true → es'.length ≤ es.length)
    (hx : ¬ s.Exhausted) (hy : ¬ (t.perform .standard op).state.Exhausted) :
    ¬ (s.perform .standard op).state.Exhausted := by
  rcases perform_cases .standard op s with ⟨dop, index, data, hd, hp⟩ | ⟨_, _, -, -, hp, -⟩ |
    ⟨n, -, hp, -⟩
  · rw [hp, Step.map_state]
    rw [perform_of_dataOp hd, Step.map_state] at hy
    cases hl : s.latch.first with
    | some e => rw [operate_of_isSet hl]; exact hx
    | none =>
      have hroom := (not_exhausted_operate_standard_iff ht (h.latch ▸ hl) op).1 hy
      have hle := hlen (by rw [hd]; rfl)
      have hev := congrArg List.length h.events
      rw [List.length_append, List.length_append] at hev
      rw [not_exhausted_operate_standard_iff hs hl, h.welcomed_eq]
      omega
  · rw [hp]; exact hx
  · rw [hp]; exact hx

/-- **The run that takes events earlier** is not exhausted before the other. -/
theorem not_exhausted_serve (h : Alike [] [] s t) (hs : s.Housed limit) (ht : t.Housed limit)
    {ops ops' : List Op} (ha : Aligned ops ops') (hahead : Ahead s t ops ops')
    (hy : ¬ (t.serve ops').state.Exhausted) : ¬ (s.serve ops).state.Exhausted := by
  induction ha with
  | nil =>
    rintro ⟨err, he⟩
    exact hy ⟨err, (congrArg Latch.first h.latch).symm.trans he⟩
  | @left ops ops' op _ hp ih =>
    obtain ⟨n, hs', -⟩ := perform_of_not_produces hp .standard (s.serve ops).state
    rw [Step.chain_concat_state, hs']
    exact ih (hahead.of_prefix (List.prefix_append ..) (List.prefix_refl _)) hy
  | right _ _ ih =>
    exact ih (hahead.of_prefix (List.prefix_refl _) (List.prefix_append ..))
      (not_exhausted_of_concat hy)
  | @both ops ops' op ha hp ih =>
    have hy' := not_exhausted_of_concat hy
    have hx := ih (hahead.of_prefix (List.prefix_append ..) (List.prefix_append ..)) hy'
    have hl := (alike_serve h hs.toValid ht.toValid ha hx hy').1
    rw [Step.chain_concat_state] at hy ⊢
    refine hl.not_exhausted_perform (hs.serve ops) (ht.serve ops') (fun hd => ?_) hx hy
    exact hahead ops op [] ops' [] rfl rfl ha.filter_eq hd

/-- **When events are taken does not matter.**  Two sessions, whose configurations agree but for
    the capacity, get the same feeds, flushes and images.  As long as neither is exhausted, they
    agree in all but the events that were taken.  The one that takes events earlier is not
    exhausted before the other. -/
theorem agree_of_filter_eq {tree : SourceFormat → φ → Step φ (Except Status ε)} {config : Config}
    {capacity : UInt64} {factory : φ} {s t : Session (Recorded ε)}
    (hs : (create .standard (Recorded.createTree tree) config ⟨factory, #[]⟩).result = .ok s)
    (ht : (create .standard (Recorded.createTree tree) { config with capacity }
      ⟨factory, #[]⟩).result = .ok t)
    {ops ops' : List Op} (h : ops.filter Op.produces = ops'.filter Op.produces) :
    let run := s.serve ops
    let run' := t.serve ops'
    (¬ run.state.Exhausted → ¬ run'.state.Exhausted →
      run.result.filter Answer.isReply = run'.result.filter Answer.isReply ∧
      run.state.engine = run'.state.engine ∧
      run.state.phase = run'.state.phase ∧
      run.state.latch = run'.state.latch ∧
      run.state.images = run'.state.images ∧
      handed run.result ++ run.state.queue.toList =
        handed run'.result ++ run'.state.queue.toList) ∧
    (Ahead s t ops ops' → ¬ run'.state.Exhausted → ¬ run.state.Exhausted) := by
  intro run run'
  have halike := Alike.create hs ht
  have hals := Aligned.of_filter_eq h
  -- the capacity has no part in the limit
  have hhoused := Housed.create ht
  constructor
  · intro hx hy
    obtain ⟨hl, hr⟩ := alike_serve halike (.create hs) (.create ht) hals hx hy
    exact ⟨hr, hl.engine, hl.phase, hl.latch, hl.images, hl.events⟩
  · intro hahead hy
    exact not_exhausted_serve halike (.create hs) hhoused hals hahead hy

end Session

/-! ## An early and a late consumer -/

namespace Playback

/-- A configuration whose queue starts small. -/
def narrow : Config := { config with limit := some 8 }

/-- The same configuration, with a queue that need not grow. -/
def wide : Config := { narrow with capacity := 8 }

/-- Takes the events between feed and flush. -/
def early : List Session.Op :=
  [.feed ⟨#[0, 0]⟩ 0, .drain 3, .flush]

/-- Takes an event after the flush. -/
def late : List Session.Op :=
  [.feed ⟨#[0, 0]⟩ 0, .flush, .nextEvent]

theorem ahead_early_late :
    Session.Ahead (recorded narrow 2) (recorded wide 8) early late := by
  rintro before op after before' after' - h' - ho
  rcases before' with _ | ⟨a, _ | ⟨b, _ | ⟨c, before'⟩⟩⟩
  · exact Nat.zero_le _
  · cases h'; exact Nat.zero_le _
  · cases h'; cases ho
  · cases before' <;> cases h'

end Playback

namespace Session

/-- One queue grows and the other does not, and three events are taken here and one there. -/
theorem agree_of_filter_eq_narrow_wide :
    (create .standard (Recorded.createTree Playback.tree) Playback.narrow ⟨.five, #[]⟩).result =
      .ok (Playback.recorded Playback.narrow 2) ∧
    (create .standard (Recorded.createTree Playback.tree) Playback.wide ⟨.five, #[]⟩).result =
      .ok (Playback.recorded Playback.wide 8) ∧
    Playback.early.filter Op.produces = Playback.late.filter Op.produces ∧
    (let run := (Playback.recorded Playback.narrow 2).serve Playback.early
     let run' := (Playback.recorded Playback.wide 8).serve Playback.late
     run.state.engine = run'.state.engine ∧
     handed run.result ++ run.state.queue.toList = handed run'.result ++ run'.state.queue.toList ∧
     ¬ run.state.Exhausted) := by
  have hy : ¬ ((Playback.recorded Playback.wide 8).serve Playback.late).state.Exhausted := by
    rintro ⟨err, h⟩; cases h
  obtain ⟨hagree, hahead⟩ := @agree_of_filter_eq Playback Playback _ Playback.tree Playback.narrow 8
    .five (Playback.recorded Playback.narrow 2) (Playback.recorded Playback.wide 8) rfl rfl
    Playback.early Playback.late rfl
  have hx := hahead Playback.ahead_early_late hy
  obtain ⟨-, he, -, -, -, hev⟩ := hagree hx hy
  exact ⟨rfl, rfl, rfl, he, hev, hx⟩

end Session

end TraceRelay
