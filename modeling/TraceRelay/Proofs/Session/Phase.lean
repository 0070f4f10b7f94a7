/-
  TraceRelay — the phase of a session.

  The phase and the latch are kept apart, and while a data operation runs the collector may
  latch an error that the phase does not tell of yet.

  * `Told`: a call fails iff an error is held after it, and with this error;
  * `Phased`: the phase is what the latch and the engine's calls say.  `Phased.perform` is
    the step;
  * `phase_of_run`: it is so after every operation of every run.
-/
import TraceRelay.Proofs.Session.Calls

namespace TraceRelay

namespace Session

variable {ε φ : Type}

/-! ## Failure -/

/-- A call succeeds iff no error is held after it, and fails with the error that is. -/
def Told {α : Type} (x : Step (Session ε) (Except SessionError α)) : Prop :=
  (x.result.isOk = true ↔ x.state.latch.isSet = false) ∧
    ∀ e, x.result = .error e → x.state.latch.first = some e

theorem Told.map {α β : Type} {x : Step (Session ε) (Except SessionError α)} (h : Told x)
    (f : α → β) : Told (x.map fun result => result.map f) := by
  obtain ⟨⟨e⟩ | ⟨a⟩, s, log⟩ := x
  · refine ⟨h.1, ?_⟩
    rintro _ ⟨⟩
    exact h.2 e rfl
  · refine ⟨h.1, ?_⟩
    rintro _ ⟨⟩

section
variable [DecodeEngine ε] (mem : Allocator) (s : Session ε) (dop : DataOp) (index : UInt64)
  (data : ByteArray) (fatal : Status → SessionError)

theorem told_operate : Told (s.operate mem dop index data fatal) := by
  cases hl : s.latch.first with
  | some e =>
    rw [operate_of_isSet hl]
    refine ⟨by simp [Latch.isSet, hl, Except.isOk, Except.toBool], ?_⟩
    rintro _ ⟨⟩
    exact hl
  | none =>
    obtain ⟨hs, hr⟩ := @operate_of_clear ε _ mem s dop index data fatal hl
    rw [Told, hs, hr, Latch.isSet]
    dsimp only
    cases (latchAfter _ _ _).first with
    | some e =>
      refine ⟨by simp [Except.isOk, Except.toBool], ?_⟩
      rintro _ ⟨⟩
      rfl
    | none =>
      refine ⟨by simp [Except.isOk, Except.toBool], ?_⟩
      rintro _ ⟨⟩

theorem told_feed : Told (s.feed mem data index) :=
  (told_operate mem s .data index data _).map _

theorem told_flush : Told (s.flush mem) :=
  (told_operate mem s .flush 0 .empty _).map _

end

/-! ## The phase -/

/-- The phase is errored iff an error is held, and else tells whether a data operation has reached
    the engine. -/
def Phased (s : Session (Recorded ε)) : Prop :=
  s.phase = phaseAfter (if s.engine.processed.isEmpty then .configured else .feeding) s.latch

variable [DecodeEngine ε] {s : Session (Recorded ε)}

theorem Phased.create {mem : Allocator} {tree : SourceFormat → φ → Step φ (Except Status ε)}
    {config : Config} {factory : φ}
    (h : (Session.create mem (Recorded.createTree tree) config ⟨factory, #[]⟩).result = .ok s) :
    s.Phased := by
  obtain ⟨answer, hc, ⟨-, hl, hp⟩ | ⟨status, -, hp, hl⟩⟩ := create_calls h
  · have he : s.engine.processed = #[] := by rw [Recorded.processed, hc]; rfl
    rw [Phased, hp, hl, he]
    rfl
  · rw [Phased, hp, hl]
    rfl

theorem processed_operate {mem : Allocator} {dop : DataOp} {index : UInt64} {data : ByteArray}
    {fatal : Status → SessionError} (h : s.latch.first = none) :
    (s.operate mem dop index data fatal).state.engine.processed =
      s.engine.processed.push (s.record mem dop index data) := by
  rw [Recorded.processed, calls_operate h, Array.filter_push_of_pos rfl (Array.size_push _),
    Recorded.processed]

/-- **The step.** -/
theorem Phased.perform (h : s.Phased) (mem : Allocator) (op : Op) :
    (s.perform mem op).state.Phased := by
  rcases perform_cases mem op s with ⟨dop, index, data, -, hs⟩ | ⟨engine, images, -, ho, hs, -⟩ |
    ⟨n, -, hs, -⟩
  · rw [hs, Step.map_state]
    cases hl : s.latch.first with
    | some e => rw [operate_of_isSet hl]; exact h
    | none =>
      have hpos :
          ¬ (s.operate mem dop index data op.fatal).state.engine.processed.isEmpty = true := by
        rw [processed_operate hl]
        simp
      -- before the operation the phase was configured or feeding, so that it is feeding now
      have hfed : (if s.phase = .configured then .feeding else s.phase) = Phase.feeding := by
        have hclear : s.latch.isSet = false := by rw [Latch.isSet, hl]; rfl
        rw [h, phaseAfter, hclear]
        cases s.engine.processed.isEmpty <;> rfl
      rw [Phased, if_neg hpos, (operate_of_clear hl).1, hfed]
  · rw [hs, Phased]
    rw [Phased] at h
    rw [ho.processed]
    exact h
  · rw [hs]
    exact h

/-- **The phase is determined by the latch and the calls made.**  It is errored iff an error is
    held; else it is feeding or configured, as a data operation has reached the engine or not.  A
    feed or a flush succeeds iff no error is held after it, and else fails with that error. -/
theorem phase_of_run {mem : Allocator} {tree : SourceFormat → φ → Step φ (Except Status ε)}
    {config : Config} {factory : φ}
    (h : (create mem (Recorded.createTree tree) config ⟨factory, #[]⟩).result = .ok s)
    (calls : List (Allocator × Op)) :
    let run := (s.performAll calls).state
    (run.phase = .errored ↔ run.latch.isSet = true) ∧
    (run.latch.isSet = false →
      run.phase = if run.engine.processed.isEmpty then .configured else .feeding) ∧
    run.phase ≠ .created ∧ run.phase ≠ .destroyed ∧
    (∀ mem data index, Told (run.feed mem data index)) ∧ ∀ mem, Told (run.flush mem) := by
  intro run
  have hp : run.Phased :=
    Step.chain_invariant (fun call _ h => h.perform call.1 call.2) calls (.create h)
  rw [Phased, phaseAfter] at hp
  refine ⟨?_, ?_, ?_, ?_, fun mem data index => told_feed mem run index data,
    fun mem => told_flush mem run⟩
  · rw [hp]
    cases run.latch.isSet <;> cases run.engine.processed.isEmpty <;> simp
  · intro hl
    rw [hp, hl]
    rfl
  · rw [hp]
    cases run.latch.isSet <;> cases run.engine.processed.isEmpty <;> simp
  · rw [hp]
    cases run.latch.isSet <;> cases run.engine.processed.isEmpty <;> simp

/-- An engine that is told to stop, does not mind and reports success: the feed still fails, and
    the session is errored. -/
theorem phase_of_run_exhausted :
    (create .standard (Recorded.createTree Playback.tree) Playback.config ⟨.five, #[]⟩).result =
      .ok (Playback.recorded Playback.config 2) ∧
    Told ((Playback.recorded Playback.config 2).feed .standard ⟨#[0, 0]⟩ 0) ∧
    Playback.exhausted.phase = .errored ∧
    Playback.exhausted.latch.isSet = true ∧
    ∃ responses, Playback.exhausted.engine.processed =
      #[.process .data 0 ⟨#[0, 0]⟩ responses ⟨.ok, 8⟩] := by
  have h0 := @phase_of_run Playback Playback _ (Playback.recorded Playback.config 2) .standard
    Playback.tree Playback.config .five rfl []
  have h1 := @phase_of_run Playback Playback _ (Playback.recorded Playback.config 2) .standard
    Playback.tree Playback.config .five rfl [(.standard, .feed ⟨#[0, 0]⟩ 0)]
  obtain ⟨-, -, -, -, hfeed, -⟩ := h0
  exact ⟨rfl, hfeed .standard ⟨#[0, 0]⟩ 0, h1.1.2 rfl, rfl, _, rfl⟩

end Session

end TraceRelay
