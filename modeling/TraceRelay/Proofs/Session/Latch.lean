/-
  TraceRelay — what a session latches.

  An error may be latched by the collector, when an event is lost, and by the session, when a
  status is fatal.  Both can happen in one data operation, and in no other way is there an error
  after the first.

  * `Session.lossesAll` are the outcomes of the data operations that lose an event in the
    course of a run;
  * `Latch.Accounted`: a latch holds an error of those that a session latches, and counts another
    one iff an event was lost in an operation with a fatal status.  `accounted_perform` is the
    step;
  * `message_of_told`: the text of a latched error is never cut, so that a failed call and the
    latch have the same text;
  * `latch_of_run`: so it is after every run, and for every decoder of a host.
-/
import TraceRelay.Proofs.Host.Run
import TraceRelay.Proofs.Message
import TraceRelay.Proofs.Session.Phase

namespace TraceRelay

/-! ## Accounts -/

/-- The latch, after losses in operations with the given outcomes. -/
structure Latch.Accounted (outcomes : List Outcome) (l : Latch) : Prop where
  clear : l.first = none → l = {} ∧ outcomes = []
  latching : ∀ e, l.first = some e → e.Latching
  suppressed_le : l.suppressed ≤ 1
  suppressed_eq_one_iff : l.suppressed = 1 ↔ (∃ cause, l.first = some (.queueExhausted cause)) ∧
    ∃ outcome ∈ outcomes, outcome.status.disposition = .fatal

theorem Latch.Accounted.empty : ({} : Latch).Accounted [] where
  clear _ := ⟨rfl, rfl⟩
  latching e he := by cases he
  suppressed_le := Nat.zero_le 1
  suppressed_eq_one_iff := by simp

theorem Latch.Accounted.single {e : SessionError} (h : e.Latching) :
    ({ first := some e } : Latch).Accounted [] where
  clear hn := by cases hn
  latching e' he := by
    obtain rfl := Option.some.inj he
    exact h
  suppressed_le := Nat.zero_le 1
  suppressed_eq_one_iff := by simp

namespace Session

theorem Op.latching_fatal (op : Op) (status : Status) : (op.fatal status).Latching := by
  cases op with
  | feed data index => exact .decodeFailed index status
  | flush | addImage | nextEvent | drain => exact .flushFailed status

/-- After an operation that loses no event. -/
theorem accounted_kept {fatal : SessionError} (hf : fatal.Latching) (status : Status) :
    (latchAfter {} status fatal).Accounted [] := by
  unfold latchAfter
  split
  · exact .single hf
  · exact .empty

/-- After an operation that loses an event: a fatal status comes second. -/
theorem accounted_lost (cause : StoreError) (outcome : Outcome) (fatal : SessionError) :
    (latchAfter { first := some (.queueExhausted cause) } outcome.status fatal).Accounted
      [outcome] := by
  have hfirst : (latchAfter { first := some (.queueExhausted cause) } outcome.status fatal).first =
      some (.queueExhausted cause) := latchAfter_first rfl ..
  have hsuppressed : (latchAfter { first := some (.queueExhausted cause) } outcome.status
      fatal).suppressed = if outcome.status.disposition = .fatal then 1 else 0 := by
    unfold latchAfter
    split <;> rfl
  refine ⟨?_, ?_, ?_, ?_⟩
  · intro hn
    rw [hfirst] at hn
    cases hn
  · intro e he
    obtain rfl := Option.some.inj (hfirst.symm.trans he)
    exact .queueExhausted cause
  · rw [hsuppressed]
    split
    · exact Nat.le_refl 1
    · exact Nat.zero_le 1
  · rw [hsuppressed, hfirst]
    simp

/-! ## Losses -/

section
variable {ε φ : Type} [DecodeEngine ε]

/-- The outcome of the data operation, if it loses an event. -/
def losses (mem : Allocator) (op : Op) (s : Session ε) : List Outcome :=
  match op.dataOp? with
  | none => []
  | some (dop, index, data) =>
    if (s.deliveries mem op).any Delivery.lost then [(s.deliverTo mem dop index data).1.result]
    else []

/-- The outcomes of all data operations of a run that lose an event, in order. -/
def lossesAll : List (Allocator × Op) → Session ε → List Outcome
  | [], _ => []
  | (mem, op) :: calls, s => s.losses mem op ++ (s.perform mem op).state.lossesAll calls

variable {mem : Allocator} {s : Session ε} {op : Op} {outcomes : List Outcome}

theorem losses_of_isSet (h : s.latch.isSet = true) : s.losses mem op = [] := by
  rw [losses, deliveries_of_isSet h]
  split <;> rfl

/-- Either no event is lost and the latch stays as it was, or one is and the latch tells. -/
theorem losses_cases (mem : Allocator) (hv : s.Valid) (hl : s.latch.first = none) {dop : DataOp}
    {index : UInt64} {data : ByteArray} (hd : op.dataOp? = some (dop, index, data)) :
    let x := s.deliverTo mem dop index data
    (s.losses mem op = [] ∧ x.2.latch = s.latch) ∨
    ∃ cause, s.losses mem op = [x.1.result] ∧
      x.2.latch = { s.latch with first := some (.queueExhausted cause) } := by
  intro x
  obtain ⟨-, ⟨hn, hc⟩ | ⟨cause, ha, hc⟩⟩ := Collector.deliver_spec mem
    (c := ⟨s.queue, s.latch, #[]⟩) (DecodeEngine.process dop index data s.engine) hv.queue hl
  · refine Or.inl ⟨?_, hc⟩
    simp only [losses, hd, deliveries_of_clear hl hd, hn]
    rfl
  · refine Or.inr ⟨cause, ?_, hc⟩
    simp only [losses, hd, deliveries_of_clear hl hd, ha]
    rfl

/-! ## The step -/

theorem accounted_create {tree : SourceFormat → φ → Step φ (Except Status ε)} {config : Config}
    {factory : φ} (h : (create mem tree config factory).result = .ok s) :
    s.latch.Accounted [] := by
  obtain ⟨queue, engine, -, -, rfl⟩ := create_eq_ok h
  rcases configure_state (⟨config, engine, #[], queue, {}, .created⟩ : Session ε) with
    ⟨-, hc⟩ | ⟨status, -, hc⟩ <;> rw [hc]
  · exact .empty
  · exact .single (.decoderRefused ..)

/-- **The step.** -/
theorem accounted_perform (h : s.latch.Accounted outcomes) (hv : s.Valid) (mem : Allocator)
    (op : Op) : (s.perform mem op).state.latch.Accounted (outcomes ++ s.losses mem op) := by
  rcases perform_cases mem op s with ⟨dop, index, data, hd, hs⟩ | ⟨engine, images, hd, -, hs, -⟩ |
    ⟨n, hd, hs, -⟩
  · rw [hs, Step.map_state]
    cases hl : s.latch.first with
    | some e =>
      rw [operate_of_isSet hl, losses_of_isSet (by rw [Latch.isSet, hl]; rfl), List.append_nil]
      exact h
    | none =>
      obtain ⟨hlatch, houtcomes⟩ := h.clear hl
      rw [(operate_of_clear hl).1, houtcomes, List.nil_append]
      rcases losses_cases mem hv hl hd with ⟨hn, hc⟩ | ⟨cause, hn, hc⟩
      · rw [hn, hc, hlatch]
        exact accounted_kept (op.latching_fatal _) _
      · rw [hn, hc, hlatch]
        exact accounted_lost cause _ _
  · rw [losses, hd, List.append_nil, hs]
    exact h
  · rw [losses, hd, List.append_nil, hs]
    exact h

/-! ## Runs -/

theorem accounted_performAll (h : s.latch.Accounted outcomes) (hv : s.Valid)
    (calls : List (Allocator × Op)) :
    (s.performAll calls).state.latch.Accounted (outcomes ++ s.lossesAll calls) := by
  induction calls generalizing s outcomes with
  | nil => rw [lossesAll, List.append_nil]; exact h
  | cons call calls ih =>
    rw [lossesAll, ← List.append_assoc]
    exact ih (accounted_perform h hv call.1 call.2) (hv.perform call.1 call.2)

theorem Reachable.accounted (h : s.Reachable) : ∃ outcomes, s.latch.Accounted outcomes := by
  induction h with
  | create h => exact ⟨[], accounted_create h⟩
  | perform h mem op ih =>
    obtain ⟨outcomes, ho⟩ := ih
    exact ⟨_, accounted_perform ho h.valid mem op⟩

end

/-! ## Texts -/

/-- The text of an error that a session latches is not cut. -/
theorem message_of_accounted {l : Latch} {outcomes : List Outcome} (h : l.Accounted outcomes) :
    l.message = l.first.map SessionError.message := by
  rw [Latch.message]
  cases hl : l.first with
  | none => rfl
  | some e => exact congrArg some (h.latching e hl).boundedMessage

/-- A failed call has the text of the latch. -/
theorem message_of_told {ε α : Type} [DecodeEngine ε]
    {x : Step (Session ε) (Except SessionError α)} (h : Told x) (hr : x.state.Reachable) :
    x.state.latch.message = match x.result with
      | .error e => some e.message
      | .ok _ => none := by
  obtain ⟨outcomes, ho⟩ := hr.accounted
  rw [message_of_accounted ho]
  cases hx : x.result with
  | error e => rw [h.2 e hx]; rfl
  | ok a =>
    have hclear : x.state.latch.isSet = false := h.1.1 (by rw [hx]; rfl)
    rw [Latch.isSet, Option.isSome_eq_false_iff, Option.isNone_iff_eq_none] at hclear
    rw [hclear]
    rfl

end Session

/-! ## Envelopes -/

namespace HostDecoder

variable {η : Type} [DecodeHost η] {mem : Allocator} {fault : Option String} {d : HostDecoder η}
  {value : HostValue}

theorem errorText?_of_told {α : Type} [ToHost α] {unsent : Option EventRecord}
    {x : Step (Session (HostEngine η)) (Except SessionError α)} (ht : Session.Told x)
    (hr : x.state.Reachable)
    (hv : (respond fault unsent (x.within Handle.ofSession)).result = .ok value) :
    value.errorText? = x.state.latch.message := by
  rw [Session.message_of_told ht hr, errorText?_of_respond hv]
  rfl

theorem errorText?_of_feed {data : ByteArray} {index : UInt64} (h : d.Reachable)
    (hd : d.handle.session.isSome = true)
    (hv : (d.feed mem fault data index).result = .ok value) :
    value.errorText? = (d.feed mem fault data index).state.message := by
  obtain ⟨s, hs⟩ := Option.isSome_iff_exists.1 hd
  have hr := (h.session hs).perform mem (.feed data index)
  obtain ⟨⟨session⟩, unsent⟩ := d
  obtain rfl : session = some s := hs
  have ht : Session.Told ((s.feed mem data index).map fun result =>
      result.map fun n => UInt32.ofNat (min n (UInt32.size - 1))) :=
    (Session.told_feed mem s index data).map _
  have htext := errorText?_of_told ht hr hv
  exact htext

theorem errorText?_of_flush (h : d.Reachable) (hd : d.handle.session.isSome = true)
    (hv : (d.flush mem fault).result = .ok value) :
    value.errorText? = (d.flush mem fault).state.message := by
  obtain ⟨s, hs⟩ := Option.isSome_iff_exists.1 hd
  have hr := (h.session hs).perform mem .flush
  obtain ⟨⟨session⟩, unsent⟩ := d
  obtain rfl : session = some s := hs
  exact errorText?_of_told (Session.told_flush mem s) hr hv

end HostDecoder

/-! ## What is latched -/

namespace Session

/-- **What a session latches.**  After every run there is at most one error after the first, and
    the first is of those that a session latches.  There is one after it iff an event was lost in
    an operation that ended with a fatal status.  The text of the latch is the error's in full,
    and thus what an envelope tells a host. -/
theorem latch_of_run {ε φ : Type} [DecodeEngine ε] {mem : Allocator}
    {tree : SourceFormat → φ → Step φ (Except Status ε)} {config : Config} {factory : φ}
    {s : Session ε} (h : (create mem tree config factory).result = .ok s)
    (calls : List (Allocator × Op)) :
    let latch := (s.performAll calls).state.latch
    latch.suppressed ≤ 1 ∧
    (∀ e, latch.first = some e → e.Latching ∧ e.isFatal = true) ∧
    (latch.suppressed = 1 ↔ (∃ cause, latch.first = some (.queueExhausted cause)) ∧
      ∃ outcome ∈ s.lossesAll calls, outcome.status.disposition = .fatal) ∧
    latch.message = latch.first.map SessionError.message ∧
    ∀ (η : Type) [DecodeHost η] (d : HostDecoder η), d.Reachable →
      d.handle.session.isSome = true → ∀ (mem : Allocator) (fault : Option String)
        (value : HostValue),
      (∀ data index, (d.feed mem fault data index).result = .ok value →
        value.errorText? = (d.feed mem fault data index).state.message) ∧
      ((d.flush mem fault).result = .ok value →
        value.errorText? = (d.flush mem fault).state.message) := by
  intro latch
  have ha := accounted_performAll (accounted_create h) (Valid.create h) calls
  rw [List.nil_append] at ha
  refine ⟨ha.suppressed_le, ?_, ha.suppressed_eq_one_iff, message_of_accounted ha, ?_⟩
  · intro e he
    exact ⟨ha.latching e he, (ha.latching e he).isFatal⟩
  · intro η _ d hr hd mem fault value
    refine ⟨fun data index hv => ?_, fun hv => ?_⟩
    · exact HostDecoder.errorText?_of_feed hr hd hv
    · exact HostDecoder.errorText?_of_flush hr hd hv

end Session

namespace Playback

/-- A session whose first data operation loses its fourth event and fails then. -/
def failing : Session Playback := { session with
  engine := { script := [([resumed 1, resumed 2, resumed 3, resumed 4], ⟨.dataDecodeFatal, 8⟩)] } }

/-- A host that accepts all that it is asked for and has no reply. -/
structure Mute where

instance : DecodeHost Mute where
  Raw := Unit
  createTree _ _ host := (0, host)
  createDecoder _ host := (0, host)
  addImage _ _ _ _ host := (0, host)
  processData _ _ _ host := ((), host)
  readReply _ := .error "no reply"

/-- A decoder over that host. -/
def Mute.decoder : HostDecoder Mute where
  handle := .ofSession ⟨.ofSelectors 0 0x10 0, ⟨⟨⟩, 0x10, none⟩, #[],
    ⟨Array.replicate 256 none, 0, 0, UInt64.ofNat (UInt64.size - 1)⟩, {}, .configured⟩

end Playback

namespace Session

/-- The loss comes first and the fatal status second.  What a host is told is the text that the
    latch holds. -/
theorem latch_of_run_failing :
    let run := (Playback.failing.performAll [(.standard, .feed ⟨#[0, 0]⟩ 0)]).state
    let fed := Playback.Mute.decoder.feed .standard none ⟨#[0, 0]⟩ 0
    (create .standard Playback.tree Playback.config Playback.failing.engine).result =
      .ok Playback.failing ∧
    run.latch.first = some (.queueExhausted (.limitReached 4)) ∧ run.latch.suppressed = 1 ∧
    Playback.Mute.decoder.Reachable ∧ Playback.Mute.decoder.hasError = false ∧
    fed.state.hasError = true ∧
    ∃ value, fed.result = .ok value ∧ value.errorText? = fed.state.message := by
  intro run fed
  obtain ⟨-, -, hs, -, hh⟩ := @latch_of_run Playback Playback _ .standard Playback.tree
    Playback.config Playback.failing.engine Playback.failing rfl
    [(.standard, .feed ⟨#[0, 0]⟩ 0)]
  have hloss : Playback.failing.lossesAll [(.standard, .feed ⟨#[0, 0]⟩ 0)] =
      [⟨.dataDecodeFatal, 8⟩] := rfl
  have hd : Playback.Mute.decoder.Reachable :=
    @HostDecoder.Reachable.create Playback.Mute _ .standard 0 0x10 0 none ⟨⟩ _ rfl
  refine ⟨rfl, rfl, hs.2 ⟨⟨_, rfl⟩, ?_⟩, hd, rfl, rfl, _, rfl, ?_⟩
  · rw [hloss]
    exact ⟨_, List.mem_singleton_self _, rfl⟩
  · exact (hh Playback.Mute Playback.Mute.decoder hd rfl .standard none _).1 ⟨#[0, 0]⟩ 0 rfl

end Session

end TraceRelay
