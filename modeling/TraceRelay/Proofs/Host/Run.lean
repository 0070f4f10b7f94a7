/-
  TraceRelay — what hosts do with decoders.

  * `HostDecoder.Op` are the operations, `HostDecoder.perform` performs one, and
    `HostDecoder.Reachable` are the decoders that come up;
  * `Op.onSession?` is the operation of the session that an operation is passed on as;
  * `Reachable.session_invariant` carries invariants of sessions over to decoders.
    `Reachable.session`: the session behind a decoder that comes up is one that comes up;
  * `errorText?_of_respond`: the envelope of a call carries the text of the call's error.
-/
import TraceRelay.Host.Decoder
import TraceRelay.Proofs.Handle

namespace TraceRelay

/-- The error's text that an envelope carries. -/
def HostValue.errorText? : HostValue → Option String
  | .record members =>
    match members.lookup "error" with
    | some (.text message) => some message
    | _ => none
  | _ => none

namespace HostDecoder

variable {η : Type}

/-! ## Operations -/

/-- The operations of a decoder. -/
inductive Op where
  | addImage (path : String) (loadAddress fileOffset size : UInt64)
  | feed (data : ByteArray) (index : UInt64)
  | flush
  | nextEvent
  | destroy

/-- What an operation answers. -/
inductive Answer where
  /-- The host gets a value, or the text that is thrown. -/
  | given (result : Except String HostValue)
  | destroyed (result : Bool)

/-- Performs an operation; `fault` is the failure of the conversion of its answer, if that fails. -/
def perform [DecodeHost η] (mem : Allocator) (fault : Option String) :
    Op → HostDecoder η → Step (HostDecoder η) Answer
  | .addImage path loadAddress fileOffset size, d =>
    (d.addImage fault path loadAddress fileOffset size).map .given
  | .feed data index, d => (d.feed mem fault data index).map .given
  | .flush, d => (d.flush mem fault).map .given
  | .nextEvent, d => ⟨.given (d.nextEvent fault).1, (d.nextEvent fault).2, #[]⟩
  | .destroy, d => d.destroy.map .destroyed

/-- The decoders that come up: those that are created, and what operations make of them. -/
inductive Reachable [DecodeHost η] : HostDecoder η → Prop
  | create {mem : Allocator} {protocol : Int32} {traceId : UInt8} {selector : Int32}
      {fault : Option String} {host : η} {d : HostDecoder η}
      (h : (HostDecoder.create mem protocol traceId selector fault host).result = .ok d) :
      Reachable d
  | perform {d : HostDecoder η} (h : Reachable d) (mem : Allocator) (fault : Option String)
      (op : Op) : Reachable (d.perform mem fault op).state

section
variable [DecodeHost η] {mem : Allocator} {fault : Option String} {d : HostDecoder η} {op : Op}
  {o : Session.Op}

/-! ## The session behind a decoder -/

/-- The operation that is passed on to the session, apart from the taking of an event. -/
def Op.onSession? : Op → Option Session.Op
  | .addImage path loadAddress fileOffset size =>
    some (.addImage (.ofString path) loadAddress fileOffset size)
  | .feed data index => some (.feed data index)
  | .flush => some .flush
  | .nextEvent | .destroy => none

theorem perform_onSession (ho : op.onSession? = some o) (mem : Allocator) (fault : Option String)
    (s : Session (HostEngine η)) (unsent : Option EventRecord) :
    (perform mem fault op ⟨⟨some s⟩, unsent⟩).state = ⟨⟨some (s.perform mem o).state⟩, unsent⟩ := by
  cases op <;> cases ho <;> rfl

theorem perform_gone (ho : op.onSession? = some o) (mem : Allocator) (fault : Option String)
    (unsent : Option EventRecord) :
    (perform mem fault op (⟨⟨none⟩, unsent⟩ : HostDecoder η)).state = ⟨⟨none⟩, unsent⟩ := by
  cases op <;> cases ho <;> rfl

theorem create_eq_ok {protocol : Int32} {traceId : UInt8} {selector : Int32} {host : η}
    (h : (create mem protocol traceId selector fault host).result = .ok d) :
    ∃ s, (Session.create mem (HostEngine.createTree traceId fault)
      (.ofSelectors protocol traceId selector) host).result = .ok s ∧ d = ⟨⟨some s⟩, none⟩ := by
  unfold create at h
  dsimp only at h
  split at h
  · cases h
  · rename_i handle hmade
    obtain ⟨s, hs, rfl⟩ := Handle.create_eq_ok hmade
    exact ⟨s, hs, (Except.ok.inj h).symm⟩

omit [DecodeHost η] in
/-- Whether or not the record is converted, it is taken off the queue. -/
theorem handle_nextEvent (fault : Option String) (d : HostDecoder η) :
    (d.nextEvent fault).2.handle = d.nextRecord.2 := by
  unfold nextEvent
  split <;> rename_i h <;> rw [h]
  split <;> rfl

/-- An operation leaves the session as it was, performs an operation on it or ends it. -/
theorem session_perform (mem : Allocator) (fault : Option String) (op : Op) (d : HostDecoder η) :
    (d.perform mem fault op).state.handle.session = d.handle.session ∨
    (d.perform mem fault op).state.handle.session = none ∨
    ∃ s o, d.handle.session = some s ∧
      (d.perform mem fault op).state.handle.session = some (s.perform mem o).state := by
  obtain ⟨⟨session⟩, unsent⟩ := d
  cases ho : op.onSession? with
  | some o =>
    cases session with
    | none => exact Or.inl (by rw [perform_gone ho])
    | some s => exact Or.inr (Or.inr ⟨s, o, rfl, by rw [perform_onSession ho]⟩)
  | none =>
    cases op with
    | addImage | feed | flush => cases ho
    | nextEvent =>
      rw [perform, handle_nextEvent]
      cases unsent with
      | some record => exact Or.inl rfl
      | none =>
        cases session with
        | none => exact Or.inl rfl
        | some s => exact Or.inr (Or.inr ⟨s, .nextEvent, rfl, rfl⟩)
    | destroy => cases session <;> exact Or.inr (Or.inl rfl)

/-- What holds of new sessions, and is kept by their operations, holds of the sessions behind
    decoders that come up. -/
theorem Reachable.session_invariant {P : Session (HostEngine η) → Prop}
    (hcreate : ∀ {mem protocol traceId selector fault} {host : η} {s},
      (Session.create mem (HostEngine.createTree traceId fault)
        (.ofSelectors protocol traceId selector) host).result = .ok s → P s)
    (hperform : ∀ {s} mem o, P s → P (s.perform mem o).state) (h : d.Reachable)
    {s : Session (HostEngine η)} (hs : d.handle.session = some s) : P s := by
  induction h generalizing s with
  | create hd =>
    obtain ⟨s', hs', rfl⟩ := create_eq_ok hd
    obtain rfl := Option.some.inj hs
    exact hcreate hs'
  | perform _ mem fault op ih =>
    rename_i d _
    rcases session_perform mem fault op d with h | h | ⟨s', o, h', h⟩
    · exact ih (h.symm.trans hs)
    · rw [h] at hs; cases hs
    · rw [h] at hs
      obtain rfl := Option.some.inj hs
      exact hperform mem o (ih h')

/-- **The session behind a decoder that comes up is one that comes up.** -/
theorem Reachable.session (h : d.Reachable) {s : Session (HostEngine η)}
    (hs : d.handle.session = some s) : s.Reachable :=
  h.session_invariant .create (fun mem o h => h.perform mem o) hs

end

/-! ## Envelopes -/

/-- **An envelope carries the text of the error**, and none if there is no error. -/
theorem errorText?_of_respond {α : Type} [ToHost α] {fault : Option String}
    {unsent : Option EventRecord} {x : Step (Handle (HostEngine η)) (Except SessionError α)}
    {value : HostValue} (h : (respond fault unsent x).result = .ok value) :
    value.errorText? = match x.result with
      | .error e => some e.message
      | .ok _ => none := by
  cases fault with
  | some text => cases h
  | none =>
    obtain rfl := Except.ok.inj h
    cases x.result <;> rfl

end HostDecoder

end TraceRelay
