/-
  TraceRelay — what is written can be read.

  Every format of the library is lawful, so that no field is lost on the way, and a value that can
  be spelt in several ways has one written form.

  * `Context.lawful_format` and its like, one for each format;
  * `Codec.normal?` is the written form of what a JSON value is read as, and `Codec.RoundTrips`
    says that values and written forms belong together;
  * `formats_roundTrip`: so it is for all formats.
-/
import TraceRelay.Host.Reply
import TraceRelay.Proofs.Json.Field

namespace TraceRelay

/-! ## Elements and replies -/

theorem Context.lawful_format : Context.format.Lawful where
  fields := by simp [Context.format]
  apart := by simp [Context.format]
  ext := by
    rintro ⟨⟩ ⟨⟩ h
    simpa [Context.format, Field.of] using h

theorem Element.lawful_format : Element.format.Lawful where
  fields := by simp [Element.format, Context.lawful_format.codec]
  apart := by simp [Element.format]
  ext := by
    rintro ⟨⟩ ⟨⟩ h
    simpa [Element.format, Field.of, Context.lawful_format.codec] using h

theorem HostReply.lawful_format : HostReply.format.Lawful where
  fields := by simp [HostReply.format, Element.lawful_format.codec]
  apart := by simp [HostReply.format]
  ext := by
    rintro ⟨⟩ ⟨⟩ h
    simpa [HostReply.format, Field.of, Element.lawful_format.codec] using h

/-! ## Configurations -/

theorem Codec.lawful_slots : (optional word64).Lawful :=
  lawful_optional lawful_word64 fun _ => nofun

theorem Config.lawful_format : Config.format.Lawful where
  fields := by simp [Config.format, Codec.lawful_slots]
  apart := by simp [Config.format]
  ext := by
    rintro ⟨⟩ ⟨⟩ h
    simpa [Config.format, Field.of, Codec.lawful_slots] using h

theorem DecoderRecord.lawful_format : DecoderRecord.format.Lawful where
  fields := by simp [DecoderRecord.format]
  apart := by simp [DecoderRecord.format]
  ext := by
    rintro ⟨⟩ ⟨⟩ h
    simpa [DecoderRecord.format, Field.of] using h

/-! ## Events -/

namespace Event.Kind

theorem lawful_blockFormat : blockFormat.Lawful where
  fields := by simp [blockFormat]
  apart := by simp [blockFormat]
  ext := by
    rintro ⟨⟩ ⟨⟩ h
    simpa [blockFormat, Field.of] using h

theorem lawful_pointFormat : pointFormat.Lawful where
  fields := by simp [pointFormat]
  apart := by simp [pointFormat]
  ext a b h := by simpa [pointFormat, Field.of] using h

theorem lawful_exceptionFormat : exceptionFormat.Lawful where
  fields := by simp [exceptionFormat]
  apart := by simp [exceptionFormat]
  ext := by
    rintro ⟨⟩ ⟨⟩ h
    simpa [exceptionFormat, Field.of] using h

theorem lawful_format : format.codec.Lawful := by
  refine SumFormat.lawful_codec fun k => ?_
  cases k with
  | block a b | call a b | ret a b =>
    exact ⟨_, rfl, congrArg (Except.map _) (lawful_blockFormat.readObject_members (a, b))⟩
  | traceOn a | traceOff a | exceptionReturn a =>
    exact ⟨_, rfl, congrArg (Except.map _) (lawful_pointFormat.readObject_members a)⟩
  | exception a n =>
    exact ⟨_, rfl, congrArg (Except.map _) (lawful_exceptionFormat.readObject_members (a, n))⟩

end Event.Kind

theorem Event.lawful_format : Event.format.Lawful where
  fields := by simp [Event.format, Kind.lawful_format]
  apart := by simp [Event.format]
  ext := by
    rintro ⟨⟩ ⟨⟩ h
    simpa [Event.format, Field.of, Kind.lawful_format] using h

theorem EventRecord.lawful_format : EventRecord.format.Lawful where
  fields := by simp [EventRecord.format]
  apart := by simp [EventRecord.format]
  ext := by
    rintro ⟨⟩ ⟨⟩ h
    simpa [EventRecord.format, Field.of] using h

/-! ## Written forms -/

namespace Codec

variable {α : Type} {c : Codec α}

/-- The written form of what a JSON value is read as. -/
def normal? (c : Codec α) (j : Json) : Except ReadError Json :=
  (c.read j).map c.write

/-- Each value has one written form, and that is read as the value. -/
structure RoundTrips (c : Codec α) : Prop where
  read_write : ∀ a, c.read (c.write a) = .ok a
  injective : Function.Injective c.write
  /-- What can be read has a normal form, which is read alike and is its own normal form. -/
  normal : ∀ j a, c.read j = .ok a →
    ∃ n, c.normal? j = .ok n ∧ n = c.write a ∧ c.read n = .ok a ∧ c.normal? n = .ok n
  /-- The normal form tells what is read. -/
  normal_eq_iff : ∀ j j' a a', c.read j = .ok a → c.read j' = .ok a' →
    (c.normal? j = c.normal? j' ↔ a = a')

theorem normal?_of_read {j : Json} {a : α} (h : c.read j = .ok a) :
    c.normal? j = .ok (c.write a) := by
  rw [normal?, h]
  rfl

theorem Lawful.roundTrips (h : c.Lawful) : c.RoundTrips where
  read_write := h
  injective _ _ := h.write_inj.1
  normal j a hj := ⟨c.write a, normal?_of_read hj, rfl, h a, normal?_of_read (h a)⟩
  normal_eq_iff j j' a a' hj hj' := by
    rw [normal?_of_read hj, normal?_of_read hj', Except.ok.injEq, h.write_inj]

end Codec

/-- **What is written can be read**, for every format: it is read as the value that it was written
    for.  Hence different values are written differently, and whatever is read as a value has the
    value's written form for its normal form, which is read as the same value. -/
theorem formats_roundTrip :
    Event.Kind.format.codec.RoundTrips ∧ Event.format.codec.RoundTrips ∧
    EventRecord.format.codec.RoundTrips ∧ Context.format.codec.RoundTrips ∧
    Element.format.codec.RoundTrips ∧ Config.format.codec.RoundTrips ∧
    HostReply.format.codec.RoundTrips ∧ DecoderRecord.format.codec.RoundTrips :=
  ⟨Event.Kind.lawful_format.roundTrips, Event.lawful_format.codec.roundTrips,
    EventRecord.lawful_format.codec.roundTrips, Context.lawful_format.codec.roundTrips,
    Element.lawful_format.codec.roundTrips, Config.lawful_format.codec.roundTrips,
    HostReply.lawful_format.codec.roundTrips, DecoderRecord.lawful_format.codec.roundTrips⟩

/-- An element spelt as an array, with its kind as a key, is written in full. -/
theorem formats_roundTrip_short :
    let j : Json := .arr [.obj [("TraceOn", .null)], .int 0xFFFFFFFFFFFFFFFF]
    let x : Element := { kind := .traceOn, start := 0xFFFFFFFFFFFFFFFF }
    Element.format.codec.read j = .ok x ∧
    Element.format.codec.read (Element.format.codec.write x) = .ok x ∧
    Element.format.codec.normal? j = .ok (Element.format.codec.write x) := by
  intro j x
  obtain ⟨-, -, -, -, helement, -, -, -⟩ := formats_roundTrip
  have hj : Element.format.codec.read j = .ok x := rfl
  obtain ⟨n, hnormal, rfl, -, -⟩ := helement.normal j x hj
  exact ⟨hj, helement.read_write x, hnormal⟩

end TraceRelay
