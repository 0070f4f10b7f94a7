/-
  TraceRelay — events and their flat records.

  The one layout of records has fields for all kinds of event, and the fields that a kind does not
  have say nothing.  Writing and reading go by two tables of codes.

  * `EventRecord.kind?_eq_ok_iff` and `EventRecord.kind?_eq_error_iff`: which records are read as a
    kind, and which as none;
  * `EventRecord.cleared` is a record with zero in the fields that say nothing, and
    `EventRecord.Canonical` are the records that have zero there;
  * `EventRecord.normal?` is a record that is read and written again;
  * `EventRecord.event?_inverse`: reading and writing are inverse on canonical records.
-/
import Mathlib.Data.Set.Operations
import TraceRelay.Event

namespace TraceRelay

/-! ## Kinds and their codes -/

namespace Event.Kind

theorem code_le (k : Kind) : k.code ≤ 6 := by
  cases k <;> simp [code]

theorem stop?_eq_none_iff (k : Kind) : k.stop? = none ↔ 2 < k.code := by
  cases k <;> simp [stop?, code]

theorem exception?_eq_none_iff (k : Kind) : k.exception? = none ↔ k.code ≠ 5 := by
  cases k <;> simp [exception?, code]

end Event.Kind

namespace EventRecord

variable {r : EventRecord} {e : Event} {k : Event.Kind} {u : UnknownCode}

/-- **A record is read as a kind** iff it has the kind's code, and the fields that the kind has. -/
theorem kind?_eq_ok_iff : r.kind? = .ok k ↔
    r.code = k.code ∧ r.start = k.start ∧ (∀ b, k.stop? = some b → r.stop = b) ∧
      ∀ n, k.exception? = some n → r.exception = n := by
  constructor
  · intro h
    unfold kind? at h
    split at h <;> rename_i hcode <;> cases h <;> refine ⟨hcode, rfl, ?_, ?_⟩ <;>
      simp [Event.Kind.stop?, Event.Kind.exception?]
  · obtain ⟨code, timestamp, start, stop, cpu, exception⟩ := r
    rintro ⟨rfl, rfl, hstop, hexception⟩
    cases k with
    | block a b | call a b | ret a b =>
      obtain rfl : stop = b := hstop b rfl
      rfl
    | exception a n =>
      obtain rfl : exception = n := hexception n rfl
      rfl
    | traceOn | traceOff | exceptionReturn => rfl

/-- The codes from 7 on are those of no kind. -/
theorem kind?_eq_error_iff : r.kind? = .error u ↔ 6 < r.code ∧ u = ⟨r.code⟩ := by
  unfold kind?
  split
  case h_8 h0 h1 h2 h3 h4 h5 h6 =>
    have hlt : 6 < r.code := by grind
    constructor
    · rintro ⟨⟩
      exact ⟨hlt, rfl⟩
    · rintro ⟨-, rfl⟩
      rfl
  all_goals
    rename_i hcode
    refine iff_of_false nofun ?_
    rintro ⟨hlt, -⟩
    rw [hcode] at hlt
    exact absurd hlt (by decide)

theorem event?_eq_ok_iff : r.event? = .ok e ↔
    r.kind? = .ok e.kind ∧ r.timestamp = e.timestamp ∧ r.cpu = e.cpu := by
  obtain ⟨kind, timestamp, cpu⟩ := e
  cases hk : r.kind? <;> simp [event?, hk, Except.map]

theorem event?_eq_error_iff : r.event? = .error u ↔ 6 < r.code ∧ u = ⟨r.code⟩ := by
  rw [← kind?_eq_error_iff]
  cases hk : r.kind? <;> simp [event?, hk, Except.map]

/-! ## Fields that say nothing -/

/-- The record with zero in the fields that its kind does not have. -/
def cleared (r : EventRecord) : EventRecord :=
  { r with
    stop := if 2 < r.code then 0 else r.stop
    exception := if r.code = 5 then r.exception else 0 }

/-- The code is that of a kind, and the fields that the kind does not have are zero. -/
structure Canonical (r : EventRecord) : Prop where
  code : r.code ≤ 6
  stop : 2 < r.code → r.stop = 0
  exception : r.code ≠ 5 → r.exception = 0

/-- The record read as an event and written again. -/
def normal? (r : EventRecord) : Except UnknownCode EventRecord :=
  r.event?.map Event.toRecord

theorem Canonical.cleared_eq (h : r.Canonical) : r.cleared = r := by
  have hstop : (if 2 < r.code then 0 else r.stop) = r.stop :=
    ite_eq_right_iff.2 fun hlt => (h.stop hlt).symm
  have hexception : (if r.code = 5 then r.exception else 0) = r.exception :=
    ite_eq_left_iff.2 fun hne => (h.exception hne).symm
  rw [cleared, hstop, hexception]

end EventRecord

open EventRecord

/-! ## Reading what was written -/

theorem Event.canonical_toRecord (e : Event) : e.toRecord.Canonical where
  code := e.kind.code_le
  stop h := by simp [toRecord, e.kind.stop?_eq_none_iff.2 h]
  exception h := by simp [toRecord, e.kind.exception?_eq_none_iff.2 h]

theorem Event.event?_toRecord (e : Event) : e.toRecord.event? = .ok e := by
  refine event?_eq_ok_iff.2 ⟨kind?_eq_ok_iff.2 ⟨rfl, rfl, ?_, ?_⟩, rfl, rfl⟩
  · intro b hb
    simp [toRecord, hb]
  · intro n hn
    simp [toRecord, hn]

namespace EventRecord

variable {r : EventRecord} {e : Event}

/-! ## Writing what was read -/

/-- What is written for a field, by what was read for it. -/
theorem getD_eq_ite {α : Type} {field? : Option α} {p : Prop} [Decidable p] {zero a : α}
    (hn : field? = none ↔ p) (hs : ∀ b, field? = some b → a = b) :
    field?.getD zero = if p then zero else a := by
  cases field? with
  | none => rw [if_pos (hn.1 rfl), Option.getD_none]
  | some b =>
    have hp : ¬ p := mt hn.2 nofun
    rw [if_neg hp, hs b rfl, Option.getD_some]

theorem toRecord_of_event? (h : r.event? = .ok e) : e.toRecord = r.cleared := by
  obtain ⟨hkind, htimestamp, hcpu⟩ := event?_eq_ok_iff.1 h
  obtain ⟨hcode, hstart, hstop, hexception⟩ := kind?_eq_ok_iff.1 hkind
  have hs : e.kind.stop?.getD 0 = if 2 < r.code then 0 else r.stop := by
    rw [hcode]
    exact getD_eq_ite e.kind.stop?_eq_none_iff hstop
  have hx : e.kind.exception?.getD 0 = if r.code = 5 then r.exception else 0 := by
    rw [hcode, ← ite_not]
    exact getD_eq_ite e.kind.exception?_eq_none_iff hexception
  simp [Event.toRecord, cleared, hs, hx, hcode, hstart, htimestamp, hcpu]

theorem exists_event? (h : ¬ 6 < r.code) : ∃ e, r.event? = .ok e := by
  cases he : r.event? with
  | ok e => exact ⟨e, rfl⟩
  | error u => exact absurd (event?_eq_error_iff.1 he).1 h

/-- **The canonical records are those of events.** -/
theorem canonical_iff : r.Canonical ↔ ∃ e : Event, e.toRecord = r := by
  constructor
  · intro h
    obtain ⟨e, he⟩ := exists_event? (UInt8.not_lt.2 h.code)
    exact ⟨e, (toRecord_of_event? he).trans h.cleared_eq⟩
  · rintro ⟨e, rfl⟩
    exact e.canonical_toRecord

/-- **Reading and writing are inverse on canonical records.**  An event is read back from its
    record.  A record is read iff its code is at most 6, and what is written for it again is the
    record with zero in the fields that say nothing.  Hence no two events have the same record, the
    records of events are the canonical ones, and a record is not changed by being read and written
    once more. -/
theorem event?_inverse :
    (∀ e : Event, e.toRecord.event? = .ok e) ∧
    (∀ r : EventRecord,
      (∀ u, r.event? = .error u ↔ 6 < r.code ∧ u = ⟨r.code⟩) ∧
      (¬ 6 < r.code → ∃ e, r.event? = .ok e ∧ e.toRecord =
        { r with
          stop := if 2 < r.code then 0 else r.stop
          exception := if r.code = 5 then r.exception else 0 })) ∧
    Function.Injective Event.toRecord ∧
    Set.range Event.toRecord = {r | r.Canonical} ∧
    ∀ r : EventRecord, r.normal?.bind normal? = r.normal? := by
  refine ⟨Event.event?_toRecord, ?_, ?_, ?_, ?_⟩
  · intro r
    refine ⟨fun u => event?_eq_error_iff, ?_⟩
    intro hcode
    obtain ⟨e, he⟩ := exists_event? hcode
    exact ⟨e, he, toRecord_of_event? he⟩
  · intro e e' h
    have hr : e.toRecord.event? = .ok e' := by rw [h, e'.event?_toRecord]
    exact Except.ok.inj (e.event?_toRecord.symm.trans hr)
  · ext r
    exact canonical_iff.symm
  · intro r
    cases he : r.event? with
    | error u => simp [normal?, he, Except.map, Except.bind]
    | ok e => simp [normal?, he, Except.map, Except.bind, e.event?_toRecord]

/-- A resumption has neither an end nor a number, whatever its record says. -/
theorem event?_inverse_resumed :
    let r : EventRecord := { code := 3, start := 1, stop := 2, exception := 9 }
    ¬ 6 < r.code ∧
    (∃ e, r.event? = .ok e ∧ e.toRecord = { code := 3, start := 1 }) ∧
    ({ r with code := 7 } : EventRecord).event? = .error ⟨7⟩ := by
  intro r
  obtain ⟨-, hread, -⟩ := event?_inverse
  have hcode : ¬ 6 < r.code := by decide
  exact ⟨hcode, (hread r).2 hcode, ((hread { r with code := 7 }).1 ⟨7⟩).2 ⟨by decide, rfl⟩⟩

end EventRecord

end TraceRelay
