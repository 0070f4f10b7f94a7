/-
  TraceRelay — lawful record formats.

  The fields of a record are independent: a field that is read is set, and no other field changes.
  A record of a lawful format is therefore known by what is read for each field, in whatever order
  the fields come.

  * `Field.Reads`: what is read for a field is its value in a given record;
  * `RecordFormat.Lawful`: the laws of a format's fields;
  * `RecordFormat.Lawful.readObject`: the members of an object are read as the record of which all
    given fields are read and all others are blank;
  * `RecordFormat.Lawful.codec` and `SumFormat.lawful_codec`: the codecs are lawful.
-/
import Mathlib.Data.List.Pairwise
import TraceRelay.Json.Variant
import TraceRelay.Proofs.Json.Codec

namespace TraceRelay

variable {α β γ : Type}

/-! ## Fields -/

namespace Field

/-- `j` sets the field to the value that it has in `v`, whatever the record is that it sets it
    in. -/
def Reads (fld : Field α) (j : Json) (v : α) : Prop :=
  ∀ a, ∃ a', fld.read j a = .ok a' ∧ fld.write a' = fld.write v

/-- What is written for the field is read as the field. -/
def Lawful (fld : Field α) : Prop :=
  ∀ v, fld.Reads (fld.write v) v

/-- The fields have different names, and reading one leaves the other alone. -/
structure Apart (x y : Field α) : Prop where
  name : x.name ≠ y.name
  left : ∀ j a a', x.read j a = .ok a' → y.write a' = y.write a
  right : ∀ j a a', y.read j a = .ok a' → x.write a' = x.write a

instance : Std.Symm (Apart (α := α)) :=
  ⟨fun _ _ h => ⟨h.name.symm, h.right, h.left⟩⟩

section
variable {name name' : String} {c : Codec β} {c' : Codec γ} {get : α → β} {set : β → α → α}
  {get' : α → γ} {set' : γ → α → α}

theorem read_of_eq_ok {j : Json} {a a' : α} (h : (Field.of name c get set).read j a = .ok a') :
    ∃ b, a' = set b a := by
  cases hj : c.read j with
  | error e => simp [Field.of, hj, Except.map] at h
  | ok b =>
    simp only [Field.of, hj, Except.map, Except.ok.injEq] at h
    exact ⟨b, h.symm⟩

theorem reads_of (hget : ∀ b a, get (set b a) = b) {j : Json} {v : α}
    (hj : c.read j = .ok (get v)) : (Field.of name c get set).Reads j v := by
  intro a
  refine ⟨set (get v) a, ?_, ?_⟩
  · simp only [Field.of, hj, Except.map]
  · simp only [Field.of, hget]

@[simp] theorem lawful_of (hc : c.Lawful) (hget : ∀ b a, get (set b a) = b) :
    (Field.of name c get set).Lawful :=
  fun v => reads_of hget (hc (get v))

@[simp] theorem apart_of (hname : name ≠ name') (h : ∀ b a, get' (set b a) = get' a)
    (h' : ∀ b a, get (set' b a) = get a) :
    (Field.of name c get set).Apart (Field.of name' c' get' set') := by
  refine ⟨hname, fun j a a' hr => ?_, fun j a a' hr => ?_⟩
  · obtain ⟨b, rfl⟩ := read_of_eq_ok hr
    simp only [Field.of, h]
  · obtain ⟨b, rfl⟩ := read_of_eq_ok hr
    simp only [Field.of, h']

end

end Field

/-! ## Records -/

namespace RecordFormat

variable {f : RecordFormat α} {members : List (String × Json)} {r : α}

/-- The fields of a format can be read in any order, and make up the record. -/
structure Lawful (f : RecordFormat α) : Prop where
  fields : ∀ fld ∈ f.fields, fld.Lawful
  apart : f.fields.Pairwise Field.Apart
  ext : ∀ a b, (∀ fld ∈ f.fields, fld.write a = fld.write b) → a = b

theorem field?_mem {name : String} {fld : Field α} (h : f.field? name = some fld) :
    fld ∈ f.fields ∧ fld.name = name :=
  ⟨List.mem_of_find?_eq_some h, by simpa using List.find?_some h⟩

namespace Lawful

theorem apart_of_ne (hf : f.Lawful) {x y : Field α} (hx : x ∈ f.fields) (hy : y ∈ f.fields)
    (hne : x ≠ y) : x.Apart y :=
  hf.apart.forall hx hy hne

theorem field?_name (hf : f.Lawful) {fld : Field α} (h : fld ∈ f.fields) :
    f.field? fld.name = some fld := by
  cases hfind : f.field? fld.name with
  | none => simpa using List.find?_eq_none.1 hfind fld h
  | some x =>
    obtain ⟨hx, hname⟩ := field?_mem hfind
    by_cases hne : x = fld
    · rw [hne]
    · exact absurd hname (hf.apart_of_ne hx h hne).name

/-- **The members of an object** are read as the record `r` if each is read as a field of `r`, and
    the fields that they do not name are in `a` as in `r` already. -/
theorem readMembers (hf : f.Lawful)
    (hgiven : ∀ m ∈ members, ∀ fld, f.field? m.1 = some fld → fld.Reads m.2 r) {a : α}
    (ha : ∀ fld ∈ f.fields, fld.name ∉ members.map Prod.fst → fld.write a = fld.write r) :
    f.readMembers members a = .ok r := by
  induction members generalizing a with
  | nil =>
    obtain rfl : a = r := hf.ext a r fun fld hfld => ha fld hfld (List.not_mem_nil)
    rfl
  | cons m members ih =>
    obtain ⟨name, value⟩ := m
    have hrest := fun m hm => hgiven m (List.mem_cons_of_mem _ hm)
    rw [RecordFormat.readMembers]
    cases hfield : f.field? name with
    | none =>
      refine ih hrest fun fld hfld hnot => ha fld hfld ?_
      rw [List.map_cons, List.mem_cons, not_or]
      refine ⟨?_, hnot⟩
      rintro rfl
      rw [hf.field?_name hfld] at hfield
      cases hfield
    | some x =>
      obtain ⟨hx, rfl⟩ := field?_mem hfield
      obtain ⟨a', hread, hwrite⟩ := hgiven _ List.mem_cons_self x hfield a
      simp only [hread, Except.bind]
      refine ih hrest fun fld hfld hnot => ?_
      by_cases hne : x = fld
      · rw [← hne, hwrite]
      · have hapart := hf.apart_of_ne hx hfld hne
        rw [hapart.left _ _ _ hread]
        refine ha fld hfld ?_
        rw [List.map_cons, List.mem_cons, not_or]
        exact ⟨hapart.name.symm, hnot⟩

/-- **An object is read** as the record of which it gives some fields and the others are blank. -/
theorem readObject (hf : f.Lawful)
    (hgiven : ∀ m ∈ members, ∀ fld, f.field? m.1 = some fld → fld.Reads m.2 r)
    (hblank : ∀ fld ∈ f.fields, fld.name ∉ members.map Prod.fst →
      f.required = false ∧ fld.write f.blank = fld.write r) :
    f.readObject members = .ok r := by
  rw [RecordFormat.readObject, hf.readMembers hgiven fun fld hfld hnot => (hblank fld hfld hnot).2]
  simp only [Except.bind]
  cases hmissing : f.missing? members with
  | none => rfl
  | some name =>
    have hmem := List.mem_of_find?_eq_some hmissing
    obtain ⟨fld, hfld, rfl⟩ := List.mem_map.1 hmem
    have hnot : fld.name ∉ members.map Prod.fst := by
      intro hgives
      obtain ⟨m, hm, hname⟩ := List.mem_map.1 hgives
      have hnone := List.find?_some hmissing
      simp only [Bool.not_eq_true', List.any_eq_false, beq_iff_eq] at hnone
      exact hnone m hm hname
    simp only [(hblank fld hfld hnot).1, Bool.false_eq_true, if_false]

theorem readObject_members (hf : f.Lawful) (v : α) : f.readObject (f.members v) = .ok v := by
  refine hf.readObject (fun m hm fld hfield => ?_) fun fld hfld hnot => ?_
  · obtain ⟨x, hx, rfl⟩ := List.mem_map.1 hm
    rw [hf.field?_name hx] at hfield
    obtain rfl := Option.some.inj hfield
    exact hf.fields x hx v
  · refine absurd ?_ hnot
    rw [RecordFormat.members, List.map_map]
    exact List.mem_map.2 ⟨fld, hfld, rfl⟩

/-- **The codec of a lawful format is lawful.** -/
theorem codec (hf : f.Lawful) : f.codec.Lawful :=
  hf.readObject_members

end Lawful

end RecordFormat

/-! ## Sum types -/

/-- The codec of a sum type is lawful if the case that is written for a value reads it. -/
theorem SumFormat.lawful_codec {f : SumFormat α}
    (h : ∀ a, ∃ x, f.case? (f.write a).1 = .ok x ∧ x.read (f.write a).2 = .ok a) :
    f.codec.Lawful := by
  intro a
  obtain ⟨x, hcase, hread⟩ := h a
  show (f.case? (f.write a).1).bind (fun x => x.read (f.write a).2) = .ok a
  rw [hcase]
  exact hread

end TraceRelay
