/-
  TraceRelay — one value that cannot be read.

  Reading is all or nothing: a part that cannot be read makes the read of the whole fail.

  * `Codec.Refuses.list`: a list of which an item cannot be read;
  * `RecordFormat.refuses_obj` and `RecordFormat.refuses_arr`: a record of which the value of a
    field cannot be read, be it given by name or by place;
  * `RecordFormat.refuses_long`: an array with more items than there are fields;
  * `Codec.Flawed`: at some depth there is a part that cannot be read.
-/
import TraceRelay.Json.Record

namespace TraceRelay

variable {α β ε : Type}

/-- A value that a codec does not read. -/
def Codec.Refuses (c : Codec α) (j : Json) : Prop :=
  ∃ e, c.read j = .error e

/-- A value that a field is not set to, whatever the other fields are. -/
def Field.Refuses (fld : Field α) (j : Json) : Prop :=
  ∀ a, ∃ e, fld.read j a = .error e

theorem Field.refuses_of {c : Codec β} {j : Json} (h : c.Refuses j) (name : String) (get : α → β)
    (set : β → α → α) : (Field.of name c get set).Refuses j := by
  obtain ⟨e, he⟩ := h
  intro a
  exact ⟨e, by simp only [Field.of, he]; rfl⟩

/-! ## Lists -/

theorem mapM_eq_error {f : α → Except ε β} {a : α} {as : List α} {e : ε} (ha : a ∈ as)
    (hf : f a = .error e) : ∃ e, as.mapM f = .error e := by
  induction as with
  | nil => cases ha
  | cons b as ih =>
    rw [List.mapM_cons]
    cases hb : f b with
    | error e' => exact ⟨e', rfl⟩
    | ok y =>
      rcases List.mem_cons.1 ha with rfl | ha
      · rw [hf] at hb; cases hb
      · obtain ⟨e', he⟩ := ih ha
        exact ⟨e', by rw [he]; rfl⟩

theorem Codec.Refuses.list {c : Codec α} {item : Json} {items : List Json} (h : c.Refuses item)
    (hi : item ∈ items) : (Codec.list c).Refuses (.arr items) := by
  obtain ⟨e, he⟩ := h
  exact mapM_eq_error hi he

/-! ## Records -/

namespace RecordFormat

variable {f : RecordFormat α} {fld : Field α} {value : Json}

theorem readMembers_eq_error {name : String} {members : List (String × Json)}
    (hm : (name, value) ∈ members) (hf : f.field? name = some fld) (h : fld.Refuses value) (a : α) :
    ∃ e, f.readMembers members a = .error e := by
  induction members generalizing a with
  | nil => cases hm
  | cons m members ih =>
    obtain ⟨name', value'⟩ := m
    rw [readMembers]
    rcases List.mem_cons.1 hm with heq | hm
    · cases heq
      obtain ⟨e, he⟩ := h a
      exact ⟨e, by simp only [hf, he]; rfl⟩
    · cases f.field? name' with
      | none => exact ih hm a
      | some fld' =>
        cases hr : fld'.read value' a with
        | error e => exact ⟨e, by simp only [hr]; rfl⟩
        | ok a' =>
          simp only [hr]
          exact ih hm a'

theorem readItems_eq_error {required : Bool} {i : Nat} {fields : List (Field α)}
    {items : List Json} (hi : items[i]? = some value) (hf : fields[i]? = some fld)
    (h : fld.Refuses value) (a : α) : ∃ e, readItems required fields items a = .error e := by
  induction fields generalizing items i a with
  | nil => cases hf
  | cons fld' fields ih =>
    cases items with
    | nil => cases hi
    | cons item items =>
      rw [readItems]
      cases i with
      | zero =>
        obtain rfl := Option.some.inj hi
        obtain rfl := Option.some.inj hf
        obtain ⟨e, he⟩ := h a
        exact ⟨e, by rw [he]; rfl⟩
      | succ i =>
        rw [List.getElem?_cons_succ] at hi hf
        cases fld'.read item a with
        | error e => exact ⟨e, rfl⟩
        | ok a' => exact ih hi hf a'

/-- A member with the name of a field. -/
theorem refuses_obj {name : String} {members : List (String × Json)}
    (hm : (name, value) ∈ members) (hf : f.field? name = some fld) (h : fld.Refuses value) :
    f.codec.Refuses (.obj members) := by
  obtain ⟨e, he⟩ := readMembers_eq_error hm hf h f.blank
  exact ⟨e, by simp only [codec, readObject, he]; rfl⟩

/-- An item at the place of a field. -/
theorem refuses_arr {i : Nat} {items : List Json} (hi : items[i]? = some value)
    (hf : f.fields[i]? = some fld) (h : fld.Refuses value) : f.codec.Refuses (.arr items) :=
  readItems_eq_error hi hf h f.blank

theorem readItems_of_long {required : Bool} {fields : List (Field α)} {items : List Json}
    (h : fields.length < items.length) (a : α) :
    ∃ e, readItems required fields items a = .error e := by
  induction fields generalizing items a with
  | nil =>
    cases items with
    | nil => cases h
    | cons item items => exact ⟨_, rfl⟩
  | cons fld fields ih =>
    cases items with
    | nil => cases h
    | cons item items =>
      rw [readItems]
      cases fld.read item a with
      | error e => exact ⟨e, rfl⟩
      | ok a' => exact ih (Nat.lt_of_succ_lt_succ h) a'

/-- More items than fields. -/
theorem refuses_long {items : List Json} (h : f.fields.length < items.length) :
    f.codec.Refuses (.arr items) :=
  readItems_of_long h f.blank

end RecordFormat

/-! ## Any depth -/

namespace Codec

/-- Some part of a value is one that its codec does not read: the value itself, a flawed item of a
    list, or what is given for a field of a record, by name or by place, and flawed. -/
inductive Flawed : {γ : Type} → Codec γ → Json → Prop
  | here {γ : Type} {c : Codec γ} {j : Json} (h : c.Refuses j) : Flawed c j
  | item {γ : Type} {c : Codec γ} {items : List Json} {x : Json} (hx : x ∈ items)
      (h : Flawed c x) : Flawed (.list c) (.arr items)
  | member {γ δ : Type} {f : RecordFormat γ} {c : Codec δ} {name : String} {get : γ → δ}
      {set : δ → γ → γ} {members : List (String × Json)} {x : Json} (hx : (name, x) ∈ members)
      (hf : f.field? name = some (.of name c get set)) (h : Flawed c x) :
      Flawed f.codec (.obj members)
  | place {γ δ : Type} {f : RecordFormat γ} {c : Codec δ} {i : Nat} {name : String}
      {get : γ → δ} {set : δ → γ → γ} {items : List Json} {x : Json} (hx : items[i]? = some x)
      (hf : f.fields[i]? = some (.of name c get set)) (h : Flawed c x) :
      Flawed f.codec (.arr items)

/-- **A value with a flaw at any depth is not read.** -/
theorem Flawed.refuses {c : Codec α} {j : Json} (h : c.Flawed j) : c.Refuses j := by
  induction h with
  | here h => exact h
  | item hx _ ih => exact ih.list hx
  | member hx hf _ ih => exact RecordFormat.refuses_obj hx hf (Field.refuses_of ih _ _ _)
  | place hx hf _ ih => exact RecordFormat.refuses_arr hx hf (Field.refuses_of ih _ _ _)

end Codec

end TraceRelay
