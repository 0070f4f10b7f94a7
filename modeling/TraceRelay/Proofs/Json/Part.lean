/-
  TraceRelay — records that are given in part.

  A JSON value gives some fields of a record, by name or by place.

  * `RecordFormat.entries` are the fields that a value gives, and `RecordFormat.value?` is what it
    gives for one;
  * `RecordFormat.read_arr`: an array is read as the object that gives its items by name;
  * `RecordFormat.read_of_given`: a record is known by the fields that are given and those that are
    not;
  * `RecordFormat.Part`: some of the written fields of a record are given;
  * `RecordFormat.read_of_part` and `RecordFormat.read_of_inner`: what is read for them, if also one
    of the fields may be given in part.
-/
import TraceRelay.Proofs.Json.Field

namespace TraceRelay

namespace RecordFormat

variable {α : Type}

/-! ## The fields that are given -/

/-- The members that a JSON value stands for: the items of an array have the names of the fields,
    in order. -/
def entries (f : RecordFormat α) : Json → List (String × Json)
  | .obj members => members
  | .arr items => (f.fields.map Field.name).zip items
  | _ => []

/-- The value that is given for a field. -/
def value? (f : RecordFormat α) (name : String) (j : Json) : Option Json :=
  (f.entries j).lookup name

/-- Whether a field is given. -/
def gives (f : RecordFormat α) (j : Json) (name : String) : Bool :=
  (f.value? name j).isSome

/-- No field is given twice. -/
def Distinct (f : RecordFormat α) (members : List (String × Json)) : Prop :=
  members.Pairwise fun m m' => (f.field? m.1).isSome = true → m.1 ≠ m'.1

/-- An object that gives no field twice, or an array with no more items than there are fields. -/
def Shaped (f : RecordFormat α) : Json → Prop
  | .obj members => f.Distinct members
  | .arr items => items.length ≤ f.fields.length
  | _ => False

variable {f : RecordFormat α} {members : List (String × Json)} {fld : Field α} {j x : Json}
  {v r : α}

theorem lookup_of_mem (hd : f.Distinct members) {name : String} (hm : (name, x) ∈ members)
    (hf : (f.field? name).isSome = true) : members.lookup name = some x := by
  induction members with
  | nil => cases hm
  | cons head members ih =>
    obtain ⟨hhead, hrest⟩ := List.pairwise_cons.1 hd
    rcases List.mem_cons.1 hm with rfl | hm
    · exact List.lookup_cons_self
    · have hne : name ≠ head.1 := by
        rintro rfl
        exact hhead _ hm hf rfl
      rw [List.lookup_cons, beq_false_of_ne hne]
      exact ih hrest hm

theorem lookup_eq_none {name : String} (h : name ∉ members.map Prod.fst) :
    members.lookup name = none := by
  rw [List.lookup_eq_none_iff]
  intro m hm
  rw [bne_iff_ne]
  rintro rfl
  exact h (List.mem_map.2 ⟨m, hm, rfl⟩)

/-! ### Arrays as objects -/

theorem readObject_of_optional (h : f.required = false) :
    f.readObject members = f.readMembers members f.blank := by
  rw [readObject]
  cases f.readMembers members f.blank with
  | error e => rfl
  | ok a =>
    simp only [Except.bind, h, Bool.false_eq_true, if_false]
    split <;> rfl

theorem readItems_eq (hf : f.Lawful) {fields : List (Field α)} (hsub : fields ⊆ f.fields)
    {items : List Json} (hlen : items.length ≤ fields.length) (a : α) :
    readItems false fields items a = f.readMembers ((fields.map Field.name).zip items) a := by
  induction fields generalizing items a with
  | nil =>
    obtain rfl := List.length_eq_zero_iff.1 (Nat.le_zero.1 hlen)
    rfl
  | cons fld fields ih =>
    obtain ⟨hfld, hsub⟩ := List.cons_subset.1 hsub
    cases items with
    | nil => rfl
    | cons item items =>
      rw [readItems, List.map_cons, List.zip_cons_cons, readMembers, hf.field?_name hfld]
      have hrest : items.length ≤ fields.length := Nat.le_of_succ_le_succ hlen
      exact congrArg _ (funext fun a' => ih hsub hrest a')

/-- **An array is read as the object** that gives its items by name. -/
theorem read_arr (hf : f.Lawful) (hreq : f.required = false) {items : List Json}
    (hlen : items.length ≤ f.fields.length) :
    f.codec.read (.arr items) = f.codec.read (.obj ((f.fields.map Field.name).zip items)) := by
  show readItems f.required f.fields items f.blank = f.readObject _
  rw [hreq, readObject_of_optional hreq, readItems_eq hf (List.Subset.refl _) hlen]

theorem distinct_zip (hf : f.Lawful) {fields : List (Field α)} (hsub : fields.Sublist f.fields)
    (items : List Json) : f.Distinct ((fields.map Field.name).zip items) := by
  have hapart := hf.apart.sublist hsub
  induction hapart generalizing items with
  | nil => exact .nil
  | cons hfld _ ih =>
    cases items with
    | nil => exact .nil
    | cons item items =>
      refine .cons ?_ (ih (List.sublist_of_cons_sublist hsub) items)
      rintro ⟨name, x⟩ hm -
      obtain ⟨fld', hfld', rfl⟩ := List.mem_map.1 (List.of_mem_zip hm).1
      exact (hfld fld' hfld').name

theorem Shaped.distinct (hf : f.Lawful) (hj : f.Shaped j) : f.Distinct (f.entries j) := by
  cases j with
  | obj members => exact hj
  | arr items => exact distinct_zip hf (List.Sublist.refl _) items
  | _ => cases hj

/-- **A record is read** as `r` if all that is given is read as a field of `r`, and the fields that
    are not given are blank in `r`. -/
theorem read_of_given (hf : f.Lawful) (hreq : f.required = false) (hj : f.Shaped j)
    (hgiven : ∀ fld ∈ f.fields, ∀ x, f.value? fld.name j = some x → fld.Reads x r)
    (homitted : ∀ fld ∈ f.fields, f.value? fld.name j = none →
      fld.write f.blank = fld.write r) :
    f.codec.read j = .ok r := by
  have hread : f.codec.read j = f.readObject (f.entries j) := by
    cases j with
    | obj members => rfl
    | arr items => exact read_arr hf hreq hj
    | _ => cases hj
  rw [hread]
  refine hf.readObject (fun m hm fld hfield => ?_) fun fld hfld hnot => ?_
  · obtain ⟨hfld, hname⟩ := field?_mem hfield
    refine hgiven fld hfld m.2 ?_
    rw [hname]
    exact lookup_of_mem (hj.distinct hf) hm (by rw [hfield]; rfl)
  · exact ⟨hreq, homitted fld hfld (lookup_eq_none hnot)⟩

/-! ## Parts of a record -/

/-- `j` gives fields of a record, and each in one of its spellings. -/
structure Spells (f : RecordFormat α) (spelling : Field α → Json → Prop) (j : Json) : Prop where
  shaped : f.Shaped j
  spelling : ∀ fld ∈ f.fields, ∀ x, f.value? fld.name j = some x → spelling fld x

/-- `j` is made of some of the written fields of `v`. -/
def Part (f : RecordFormat α) (j : Json) (v : α) : Prop :=
  f.Spells (fun fld x => x = fld.write v) j

/-- The field is in `r` as in `v` if it is given, and blank otherwise. -/
def Keeps (f : RecordFormat α) (j : Json) (v r : α) (fld : Field α) : Prop :=
  fld.write r = if f.gives j fld.name then fld.write v else fld.write f.blank

theorem Keeps.reads (h : f.Keeps j v r fld) (hfld : fld.Lawful)
    (hx : f.value? fld.name j = some x) : fld.Reads (fld.write v) r := by
  have hr : fld.write r = fld.write v := by
    rw [h, gives, hx]
    rfl
  exact hr ▸ hfld r

theorem Keeps.blank (h : f.Keeps j v r fld) (hnone : f.value? fld.name j = none) :
    fld.write f.blank = fld.write r := by
  rw [h, gives, hnone]
  rfl

theorem read_of_part (hf : f.Lawful) (hreq : f.required = false) (hj : f.Part j v)
    (hr : ∀ fld ∈ f.fields, f.Keeps j v r fld) : f.codec.read j = .ok r := by
  refine read_of_given hf hreq hj.shaped (fun fld hfld x hx => ?_) fun fld hfld hnone => ?_
  · rw [hj.spelling fld hfld x hx]
    exact (hr fld hfld).reads (hf.fields fld hfld) hx
  · exact (hr fld hfld).blank hnone

/-- **One of the fields may be given in part** in turn. -/
theorem read_of_inner (hf : f.Lawful) (hreq : f.required = false) {inner : Field α}
    (hinner : inner ∈ f.fields) {spelling : Json → Prop}
    (hj : f.Spells (fun fld x => if fld.name = inner.name then spelling x else x = fld.write v) j)
    (hgiven : ∀ x, f.value? inner.name j = some x → spelling x → inner.Reads x r)
    (homitted : f.value? inner.name j = none → inner.write f.blank = inner.write r)
    (hr : ∀ fld ∈ f.fields, fld.name ≠ inner.name → f.Keeps j v r fld) :
    f.codec.read j = .ok r := by
  have heq : ∀ fld ∈ f.fields, fld.name = inner.name → fld = inner := by
    intro fld hfld hname
    have hfind := hf.field?_name hfld
    rw [hname, hf.field?_name hinner] at hfind
    exact (Option.some.inj hfind).symm
  refine read_of_given hf hreq hj.shaped (fun fld hfld x hx => ?_) fun fld hfld hnone => ?_
  · have hspelling := hj.spelling fld hfld x hx
    by_cases hname : fld.name = inner.name
    · rw [if_pos hname] at hspelling
      obtain rfl := heq fld hfld hname
      exact hgiven x hx hspelling
    · rw [if_neg hname] at hspelling
      rw [hspelling]
      exact (hr fld hfld hname).reads (hf.fields fld hfld) hx
  · by_cases hname : fld.name = inner.name
    · obtain rfl := heq fld hfld hname
      exact homitted hnone
    · exact (hr fld hfld hname).blank hnone

end RecordFormat

end TraceRelay
