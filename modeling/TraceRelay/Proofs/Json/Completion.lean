/-
  TraceRelay — what a record given in part is read as.

  A host may leave out what it does not know: a field of a reply, of an element in the reply's list
  or of the context in an element.  The defaults of the type stand in for what is left out, and for
  nothing else.

  * `Context.completed`, `Element.completed`, `Config.completed` and `HostReply.completed`: a value
    with defaults for the fields that are not given;
  * `Element.Part` and `HostReply.Part`: parts of a value, with parts of values in them;
  * `RecordFormat.Completes`: parts are completed, in objects and arrays alike, and a value with a
    flaw is not read;
  * `formats_complete`: so it is for the formats that can be given in part.
-/
import TraceRelay.Proofs.Json.Part
import TraceRelay.Proofs.Json.Record
import TraceRelay.Proofs.Json.RoundTrip

namespace TraceRelay

variable {j : Json}

/-! ## Contexts and configurations -/

/-- The context with defaults for the fields that `j` does not give. -/
def Context.completed (v : Context) (j : Json) : Context :=
  let given := Context.format.gives j
  { id := if given "ctxt_id" then v.id else 0
    idValid := if given "ctxt_id_valid" then v.idValid else false
    vmid := if given "vmid" then v.vmid else 0
    vmidValid := if given "vmid_valid" then v.vmidValid else false
    bits64 := if given "bits64" then v.bits64 else false }

theorem Context.read_of_part {v : Context} (h : Context.format.Part j v) :
    Context.format.codec.read j = .ok (v.completed j) := by
  refine RecordFormat.read_of_part lawful_format rfl h ?_
  simp only [RecordFormat.Keeps, completed]
  generalize Context.format.gives j = given
  simp [Context.format, Field.of, ← Codec.write_ite]

/-- The configuration with defaults for the fields that `j` does not give. -/
def Config.completed (v : Config) (j : Json) : Config :=
  let given := Config.format.gives j
  { protocol := if given "protocol" then v.protocol else 0
    traceId := if given "trace_id" then v.traceId else 0
    arch := if given "arch" then v.arch else .etmV4
    capacity := if given "queue_capacity" then v.capacity else 256
    limit := if given "queue_limit" then v.limit else none }

theorem Config.read_of_part {v : Config} (h : Config.format.Part j v) :
    Config.format.codec.read j = .ok (v.completed j) := by
  refine RecordFormat.read_of_part lawful_format rfl h ?_
  simp only [RecordFormat.Keeps, completed]
  generalize Config.format.gives j = given
  simp [Config.format, Field.of, ← Codec.write_ite, defaultCapacity]

/-! ## Elements and replies -/

namespace Element

/-- `j` is made of some of the written fields of `v`; of the context, a part is enough. -/
def Part (j : Json) (v : Element) : Prop :=
  format.Spells
    (fun fld x => if fld.name = "context" then Context.format.Part x v.context else x = fld.write v)
    j

/-- The element with defaults for the fields that `j` does not give, also in its context. -/
def completed (v : Element) (j : Json) : Element :=
  let given := format.gives j
  { kind := if given "elem_type" then v.kind else .unknown
    start := if given "st_addr" then v.start else 0
    stop := if given "en_addr" then v.stop else 0
    lastInstr := if given "last_instr_type" then v.lastInstr else .other
    timestamp := if given "timestamp" then v.timestamp else 0
    context :=
      match format.value? "context" j with
      | some x => v.context.completed x
      | none => ⟨0, false, 0, false, false⟩
    exception := if given "exception_number" then v.exception else 0 }

theorem read_of_part {v : Element} (h : Part j v) : format.codec.read j = .ok (v.completed j) := by
  have hcontext : .of "context" Context.format.codec Element.context
      (fun b a => { a with context := b }) ∈ format.fields := by
    simp [format]
  refine RecordFormat.read_of_inner lawful_format rfl hcontext h ?_ ?_ ?_
  · intro x hx hpart
    refine Field.reads_of (fun _ _ => rfl) ?_
    have hx : format.value? "context" j = some x := hx
    simp only [completed, hx]
    exact Context.read_of_part hpart
  · intro hnone
    have hnone : format.value? "context" j = none := hnone
    simp only [Field.of, completed, hnone]
    rfl
  · simp only [RecordFormat.Keeps, completed]
    generalize format.gives j = given
    simp [format, Field.of, ← Codec.write_ite]

theorem read_of_parts {vs : List Element} {items : List Json} (h : List.Forall₂ Part items vs) :
    (Codec.list format.codec).read (.arr items) = .ok (List.zipWith completed vs items) := by
  refine Codec.mapM_eq_ok ?_
  induction h with
  | nil => exact .nil
  | cons hpart _ ih => exact .cons (read_of_part hpart) ih

end Element

namespace HostReply

/-- `j` is made of some of the written fields of `v`; of each element, a part is enough. -/
def Part (j : Json) (v : HostReply) : Prop :=
  format.Spells
    (fun fld x =>
      if fld.name = "elements" then
        ∃ items, x = .arr items ∧ List.Forall₂ Element.Part items v.elements
      else x = fld.write v)
    j

/-- The reply with defaults for the fields that `j` does not give, also in its elements. -/
def completed (v : HostReply) (j : Json) : HostReply :=
  let given := format.gives j
  { status := if given "status" then v.status else 0
    consumed := if given "consumed" then v.consumed else 0
    elements :=
      match format.value? "elements" j with
      | some (.arr items) => List.zipWith Element.completed v.elements items
      | _ => [] }

theorem read_of_part {v : HostReply} (h : Part j v) :
    format.codec.read j = .ok (v.completed j) := by
  have helements : .of "elements" (.list Element.format.codec) HostReply.elements
      (fun b a => { a with elements := b }) ∈ format.fields := by
    simp [format]
  refine RecordFormat.read_of_inner lawful_format rfl helements h ?_ ?_ ?_
  · rintro x hx ⟨items, rfl, hparts⟩
    refine Field.reads_of (fun _ _ => rfl) ?_
    have hx : format.value? "elements" j = some (.arr items) := hx
    simp only [completed, hx]
    exact Element.read_of_parts hparts
  · intro hnone
    have hnone : format.value? "elements" j = none := hnone
    simp only [Field.of, completed, hnone]
    rfl
  · simp only [RecordFormat.Keeps, completed]
    generalize format.gives j = given
    simp [format, Field.of, ← Codec.write_ite]

end HostReply

/-! ## The law -/

/-- A part of a value is read as the value with defaults, and nothing else has a default. -/
structure RecordFormat.Completes {α : Type} (f : RecordFormat α) (Part : Json → α → Prop)
    (completed : α → Json → α) : Prop where
  read_part : ∀ j v, Part j v → f.codec.read j = .ok (completed v j)
  /-- The first items of an array are those fields of an object. -/
  read_arr : ∀ items, items.length ≤ f.fields.length →
    f.codec.read (.arr items) = f.codec.read (.obj ((f.fields.map Field.name).zip items))
  refuses_long : ∀ items, f.fields.length < items.length → ∃ e, f.codec.read (.arr items) = .error e
  refuses_flawed : ∀ j, f.codec.Flawed j → ∃ e, f.codec.read j = .error e

theorem RecordFormat.Lawful.completes {α : Type} {f : RecordFormat α} {Part : Json → α → Prop}
    {completed : α → Json → α} (hf : f.Lawful) (hreq : f.required = false)
    (h : ∀ j v, Part j v → f.codec.read j = .ok (completed v j)) : f.Completes Part completed where
  read_part := h
  read_arr _ := RecordFormat.read_arr hf hreq
  refuses_long _ := RecordFormat.refuses_long
  refuses_flawed _ := Codec.Flawed.refuses

/-- **Records that are given in part are completed by defaults**, and by nothing else.  The fields
    may come in any order and with others among them, or as the first items of an array; a part of
    an element's context and parts of a reply's elements are completed in the same way.  An array
    with too many items is not read, nor is a record if what it gives for a field, or any part of
    that, cannot be read. -/
theorem formats_complete :
    Context.format.Completes Context.format.Part Context.completed ∧
    Element.format.Completes Element.Part Element.completed ∧
    Config.format.Completes Config.format.Part Config.completed ∧
    HostReply.format.Completes HostReply.Part HostReply.completed :=
  ⟨Context.lawful_format.completes rfl fun _ _ => Context.read_of_part,
    Element.lawful_format.completes rfl fun _ _ => Element.read_of_part,
    Config.lawful_format.completes rfl fun _ _ => Config.read_of_part,
    HostReply.lawful_format.completes rfl fun _ _ => HostReply.read_of_part⟩

/-- An element of which the kind and the start of a context are given, and a context whose number
    is a text. -/
theorem formats_complete_nested :
    let element : Json :=
      .obj [("context", .arr [.int 7, .bool true]), ("note", .null),
        ("elem_type", .str "InstrRange")]
    let v : Element :=
      { kind := .instrRange, start := 4096, context := { id := 7, idValid := true, vmid := 3 } }
    let reply : Json := .obj [("elements", .arr [element]), ("note", .null), ("status", .int 8)]
    HostReply.Part reply { status := 8, consumed := 32, elements := [v] } ∧
    HostReply.format.codec.read reply = .ok
      { status := 8
        elements := [{ kind := .instrRange, context := { id := 7, idValid := true } }] } ∧
    ∃ e, HostReply.format.codec.read
      (.obj [("elements", .arr [.obj [("context", .arr [.str "7"])]])]) = .error e := by
  intro element v reply
  have hcontext : Context.format.Part (.arr [.int 7, .bool true]) v.context := by
    refine ⟨Nat.le_of_ble_eq_true rfl, fun fld hfld x hx => ?_⟩
    simp only [Context.format, List.mem_cons, List.not_mem_nil, or_false] at hfld
    rcases hfld with rfl | rfl | rfl | rfl | rfl <;> cases hx <;> rfl
  have helement : Element.Part element v := by
    refine ⟨by show List.Pairwise _ _; decide, fun fld hfld x hx => ?_⟩
    simp only [Element.format, List.mem_cons, List.not_mem_nil, or_false] at hfld
    rcases hfld with rfl | rfl | rfl | rfl | rfl | rfl | rfl <;> cases hx
    · rfl
    · exact hcontext
  have hreply : HostReply.Part reply { status := 8, consumed := 32, elements := [v] } := by
    refine ⟨by show List.Pairwise _ _; decide, fun fld hfld x hx => ?_⟩
    simp only [HostReply.format, List.mem_cons, List.not_mem_nil, or_false] at hfld
    rcases hfld with rfl | rfl | rfl <;> cases hx
    · rfl
    · exact ⟨_, rfl, .cons helement .nil⟩
  obtain ⟨-, -, -, hcompletes⟩ := formats_complete
  refine ⟨hreply, hcompletes.read_part _ _ hreply, hcompletes.refuses_flawed _ ?_⟩
  have hnumber : Codec.word32.Flawed (.str "7") := .here ⟨.invalid, rfl⟩
  have hflawed : Context.format.codec.Flawed (.arr [.str "7"]) := .place (i := 0) rfl rfl hnumber
  exact .member List.mem_cons_self rfl
    (.item List.mem_cons_self (.member List.mem_cons_self rfl hflawed))

end TraceRelay
