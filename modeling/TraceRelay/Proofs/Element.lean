/-
  TraceRelay — the records of elements.

  An element becomes an event, and the event a record.  Both steps leave fields out, by the kind of
  the element and by the branch that ends a block.

  * `Element.code?` is the table of codes;
  * `Context.toInt_cpu`: the core is the context's number, or -1;
  * `Element.eventKind?_cases` lists the elements that have an event;
  * `Element.Recorded`: the record of an element, field by field;
  * `Element.Agree`: two elements agree on the fields that say something.  `Element.event?_congr`:
    they have the same event;
  * `Element.recorded_of_event?`: what the record of an element says.
-/
import TraceRelay.Element

namespace TraceRelay

/-! ## Blocks -/

/-- The code of a block, by the branch that ends it. -/
def LastInstr.code : LastInstr → UInt8
  | .indirectBranch => 2
  | .branch => 1
  | _ => 0

theorem LastInstr.blockKind_spec (i : LastInstr) (start stop : UInt64) :
    (i.blockKind start stop).code = i.code ∧ (i.blockKind start stop).start = start ∧
      (i.blockKind start stop).stop? = some stop ∧
      (i.blockKind start stop).exception? = none ∧
      (i.blockKind start stop).isBlock = true := by
  cases i <;> exact ⟨rfl, rfl, rfl, rfl, rfl⟩

/-! ## Cores -/

namespace Context

variable {c c' : Context}

/-- A number from 2^31 on does not show as a negative core. -/
theorem toInt_cpu (c : Context) : c.cpu.toInt =
    if c.idValid = true ∧ c.id.toNat < 0x80000000 then (c.id.toNat : Int) else -1 := by
  unfold cpu
  split
  · rename_i h
    exact Int32.toInt_ofNat_of_lt h.2
  · rfl

theorem cpu_congr (hv : c'.idValid = c.idValid) (hi : c.idValid = true → c'.id = c.id) :
    c'.cpu = c.cpu := by
  unfold cpu
  rw [hv]
  cases h : c.idValid with
  | false => simp
  | true => rw [hi h]

end Context

namespace Element

variable {x y : Element}

/-! ## Kinds -/

/-- The code of an element's record, if it has an event. -/
def code? (x : Element) : Option UInt8 :=
  match x.kind with
  | .instrRange => some x.lastInstr.code
  | .traceOn => some 3
  | .traceOff => some 4
  | .exception => some 5
  | .exceptionReturn => some 6
  | _ => none

/-- **The elements that have an event.** -/
theorem eventKind?_cases (x : Element) :
    (x.kind ∉ [.instrRange, .traceOn, .traceOff, .exception, .exceptionReturn] ∧
      x.eventKind? = none) ∨
    (x.kind = .instrRange ∧ x.eventKind? = some (x.lastInstr.blockKind x.start x.stop)) ∨
    (x.kind = .traceOn ∧ x.eventKind? = some (.traceOn x.start)) ∨
    (x.kind = .traceOff ∧ x.eventKind? = some (.traceOff x.start)) ∨
    (x.kind = .exception ∧ x.eventKind? = some (.exception x.start x.exception)) ∨
    (x.kind = .exceptionReturn ∧ x.eventKind? = some (.exceptionReturn x.start)) := by
  cases hk : x.kind <;> simp [eventKind?, hk]

theorem isSome_event?_iff : x.event?.isSome = true ↔
    x.kind ∈ [.instrRange, .traceOn, .traceOff, .exception, .exceptionReturn] := by
  rw [event?, Option.isSome_map]
  rcases x.eventKind?_cases with ⟨hk, hx⟩ | ⟨hk, hx⟩ | ⟨hk, hx⟩ | ⟨hk, hx⟩ | ⟨hk, hx⟩ | ⟨hk, hx⟩ <;>
    simp [hx, hk]

/-! ## Records -/

/-- `r` is the record of the element `x`. -/
structure Recorded (x : Element) (r : EventRecord) : Prop where
  code : x.code? = some r.code
  start : r.start = x.start
  timestamp : r.timestamp = x.timestamp
  /-- Only blocks have an end. -/
  stop : r.stop = if x.kind = .instrRange then x.stop else 0
  /-- A number left over in another element is not passed on. -/
  exception : r.exception = if x.kind = .exception then x.exception else 0
  /-- Only blocks have a core. -/
  cpu : r.cpu.toInt =
    if x.kind = .instrRange ∧ x.context.idValid = true ∧ x.context.id.toNat < 0x80000000 then
      (x.context.id.toNat : Int)
    else -1

theorem recorded_toRecord {e : Event} (h : x.event? = some e) : x.Recorded e.toRecord := by
  obtain ⟨kind, hkind, rfl⟩ := Option.map_eq_some_iff.1 h
  rcases x.eventKind?_cases with ⟨hk, hx⟩ | ⟨hk, hx⟩ | ⟨hk, hx⟩ | ⟨hk, hx⟩ | ⟨hk, hx⟩ | ⟨hk, hx⟩ <;>
    rw [hx] at hkind <;> cases hkind
  · obtain ⟨hcode, hstart, hstop, hexception, hblock⟩ :=
      x.lastInstr.blockKind_spec x.start x.stop
    exact
      { code := by simp [code?, hk, Event.toRecord, hcode]
        start := hstart
        timestamp := rfl
        stop := by simp [Event.toRecord, hstop, hk]
        exception := by simp [Event.toRecord, hexception, hk]
        cpu := by simp [Event.toRecord, hblock, hk, Context.toInt_cpu] }
  all_goals
    exact
      { code := by rw [code?, hk]; rfl
        start := rfl
        timestamp := rfl
        stop := by rw [hk]; rfl
        exception := by rw [hk]; rfl
        cpu := by rw [hk]; rfl }

theorem Recorded.neg_one_le_cpu {r : EventRecord} (h : x.Recorded r) : -1 ≤ r.cpu.toInt := by
  rw [h.cpu]
  split <;> omega

/-! ## Fields that say nothing -/

/-- `y` agrees with `x` on the fields that `x` uses: all elements have a start and a time, and no
    others than blocks have an end, a branch and a core. -/
structure Agree (x y : Element) : Prop where
  kind : y.kind = x.kind
  start : y.start = x.start
  timestamp : y.timestamp = x.timestamp
  stop : x.kind = .instrRange → y.stop = x.stop
  lastInstr : x.kind = .instrRange → y.lastInstr = x.lastInstr
  idValid : x.kind = .instrRange → y.context.idValid = x.context.idValid
  id : x.kind = .instrRange → x.context.idValid = true → y.context.id = x.context.id
  exception : x.kind = .exception → y.exception = x.exception

theorem eventKind?_congr (h : x.Agree y) : y.eventKind? = x.eventKind? := by
  unfold eventKind?
  rw [h.kind, h.start]
  cases hk : x.kind with
  | instrRange => rw [h.stop hk, h.lastInstr hk]
  | exception => rw [h.exception hk]
  | _ => rfl

/-- **The event depends on no other field.** -/
theorem event?_congr (h : x.Agree y) : y.event? = x.event? := by
  rw [event?, event?, eventKind?_congr h, h.timestamp]
  rcases x.eventKind?_cases with ⟨hk, hx⟩ | ⟨hk, hx⟩ | ⟨hk, hx⟩ | ⟨hk, hx⟩ | ⟨hk, hx⟩ | ⟨hk, hx⟩ <;>
    rw [hx]
  · rfl
  · rw [Context.cpu_congr (h.idValid hk) (h.id hk)]
  all_goals rfl

/-- **What the record of an element says.**  Five kinds of element have an event.  Its record has
    the code of the table, the element's start and time, the end and the core of a block, and the
    number of an exception; a core is never below -1, and a context's number from 2^31 on names
    none.  The other fields of the element have no part in it. -/
theorem recorded_of_event? (x : Element) :
    (x.event?.isSome = true ↔
      x.kind ∈ [.instrRange, .traceOn, .traceOff, .exception, .exceptionReturn]) ∧
    (∀ e, x.event? = some e → x.Recorded e.toRecord ∧ -1 ≤ e.toRecord.cpu.toInt ∧
      (0x80000000 ≤ x.context.id.toNat → e.toRecord.cpu.toInt = -1)) ∧
    ∀ y, x.Agree y → y.event? = x.event? := by
  refine ⟨isSome_event?_iff, ?_, fun y => event?_congr⟩
  intro e he
  have hr := recorded_toRecord he
  refine ⟨hr, hr.neg_one_le_cpu, ?_⟩
  intro hlarge
  rw [hr.cpu, if_neg]
  rintro ⟨-, -, hlt⟩
  omega

/-- A block with a context's number that is too large, and with an exception's number, which says
    nothing. -/
theorem recorded_of_event?_return :
    let x : Element :=
      { kind := .instrRange, start := 16, stop := 20, lastInstr := .indirectBranch,
        context := { id := 0x80000000, idValid := true }, exception := 7 }
    ∃ e, x.event? = some e ∧ e.toRecord.code = 2 ∧ e.toRecord.stop = 20 ∧
      e.toRecord.exception = 0 ∧ e.toRecord.cpu.toInt = -1 ∧
      Element.event? { x with exception := 8 } = some e := by
  intro x
  obtain ⟨hsome, hall, hcongr⟩ := recorded_of_event? x
  obtain ⟨e, he⟩ := Option.isSome_iff_exists.1 (hsome.2 (by decide))
  obtain ⟨hr, -, hcpu⟩ := hall e he
  have hagree : x.Agree { x with exception := 8 } :=
    ⟨rfl, rfl, rfl, fun _ => rfl, fun _ => rfl, fun _ => rfl, fun _ _ => rfl, nofun⟩
  exact ⟨e, he, (Option.some.inj hr.code).symm, hr.stop, hr.exception, hcpu (by decide),
    (hcongr _ hagree).trans he⟩

end Element

end TraceRelay
