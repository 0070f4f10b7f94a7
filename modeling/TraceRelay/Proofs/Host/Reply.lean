/-
  TraceRelay — what a host's reply does.

  A feed or a flush asks the host once.  Its reply is read as a whole, its elements are reported
  one after the other, and then its status is settled.

  * `Status.ofHostCode_spec` and `disposition_ofHostCode_iff`: what a host's code stands for;
  * `DecodeHost.ReadsItems` is what is relied on when a single element cannot be read: the host's
    reader of replies skips none;
  * `HostEngine.taken` are the outcome and the events of a reply, and `welcomed_eq` says that
    these are what a data operation yields;
  * `Leaves` is what a call leaves to a decoder.  `leaves_of_taken`: what is taken from the reply
    settles it.  `leaves_of_unreadable`: from a reply that cannot be read nothing is;
  * `effect_of_reply`: so it is for every call on every decoder.
-/
import TraceRelay.Proofs.Host.Outbox
import TraceRelay.Proofs.Json.Record
import TraceRelay.Proofs.Session.Phase
import TraceRelay.Proofs.Session.Schedule

namespace TraceRelay

/-! ## Codes -/

namespace Status

/-- A host's code is that of a status, or is above all codes and stands for a failure. -/
theorem ofHostCode_spec (n : UInt32) :
    (ofHostCode n).code = n ∨ (13 < n ∧ ofHostCode n = .fail) := by
  have hcodes : ∀ m < 14, (ofHostCode (.ofNat m)).code = .ofNat m := by decide
  by_cases hn : n.toNat < 14
  · have hc := hcodes n.toNat hn
    rw [UInt32.ofNat_toNat] at hc
    exact Or.inl hc
  · refine Or.inr ⟨UInt32.lt_iff_toNat_lt.2 (Nat.not_lt.1 hn), ?_⟩
    have hnone : ofCode? n = none := List.getElem?_eq_none (Nat.not_lt.1 hn)
    rw [ofHostCode, hnone]
    rfl

/-- All codes are fatal but three. -/
theorem disposition_ofHostCode_iff (n : UInt32) :
    (ofHostCode n).disposition = .fatal ↔ n ∉ [0, 8, 13] := by
  have hcodes : ∀ s : Status, s.disposition = .fatal ↔ s.code ∉ [0, 8, 13] := by
    intro s
    cases s <;> decide
  rcases ofHostCode_spec n with hn | ⟨hn, hfail⟩
  · rw [hcodes, hn]
  · refine iff_of_true (by rw [hfail]; rfl) fun hmem => ?_
    simp only [List.mem_cons, List.not_mem_nil, or_false] at hmem
    rcases hmem with rfl | rfl | rfl <;> revert hn <;> decide

end Status

/-! ## Elements -/

/-- The elements of a reply, to a sink that never stops the engine. -/
theorem deliver_replayElements (index : UInt64) (traceId : UInt8) (outcome : Outcome)
    (elements : List Element) (es : List Event) :
    (replayElements index traceId outcome elements).deliver Collector.welcome es =
      (outcome, es ++ elements.filterMap Element.event?) := by
  induction elements generalizing es with
  | nil => simp [replayElements]
  | cons x elements ih =>
    rw [replayElements, Reporting.deliver_report, Collector.welcome, ih]
    cases hx : x.event? <;> simp [hx]

/-- How a host's reader treats the elements of a reply: `items` are the items of the list of
    elements that a value has, and `element` reads one of them.  A value is read as a reply only if
    each of its items is read as an element. -/
structure DecodeHost.ReadsItems (η : Type) [DecodeHost η]
    (items : DecodeHost.Raw η → List (DecodeHost.Raw η))
    (element : DecodeHost.Raw η → Except String Element) : Prop where
  item : ∀ {raw reply item}, DecodeHost.readReply raw = .ok reply → item ∈ items raw →
    ∃ x, element item = .ok x

/-- **A reply with an element that cannot be read is not read.** -/
theorem DecodeHost.ReadsItems.refuses {η : Type} [DecodeHost η]
    {items : DecodeHost.Raw η → List (DecodeHost.Raw η)}
    {element : DecodeHost.Raw η → Except String Element} (h : ReadsItems η items element)
    {raw item : DecodeHost.Raw η} (hmem : item ∈ items raw) {error : String}
    (hi : element item = .error error) : ∃ error, DecodeHost.readReply raw = .error error := by
  cases hread : DecodeHost.readReply raw with
  | error e => exact ⟨e, rfl⟩
  | ok reply =>
    obtain ⟨x, hx⟩ := h.item hread hmem
    rw [hi] at hx
    cases hx

/-! ## Replies -/

namespace HostEngine

/-- The outcome and the events of a reply.  One that cannot be read is a failure without
    events. -/
def taken {η : Type} [DecodeHost η] (raw : DecodeHost.Raw η) : Outcome × List Event :=
  match DecodeHost.readReply raw with
  | .ok reply =>
    (⟨.ofHostCode reply.status, reply.consumed⟩, reply.elements.filterMap Element.event?)
  | .error _ => (⟨.fail, 0⟩, [])

end HostEngine

namespace Session

variable {η : Type} [DecodeHost η] {mem : Allocator} {s : Session (HostEngine η)} {dop : DataOp}
  {index : UInt64} {data : ByteArray}

/-- What the host replies to the request of a data operation, and the host after it. -/
def asked (s : Session (HostEngine η)) (dop : DataOp) (index : UInt64) (data : ByteArray) :
    DecodeHost.Raw η × η :=
  DecodeHost.processData (dop = .flush) index data s.engine.host

theorem welcomed_eq (s : Session (HostEngine η)) (dop : DataOp) (index : UInt64)
    (data : ByteArray) :
    ∃ log, s.welcomed dop index data =
      (⟨(HostEngine.taken (s.asked dop index data).1).1,
        { s.engine with host := (s.asked dop index data).2 }, log⟩,
        (HostEngine.taken (s.asked dop index data).1).2) := by
  unfold welcomed HostEngine.taken asked
  simp only [DecodeEngine.process]
  cases DecodeHost.readReply
      (DecodeHost.processData (decide (dop = .flush)) index data s.engine.host).1 with
  | error e => exact ⟨_, rfl⟩
  | ok reply =>
    refine ⟨#[], ?_⟩
    simp only [Reporting.deliver_map, HostReply.replay, deliver_replayElements]
    rfl

/-- **What is taken from the reply** decides a data operation, if the stores are granted. -/
theorem operate_of_taken (hv : s.Valid) (hlimit : UInt64.size ≤ s.queue.limit.toNat + 1)
    (hl : s.latch.first = none) (fatal : Status → SessionError) {taken : Outcome × List Event}
    (htaken : HostEngine.taken (s.asked dop index data).1 = taken)
    (hg : mem.Grants s.queue.capacity (s.queue.toList ++ taken.2).length) :
    let x := s.operate mem dop index data fatal
    x.state.engine.host = (s.asked dop index data).2 ∧
    x.state.queue.toList = s.queue.toList ++ taken.2 ∧
    x.result = if taken.1.status.disposition = .fatal then .error (fatal taken.1.status)
      else .ok taken.1 := by
  intro x
  obtain ⟨log, hw⟩ := s.welcomed_eq dop index data
  rw [htaken] at hw
  have hroom : (s.deliverTo mem dop index data).2.latch.first = none := by
    rw [welcomed] at hw
    refine Collector.deliver_of_grants (c := ⟨s.queue, s.latch, #[]⟩) _ hv.queue hlimit hl hg
      (Nat.le_of_eq ?_)
    rw [Collector.deliver_welcome, hw]
  obtain ⟨queue, hq, hstate, hresult⟩ := operate_of_room hv hl hroom fatal
  rw [hw] at hq hstate hresult
  refine ⟨?_, ?_, ?_⟩
  · rw [hstate]
  · rw [hstate]
    exact hq.toHolds.toList
  · rw [hresult]
    by_cases hf : taken.1.status.disposition = .fatal
    · simp only [latchAfter, if_pos hf, Latch.set, hl]
    · simp only [latchAfter, if_neg hf, hl]

end Session

namespace HostDecoder

variable {η : Type}

/-! ## Calls -/

/-- The value of an envelope, by the count that the host states. -/
def Op.value : Op → UInt64 → HostValue
  | .feed data _, consumed => .number (min (min consumed.toNat data.size) (UInt32.size - 1) : Nat)
  | _, _ => .undefined

/-- The envelope of a value or of an error. -/
def envelope : Except SessionError HostValue → HostValue
  | .ok value => .record [("ok", .bool true), ("value", value)]
  | .error e => .record [("ok", .bool false), ("error", .text e.message)]

/-- The host that provides the engine, unless the session is gone. -/
def host? (d : HostDecoder η) : Option η :=
  d.handle.session.map fun s => s.engine.host

/-- The error that feeds and flushes are refused with, if they are. -/
def held (d : HostDecoder η) : Option SessionError :=
  match d.handle.session with
  | some s => s.latch.first
  | none => some .destroyed

variable [DecodeHost η] {mem : Allocator} {op : Op} {o : Session.Op} {dop : DataOp}
  {index : UInt64} {data : ByteArray} {d : HostDecoder η} {s : Session (HostEngine η)}

omit [DecodeHost η] in
theorem toHost_eq_envelope {α : Type} [ToHost α] (result : Except SessionError α) :
    toHost result = envelope (result.map toHost) := by
  cases result <;> rfl

omit [DecodeHost η] in
/-- The greatest 32-bit word stands for greater numbers. -/
theorem toHost_ofNat (n : Nat) :
    toHost (UInt32.ofNat (min n (UInt32.size - 1))) = .number (min n (UInt32.size - 1) : Nat) := by
  have hlt : min n (UInt32.size - 1) < UInt32.size :=
    Nat.lt_of_le_of_lt (Nat.min_le_right _ _) (by decide)
  exact congrArg (fun m : Nat => HostValue.number m) (UInt32.toNat_ofNat_of_lt' hlt)

/-- **A feed or a flush is the session's data operation**, and its answer an envelope. -/
theorem perform_of_dataOp (ho : op.onSession? = some o) (hd : o.dataOp? = some (dop, index, data))
    (mem : Allocator) (s : Session (HostEngine η)) (unsent : Option EventRecord) :
    let x := s.operate mem dop index data o.fatal
    (perform mem none op ⟨⟨some s⟩, unsent⟩).result =
      .given (.ok (envelope (x.result.map fun outcome => op.value outcome.consumed))) ∧
    (perform mem none op ⟨⟨some s⟩, unsent⟩).state = ⟨⟨some x.state⟩, unsent⟩ := by
  intro x
  constructor
  · cases op with
    | feed bytes _ =>
      cases ho
      cases hd
      change Answer.given (.ok (toHost ((x.result.map _).map _))) = _
      rw [toHost_eq_envelope]
      cases hx : x.result with
      | error e => rfl
      | ok outcome => exact congrArg (Answer.given ∘ .ok ∘ envelope ∘ .ok) (toHost_ofNat _)
    | flush =>
      cases ho
      cases hd
      change Answer.given (.ok (toHost (x.result.map _))) = _
      rw [toHost_eq_envelope]
      cases hx : x.result <;> rfl
    | addImage => cases ho; cases hd
    | nextEvent | destroy => cases ho
  · rw [perform_onSession ho, Session.perform_of_dataOp hd, Step.map_state]

/-- **A call that is refused** does nothing but tell the error. -/
theorem perform_of_held (ho : op.onSession? = some o) (hd : o.dataOp? = some (dop, index, data))
    {e : SessionError} (h : d.held = some e) :
    (d.perform mem none op).result = .given (.ok (envelope (.error e))) ∧
    (d.perform mem none op).state = d := by
  obtain ⟨⟨_ | s⟩, unsent⟩ := d
  · cases h
    refine ⟨?_, perform_gone ho mem none unsent⟩
    cases op with
    | feed | flush => rfl
    | addImage => cases ho; cases hd
    | nextEvent | destroy => cases ho
  · obtain ⟨hresult, hstate⟩ := perform_of_dataOp ho hd mem s unsent
    rw [Session.operate_of_isSet h] at hresult hstate
    exact ⟨hresult, hstate⟩

/-- What a call leaves: its answer, the host behind the decoder, and the events that
    it adds to those that wait.  An error of the answer is held from then on, and all records can
    be taken. -/
structure Leaves (d : HostDecoder η) (x : Step (HostDecoder η) Answer) (host : η)
    (events : List Event) (answer : Except SessionError HostValue) : Prop where
  held : x.state.held = match answer with
    | .error e => some e
    | .ok _ => none
  result : x.result = .given (.ok (envelope answer))
  host : x.state.host? = some host
  queued : x.state.queued = d.queued ++ events
  unsent : x.state.unsent = d.unsent
  handed : ∀ n, handed (takes n) (x.state.performAll (takes n)).result =
    ((d.outbox ++ events.map Event.toRecord).take n).map toHost

/-- The queue of a decoder may have as many slots as there are 64-bit numbers. -/
theorem Reachable.size_le_limit (h : d.Reachable) (hs : d.handle.session = some s) :
    UInt64.size ≤ s.queue.limit.toNat + 1 := by
  have hl : s.queue.limit = UInt64.ofNat (UInt64.size - 1) :=
    h.session_invariant (P := fun s => s.queue.limit = UInt64.ofNat (UInt64.size - 1))
      (fun hs => Session.limit_create hs) (fun mem o hl => (Session.limit_perform mem o _).trans hl)
      hs
  rw [hl]
  decide

/-- **What is taken from the reply** decides what a call leaves. -/
theorem leaves_of_taken (h : d.Reachable) (ho : op.onSession? = some o)
    (hd : o.dataOp? = some (dop, index, data)) (hs : d.handle.session = some s)
    (hl : s.latch.first = none) {taken : Outcome × List Event}
    (htaken : HostEngine.taken (s.asked dop index data).1 = taken)
    (hg : mem.Grants s.queue.capacity (s.queue.toList ++ taken.2).length) :
    d.Leaves (d.perform mem none op) (s.asked dop index data).2 taken.2
      (if taken.1.status.disposition = .fatal then .error (o.fatal taken.1.status)
        else .ok (op.value taken.1.consumed)) := by
  have hafter := h.perform mem none op
  have hv := (h.session hs).valid
  have hlimit := h.size_le_limit hs
  obtain ⟨⟨session⟩, unsent⟩ := d
  obtain rfl : session = some s := hs
  obtain ⟨hresult, hstate⟩ := perform_of_dataOp ho hd mem s unsent
  obtain ⟨hhost, hqueue, hx⟩ := Session.operate_of_taken hv hlimit hl o.fatal htaken hg
  -- the session's answer and its latch agree, so that the answer tells what is held
  obtain ⟨hok, herror⟩ := Session.told_operate mem s dop index data o.fatal
  refine ⟨?_, ?_, ?_, ?_, ?_, ?_⟩
  · rw [hstate]
    by_cases hf : taken.1.status.disposition = .fatal
    · rw [if_pos hf] at hx ⊢
      exact herror _ hx
    · rw [if_neg hf] at hx ⊢
      have hclear := hok.1 (by rw [hx]; rfl)
      exact Option.isNone_iff_eq_none.1 (Option.isSome_eq_false_iff.1 hclear)
  · rw [hresult, hx]
    split <;> rfl
  · rw [hstate]
    exact congrArg some hhost
  · rw [hstate]
    exact hqueue
  · rw [hstate]
  · intro n
    rw [handed_takes hafter, hstate]
    simp only [outbox, queued, Option.map_some, Option.getD_some, hqueue, List.map_append,
      List.append_assoc]

theorem leaves_of_unreadable (h : d.Reachable) (mem : Allocator) (ho : op.onSession? = some o)
    (hd : o.dataOp? = some (dop, index, data)) (hs : d.handle.session = some s)
    (hl : s.latch.first = none) {error : String}
    (he : DecodeHost.readReply (s.asked dop index data).1 = .error error) :
    d.Leaves (d.perform mem none op) (s.asked dop index data).2 [] (.error (o.fatal .fail)) := by
  have htaken : HostEngine.taken (s.asked dop index data).1 = (⟨.fail, 0⟩, []) := by
    simp only [HostEngine.taken, he]
  -- without events no store is asked for
  refine leaves_of_taken h ho hd hs hl htaken (.of_lt ?_)
  rw [List.append_nil]
  exact (h.session hs).valid.queue.length_lt

/-! ## The effect of a reply -/

/-- **What a host's reply does.**  A call on a decoder that holds an error, or is destroyed, does
    nothing but tell so.  Any other asks the host once.  A reply that cannot be read adds no event
    and is a failure; so is one with an element that cannot be read, if the host's reader skips
    none.  Else all events of its elements are added, and its status settles the call; the codes 0,
    8 and 13 alone are not fatal. -/
theorem effect_of_reply (h : d.Reachable) (mem : Allocator) (ho : op.onSession? = some o)
    (hd : o.dataOp? = some (dop, index, data)) :
    let after := d.perform mem none op
    (∀ e, d.held = some e →
      after.result = .given (.ok (envelope (.error e))) ∧ after.state = d) ∧
    ∀ s, d.handle.session = some s → s.latch.first = none →
      let asked := s.asked dop index data
      (∀ error, DecodeHost.readReply asked.1 = .error error →
        d.Leaves after asked.2 [] (.error (o.fatal .fail))) ∧
      (∀ items element, DecodeHost.ReadsItems η items element →
        ∀ item ∈ items asked.1, ∀ error, element item = .error error →
        d.Leaves after asked.2 [] (.error (o.fatal .fail))) ∧
      ∀ reply, DecodeHost.readReply asked.1 = .ok reply →
        let events := reply.elements.filterMap Element.event?
        mem.Grants s.queue.capacity (s.queue.toList ++ events).length →
        (reply.status ∈ [0, 8, 13] →
          d.Leaves after asked.2 events (.ok (op.value reply.consumed))) ∧
        (reply.status ∉ [0, 8, 13] → ∃ status : Status,
          (status.code = reply.status ∨ (13 < reply.status ∧ status = .fail)) ∧
          d.Leaves after asked.2 events (.error (o.fatal status))) := by
  intro after
  refine ⟨fun e he => perform_of_held ho hd he, ?_⟩
  intro s hs hl asked
  refine ⟨fun error he => leaves_of_unreadable h mem ho hd hs hl he, ?_, ?_⟩
  · intro items element hreads item hmem error hi
    obtain ⟨error', he⟩ := hreads.refuses hmem hi
    exact leaves_of_unreadable h mem ho hd hs hl he
  · intro reply hread events hg
    have htaken : HostEngine.taken asked.1 =
        (⟨.ofHostCode reply.status, reply.consumed⟩, events) := by
      simp only [HostEngine.taken, hread]; rfl
    have hleaves := leaves_of_taken h ho hd hs hl htaken hg
    constructor
    · intro hmem
      rwa [if_neg (mt (Status.disposition_ofHostCode_iff _).1 (not_not_intro hmem))] at hleaves
    · intro hmem
      rw [if_pos ((Status.disposition_ofHostCode_iff _).2 hmem)] at hleaves
      exact ⟨_, Status.ofHostCode_spec reply.status, hleaves⟩

end HostDecoder

/-! ## Two failures -/

namespace Playback

/-- A host with two events and a code above all codes. -/
def Repeating.overrun : Repeating :=
  ⟨.obj [("status", .int 40), ("elements", .arr [started 1, started 2])]⟩

/-- A host with an event and then an element of no kind that there is. -/
def Repeating.garbled : Repeating :=
  ⟨.obj [("elements", .arr [started 1, .obj [("elem_type", .str "Paused")]])]⟩

/-- Reads one element. -/
def Repeating.readElement (item : Json) : Except String Element :=
  (Element.format.codec.read item).mapError errorText

/-- The items of the list of elements that an object has. -/
def Repeating.items : Json → List Json
  | .obj members =>
    match members.lookup "elements" with
    | some (.arr items) => items
    | _ => []
  | _ => []

theorem Repeating.refuses_of_item {raw item : Json} (h : item ∈ items raw)
    (hi : Element.format.codec.Refuses item) : HostReply.format.codec.Refuses raw := by
  cases raw with
  | obj members =>
    rw [items] at h
    split at h
    case h_1 list hlookup =>
      obtain ⟨before, after, rfl, -⟩ := List.lookup_eq_some_iff.1 hlookup
      have hlist := Field.refuses_of (hi.list h) "elements" HostReply.elements
        fun b a => { a with elements := b }
      exact RecordFormat.refuses_obj (List.mem_append_right _ List.mem_cons_self) rfl hlist
    case h_2 => cases h
  | _ => cases h

/-- The reader of these hosts skips no element. -/
theorem Repeating.readsItems : DecodeHost.ReadsItems Repeating items readElement where
  item {raw reply item} hread hmem := by
    cases hi : Element.format.codec.read item with
    | ok x => exact ⟨x, by rw [readElement, hi]; rfl⟩
    | error e =>
      obtain ⟨e', he⟩ := refuses_of_item hmem ⟨e, hi⟩
      have hreply : Repeating.read raw = .ok reply := hread
      rw [Repeating.read, he] at hreply
      cases hreply

theorem Repeating.reachable (host : Repeating) : host.decoder.Reachable :=
  @HostDecoder.Reachable.create Repeating _ .standard 0 0x10 0 none host _ rfl

end Playback

namespace HostDecoder

/-- Two events are kept though the code is a failure; an event before an element that cannot be
    read is not. -/
theorem effect_of_reply_overrun_garbled :
    Playback.Repeating.overrun.decoder.Leaves
      (perform .standard none (.feed ⟨#[0, 0]⟩ 3) Playback.Repeating.overrun.decoder)
      Playback.Repeating.overrun [⟨.traceOn 1, 0, -1⟩, ⟨.traceOn 2, 0, -1⟩]
      (.error (.decodeFailed 3 .fail)) ∧
    Playback.Repeating.garbled.decoder.Leaves
      (perform .standard none .flush Playback.Repeating.garbled.decoder)
      Playback.Repeating.garbled [] (.error (.flushFailed .fail)) := by
  constructor
  · obtain ⟨-, hlive⟩ := @effect_of_reply Playback.Repeating _ (.feed ⟨#[0, 0]⟩ 3)
      (.feed ⟨#[0, 0]⟩ 3) .data 3 ⟨#[0, 0]⟩ Playback.Repeating.overrun.decoder
      (Playback.Repeating.reachable _) .standard rfl rfl
    obtain ⟨-, -, hread⟩ := hlive Playback.Repeating.overrun.session rfl rfl
    obtain ⟨-, hfatal⟩ := hread ⟨40, 0, [{ kind := .traceOn, start := 1 },
      { kind := .traceOn, start := 2 }]⟩ rfl (.of_lt (by decide +kernel))
    obtain ⟨status, hcode | ⟨-, rfl⟩, hleaves⟩ := hfatal (by decide)
    · cases status <;> exact absurd hcode (by decide)
    · exact hleaves
  · obtain ⟨-, hlive⟩ := @effect_of_reply Playback.Repeating _ .flush .flush .flush 0 .empty
      Playback.Repeating.garbled.decoder (Playback.Repeating.reachable _) .standard rfl rfl
    obtain ⟨-, hrefused, -⟩ := hlive Playback.Repeating.garbled.session rfl rfl
    exact hrefused _ _ Playback.Repeating.readsItems _
      (List.mem_cons_of_mem _ (List.mem_singleton_self _)) _ rfl

end HostDecoder

end TraceRelay
