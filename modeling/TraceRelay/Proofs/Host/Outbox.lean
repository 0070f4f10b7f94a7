/-
  TraceRelay — a host gets every event exactly once.

  Handing out a record may fail when it is converted.  The record then waits in
  front of the queue, and all that happens in between goes on behind it.

  * `HostDecoder.outbox` are the records still to be handed out: the one that
    waits, then those of the queued events;
  * `nextEvent_nil`, `nextEvent_cons`: the next record is the first of these, and
    leaves them iff its conversion succeeds;
  * `perform_outbox` is the step: what an operation hands out and the outbox
    after it are the outbox before it and what the session accepted;
  * `handed_append_outbox`: so it is for every run.
-/
import TraceRelay.Proofs.Host.Run
import TraceRelay.Proofs.Session.Delivery

namespace TraceRelay

namespace HostDecoder

variable {η : Type}

/-! ## Runs -/

/-- A call of a host: the operation, the allocator that it meets, and the failure of the
    conversion of its answer, if that fails. -/
structure Call where
  mem : Allocator
  fault : Option String := none
  op : Op

/-- Performs calls one after the other. -/
abbrev performAll [DecodeHost η] : List Call → HostDecoder η → Step (HostDecoder η) (List Answer) :=
  Step.chain fun call => perform call.mem call.fault call.op

/-- The record that an operation hands out, as the host gets it. -/
def Op.handed : Op → Answer → List HostValue
  | .nextEvent, .given (.ok .undefined) => []
  | .nextEvent, .given (.ok value) => [value]
  | _, _ => []

/-- The records handed out in the course of a run, in order. -/
def handed (calls : List Call) (answers : List Answer) : List HostValue :=
  (List.zipWith (fun call answer => call.op.handed answer) calls answers).flatten

theorem handed_cons (call : Call) (calls : List Call) (answer : Answer) (answers : List Answer) :
    handed (call :: calls) (answer :: answers) = call.op.handed answer ++ handed calls answers :=
  rfl

/-- The events that wait in the queue. -/
def queued (d : HostDecoder η) : List Event :=
  (d.handle.session.map fun s => s.queue.toList).getD []

/-- The records still to be handed out, the next one first. -/
def outbox (d : HostDecoder η) : List EventRecord :=
  d.unsent.toList ++ d.queued.map Event.toRecord

variable [DecodeHost η] {mem : Allocator} {fault : Option String} {op : Op} {o : Session.Op}
  {d : HostDecoder η} {r : EventRecord} {rest : List EventRecord}

/-- The reports that come to the collector of the session in the course of a call. -/
def deliveries (call : Call) (d : HostDecoder η) : List Delivery :=
  match d.handle.session, call.op.onSession? with
  | some s, some op => s.deliveries call.mem op
  | _, _ => []

/-- The reports of all calls of a run, in order. -/
def deliveriesAll : List Call → HostDecoder η → List Delivery
  | [], _ => []
  | call :: calls, d =>
    d.deliveries call ++ deliveriesAll calls (d.perform call.mem call.fault call.op).state

theorem Reachable.performAll (h : d.Reachable) (calls : List Call) :
    (d.performAll calls).state.Reachable :=
  Step.chain_invariant (fun call _ h => h.perform call.mem call.fault call.op) calls h

/-! ## The end of all reports -/

/-- The session is gone, or its latch is set. -/
def Stopped (d : HostDecoder η) : Prop :=
  ∀ s, d.handle.session = some s → s.latch.isSet = true

theorem Stopped.perform (h : d.Stopped) (mem : Allocator) (fault : Option String) (op : Op) :
    (d.perform mem fault op).state.Stopped := by
  intro s hs
  rcases session_perform mem fault op d with h' | h' | ⟨s', o, hs', h'⟩
  · exact h s (h'.symm.trans hs)
  · rw [h'] at hs; cases hs
  · obtain rfl := Option.some.inj (h'.symm.trans hs)
    have hset := h s' hs'
    rw [Session.latch_perform hset]
    exact hset

theorem Stopped.deliveriesAll (h : d.Stopped) (calls : List Call) : d.deliveriesAll calls = [] := by
  induction calls generalizing d with
  | nil => rfl
  | cons call calls ih =>
    have hnone : d.deliveries call = [] := by
      unfold HostDecoder.deliveries
      split
      · rename_i s o hs _
        exact Session.deliveries_of_isSet (h s hs)
      · rfl
    rw [HostDecoder.deliveriesAll, hnone, ih (h.perform call.mem call.fault call.op)]
    rfl

/-! ## The next record -/

theorem nextRecord_spec (h : d.Reachable) : d.nextRecord.1 = d.outbox.head? ∧
    outbox ⟨d.nextRecord.2, none⟩ = d.outbox.tail := by
  obtain ⟨⟨session⟩, _ | r⟩ := d
  · cases session with
    | none => exact ⟨rfl, rfl⟩
    | some s =>
      have hq := (h.session rfl).valid.queue
      constructor
      · show s.queue.pop.1.map Event.toRecord = (s.queue.toList.map Event.toRecord).head?
        rw [hq.toHolds.pop_fst, List.head?_map]
      · show s.queue.pop.2.toList.map Event.toRecord = (s.queue.toList.map Event.toRecord).tail
        rw [hq.toHolds.pop_snd.toList, List.map_tail]
  · exact ⟨rfl, rfl⟩

theorem nextEvent_nil (h : d.Reachable) (ho : d.outbox = []) (fault : Option String) :
    (d.nextEvent fault).1 = .ok .undefined ∧ (d.nextEvent fault).2.outbox = [] := by
  obtain ⟨hhead, htail⟩ := nextRecord_spec h
  rw [ho] at hhead htail
  rcases hnext : d.nextRecord with ⟨record, handle⟩
  rw [hnext] at hhead htail
  obtain rfl : record = none := hhead
  constructor
  · simp only [nextEvent, hnext]
  · simp only [nextEvent, hnext, htail, List.tail_nil]

/-- The first record leaves the outbox if it is converted, and else it waits. -/
theorem nextEvent_cons (h : d.Reachable) (ho : d.outbox = r :: rest) :
    ((d.nextEvent none).1 = .ok (toHost r) ∧ (d.nextEvent none).2.outbox = rest) ∧
    ∀ text, (d.nextEvent (some text)).1 = .error text ∧
      (d.nextEvent (some text)).2.unsent = some r ∧
      (d.nextEvent (some text)).2.outbox = r :: rest := by
  obtain ⟨hhead, htail⟩ := nextRecord_spec h
  rw [ho] at hhead htail
  rcases hnext : d.nextRecord with ⟨record, handle⟩
  rw [hnext] at hhead htail
  obtain rfl : record = some r := hhead
  have hrest : (queued ⟨handle, none⟩).map Event.toRecord = rest := htail
  constructor
  · simp [nextEvent, hnext, convert, htail]
  · intro text
    simp [nextEvent, hnext, convert, outbox, ← hrest, queued]

/-- Takes a number of records, all of which are converted. -/
def takes (n : Nat) : List Call :=
  List.replicate n { mem := .standard, op := .nextEvent }

/-- **The records are handed out in order.** -/
theorem handed_takes (h : d.Reachable) (n : Nat) :
    handed (takes n) (d.performAll (takes n)).result = (d.outbox.take n).map toHost := by
  induction n generalizing d with
  | zero => rfl
  | succ n ih =>
    have hrest := ih (h.perform .standard none .nextEvent)
    rw [takes, List.replicate_succ, Step.chain_cons_result, handed_cons, ← takes, hrest]
    cases hb : d.outbox with
    | nil =>
      obtain ⟨hr, hs⟩ := nextEvent_nil h hb none
      simp [perform, hr, hs, Op.handed]
    | cons r rest =>
      obtain ⟨⟨hr, hs⟩, -⟩ := nextEvent_cons h hb
      simp [perform, hr, hs, Op.handed, toHost]

/-! ## The step -/

omit [DecodeHost η] in
theorem handed_onSession (ho : op.onSession? = some o) (answer : Answer) :
    op.handed answer = [] := by
  cases op <;> cases ho <;> rfl

theorem deliveries_eq_nil {call : Call} (ho : call.op.onSession? = none) (d : HostDecoder η) :
    d.deliveries call = [] := by
  simp [deliveries, ho]

/-- After a call that loses an event no report comes any more. -/
theorem stopped_of_lost (h : d.Reachable) {call : Call}
    (hl : (d.deliveries call).any Delivery.lost = true) :
    (d.perform call.mem call.fault call.op).state.Stopped := by
  obtain ⟨⟨session⟩, unsent⟩ := d
  obtain ⟨mem, fault, op⟩ := call
  cases ho : op.onSession? with
  | none => rw [deliveries_eq_nil ho] at hl; cases hl
  | some o =>
    cases session with
    | none => cases hl
    | some s =>
      simp only [deliveries, ho] at hl
      intro s' hs'
      rw [perform_onSession ho] at hs'
      obtain rfl := Option.some.inj hs'
      exact (Session.perform_delivery (h.session rfl).valid mem o).2 hl

/-- What the session accepts goes to the end of the outbox. -/
theorem outbox_onSession (h : d.Reachable) {call : Call} (ho : call.op.onSession? = some o) :
    (d.perform call.mem call.fault call.op).state.outbox =
      d.outbox ++ (Delivery.accepted (d.deliveries call)).map Event.toRecord := by
  obtain ⟨⟨session⟩, unsent⟩ := d
  obtain ⟨mem, fault, op⟩ := call
  cases session with
  | none =>
    rw [perform_gone ho]
    simp [deliveries, Delivery.accepted]
  | some s =>
    have hnone : (s.perform mem o).result.handed = [] := by cases op <;> cases ho <;> rfl
    obtain ⟨hstep, -⟩ := Session.perform_delivery (h.session rfl).valid mem o
    rw [hnone, List.nil_append] at hstep
    rw [perform_onSession ho]
    simp [outbox, queued, deliveries, ho, hstep]

/-- **What a call does to the outbox.** -/
theorem perform_outbox (h : d.Reachable) (call : Call) (hop : call.op ≠ .destroy) :
    let after := d.perform call.mem call.fault call.op
    ∃ records : List EventRecord, call.op.handed after.result = records.map toHost ∧
      records ++ after.state.outbox =
        d.outbox ++ (Delivery.accepted (d.deliveries call)).map Event.toRecord := by
  intro after
  cases ho : call.op.onSession? with
  | some o => exact ⟨[], handed_onSession ho _, outbox_onSession h ho⟩
  | none =>
    rw [deliveries_eq_nil ho, Delivery.accepted_nil, List.map_nil, List.append_nil]
    obtain ⟨mem, fault, op⟩ := call
    obtain rfl : op = .nextEvent := by
      cases op with
      | nextEvent => rfl
      | destroy => exact absurd rfl hop
      | addImage | feed | flush => cases ho
    cases hb : d.outbox with
    | nil =>
      obtain ⟨hr, hs⟩ := nextEvent_nil h hb fault
      exact ⟨[], by simp [after, perform, hr, Op.handed], hs⟩
    | cons r rest =>
      obtain ⟨⟨hr, hs⟩, hfail⟩ := nextEvent_cons h hb
      cases fault with
      | none =>
        exact ⟨[r], by simp [after, perform, hr, Op.handed, toHost], by simp [after, perform, hs]⟩
      | some text =>
        obtain ⟨hr, -, hs⟩ := hfail text
        exact ⟨[], by simp [after, perform, hr, Op.handed], hs⟩

/-! ## The run -/

theorem performAll_outbox (h : d.Reachable) (calls : List Call)
    (hc : ∀ call ∈ calls, call.op ≠ .destroy) :
    ∃ records : List EventRecord,
      handed calls (d.performAll calls).result = records.map toHost ∧
      records ++ (d.performAll calls).state.outbox =
        d.outbox ++ (Delivery.accepted (d.deliveriesAll calls)).map Event.toRecord := by
  induction calls generalizing d with
  | nil => exact ⟨[], rfl, by simp [deliveriesAll]⟩
  | cons call calls ih =>
    obtain ⟨hop, hc⟩ := List.forall_mem_cons.1 hc
    obtain ⟨records, hr, hs⟩ := perform_outbox h call hop
    obtain ⟨records', hr', hs'⟩ := ih (h.perform call.mem call.fault call.op) hc
    -- after a loss no report comes any more, so that the loss is the first of the run
    have happ : Delivery.accepted (d.deliveriesAll (call :: calls)) =
        Delivery.accepted (d.deliveries call) ++
          Delivery.accepted ((d.perform call.mem call.fault call.op).state.deliveriesAll calls) :=
      Delivery.accepted_append_of_end fun hl => (stopped_of_lost h hl).deliveriesAll calls
    refine ⟨records ++ records', ?_, ?_⟩
    · rw [List.map_append, ← hr, ← hr', Step.chain_cons_result, handed_cons]
    · rw [happ, List.map_append, ← List.append_assoc, ← hs, List.append_assoc,
        List.append_assoc, ← hs']
      rfl

/-! ## Records that wait -/

omit [DecodeHost η] in
theorem nextEvent_of_unsent (hu : d.unsent = some r) : (d.nextEvent none).1 = .ok (toHost r) ∧
    ∀ text, d.nextEvent (some text) = (.error text, d) := by
  obtain ⟨handle, unsent⟩ := d
  obtain rfl : unsent = some r := hu
  exact ⟨rfl, fun text => rfl⟩

/-- A record waits until its conversion succeeds or the session is destroyed. -/
theorem unsent_perform (hu : d.unsent = some r) {call : Call} (hop : call.op ≠ .destroy)
    (hf : call.op = .nextEvent → call.fault.isSome = true) :
    (d.perform call.mem call.fault call.op).state.unsent = some r := by
  obtain ⟨mem, fault, op⟩ := call
  cases op with
  | addImage | feed | flush => exact hu
  | nextEvent =>
    obtain ⟨text, rfl⟩ := Option.isSome_iff_exists.1 (hf rfl)
    rw [perform, (nextEvent_of_unsent hu).2 text]
    exact hu
  | destroy => exact absurd rfl hop

theorem unsent_performAll (hu : d.unsent = some r) (calls : List Call)
    (hc : ∀ call ∈ calls, call.op ≠ .destroy ∧
      (call.op = .nextEvent → call.fault.isSome = true)) :
    (d.performAll calls).state.unsent = some r := by
  induction calls generalizing d with
  | nil => exact hu
  | cons call calls ih =>
    obtain ⟨⟨hop, hf⟩, hc⟩ := List.forall_mem_cons.1 hc
    exact ih (unsent_perform hu hop hf) hc

/-- A call that throws leaves its record waiting. -/
theorem unsent_of_error (h : d.Reachable) {text : String}
    (he : (d.nextEvent fault).1 = .error text) :
    ∃ r, d.outbox.head? = some r ∧ (d.nextEvent fault).2.unsent = some r := by
  cases hb : d.outbox with
  | nil => rw [(nextEvent_nil h hb fault).1] at he; cases he
  | cons r rest =>
    obtain ⟨⟨hr, -⟩, hfail⟩ := nextEvent_cons h hb
    cases fault with
    | none => rw [hr] at he; cases he
    | some text' => exact ⟨r, rfl, (hfail text').2.1⟩

/-- There is no record iff there is none to be handed out. -/
theorem nextEvent_undefined_iff (h : d.Reachable) :
    (d.nextEvent fault).1 = .ok .undefined ↔ d.outbox = [] := by
  cases hb : d.outbox with
  | nil => exact iff_of_true (nextEvent_nil h hb fault).1 rfl
  | cons r rest =>
    obtain ⟨⟨hr, -⟩, hfail⟩ := nextEvent_cons h hb
    refine iff_of_false ?_ (List.cons_ne_nil r rest)
    cases fault with
    | none => rw [hr]; simp [toHost]
    | some text => rw [(hfail text).1]; nofun

/-! ## After the end -/

/-- Nothing is left to a decoder that was destroyed. -/
theorem perform_destroyed (mem : Allocator) (fault : Option String) (op : Op) :
    (perform mem fault op (⟨⟨none⟩, none⟩ : HostDecoder η)).state = ⟨⟨none⟩, none⟩ := by
  cases op <;> rfl

theorem performAll_destroyed (calls : List Call) (d : HostDecoder η) (mem : Allocator)
    (fault : Option String) :
    (d.performAll (⟨mem, fault, .destroy⟩ :: calls)).state = ⟨⟨none⟩, none⟩ := by
  rw [Step.chain_cons_state]
  refine Step.chain_invariant (P := fun d : HostDecoder η => d = ⟨⟨none⟩, none⟩) ?_ calls ?_
  · rintro call _ rfl
    exact perform_destroyed call.mem call.fault call.op
  · obtain ⟨⟨_ | s⟩, unsent⟩ := d <;> rfl

/-! ## Exactly once -/

theorem outbox_create {protocol : Int32} {traceId : UInt8} {selector : Int32} {host : η}
    (h : (create mem protocol traceId selector fault host).result = .ok d) : d.outbox = [] := by
  obtain ⟨s, hs, rfl⟩ := create_eq_ok h
  obtain ⟨-, hq⟩ := Session.create_config_queue hs
  simp [outbox, queued, (Ring.Represents.create hq).toHolds.toList]

/-- **A host gets every event exactly once**, whichever conversions fail.  Before the end, the
    records handed out, then the one that waits and then those of the queued events are those of
    the events that the session accepted, in order.  A record whose conversion fails is the next to
    be offered, whatever happens in between; there is no record iff none is waiting or queued;
    and after the end there is none any more. -/
theorem handed_append_outbox {protocol : Int32} {traceId : UInt8} {selector : Int32} {host : η}
    (h : (create mem protocol traceId selector fault host).result = .ok d) (calls : List Call)
    (hc : ∀ call ∈ calls, call.op ≠ .destroy) :
    let run := d.performAll calls
    let last := run.state
    (∃ records : List EventRecord, handed calls run.result = records.map toHost ∧
      records ++ (last.unsent.toList ++ last.queued.map Event.toRecord) =
        (Delivery.accepted (d.deliveriesAll calls)).map Event.toRecord) ∧
    (∀ fault text, (last.nextEvent fault).1 = .error text → ∃ r, last.outbox.head? = some r ∧
      ∀ between : List Call, (∀ call ∈ between, call.op ≠ .destroy ∧
          (call.op = .nextEvent → call.fault.isSome = true)) →
        let again := ((last.nextEvent fault).2.performAll between).state
        again.unsent = some r ∧ (again.nextEvent none).1 = .ok (toHost r)) ∧
    (∀ fault, (last.nextEvent fault).1 = .ok .undefined ↔
      last.unsent = none ∧ last.queued = []) ∧
    ∀ mem fault after fault',
      ((last.performAll (⟨mem, fault, .destroy⟩ :: after)).state.nextEvent fault').1 =
        .ok .undefined := by
  intro run last
  have hr : d.Reachable := .create h
  have hlast : last.Reachable := hr.performAll calls
  refine ⟨?_, ?_, ?_, ?_⟩
  · have hrun := performAll_outbox hr calls hc
    rwa [outbox_create h, List.nil_append] at hrun
  · intro fault text he
    obtain ⟨r, hhead, hu⟩ := unsent_of_error hlast he
    refine ⟨r, hhead, fun between hb => ?_⟩
    have hwait := unsent_performAll hu between hb
    exact ⟨hwait, (nextEvent_of_unsent hwait).1⟩
  · intro fault
    rw [nextEvent_undefined_iff hlast, outbox, List.append_eq_nil_iff, List.map_eq_nil_iff,
      Option.toList_eq_nil_iff]
  · intro mem fault after fault'
    rw [performAll_destroyed]
    rfl

end HostDecoder

/-! ## A record that waits -/

namespace Playback

/-- A host that accepts all that it is asked for and always has the same reply. -/
structure Repeating where
  reply : Json

/-- The text of a read error. -/
def errorText (e : ReadError) : String :=
  e.message?.getD "invalid value"

/-- Reads what the host has as its reply. -/
def Repeating.read (raw : Json) : Except String HostReply :=
  (HostReply.format.codec.read raw).mapError errorText

instance : DecodeHost Repeating where
  Raw := Json
  createTree _ _ host := (0, host)
  createDecoder _ host := (0, host)
  addImage _ _ _ _ host := (0, host)
  processData _ _ _ host := (host.reply, host)
  readReply := Repeating.read

/-- The start of tracing at an address. -/
def started (start : Int) : Json :=
  .obj [("elem_type", .str "TraceOn"), ("st_addr", .int start)]

/-- A host with two events at a time, and an element between them that has none. -/
def Repeating.twice : Repeating :=
  ⟨.obj [("elements", .arr [started 1, .obj [], started 2])]⟩

/-- A new session over a host. -/
def Repeating.session (host : Repeating) : Session (HostEngine Repeating) :=
  ⟨.ofSelectors 0 0x10 0, ⟨host, 0x10, none⟩, #[],
    ⟨Array.replicate 256 none, 0, 0, UInt64.ofNat (UInt64.size - 1)⟩, {}, .configured⟩

/-- A new decoder over a host. -/
def Repeating.decoder (host : Repeating) : HostDecoder Repeating where
  handle := .ofSession host.session

/-- A record is handed out at the second attempt, after a flush. -/
def attempts : List HostDecoder.Call :=
  [⟨.standard, none, .feed ⟨#[0, 0]⟩ 0⟩, ⟨.standard, some "no record", .nextEvent⟩,
    ⟨.standard, none, .flush⟩, ⟨.standard, none, .nextEvent⟩]

/-- The decoder after these attempts. -/
def attempted : HostDecoder Repeating :=
  (Repeating.twice.decoder.performAll attempts).state

end Playback

namespace HostDecoder

/-- Four events are accepted and one is handed out.  The next record waits while two more come. -/
theorem handed_append_outbox_attempts :
    (create .standard 0 0x10 0 none Playback.Repeating.twice).result =
      .ok Playback.Repeating.twice.decoder ∧
    (∃ records : List EventRecord,
      handed Playback.attempts (Playback.Repeating.twice.decoder.performAll
        Playback.attempts).result = records.map toHost ∧
      records ++ (Playback.attempted.unsent.toList ++
        Playback.attempted.queued.map Event.toRecord) =
        ([⟨.traceOn 1, 0, -1⟩, ⟨.traceOn 2, 0, -1⟩, ⟨.traceOn 1, 0, -1⟩,
          ⟨.traceOn 2, 0, -1⟩] : List Event).map Event.toRecord) ∧
    ((((Playback.attempted.nextEvent (some "no record")).2.performAll
      [⟨.standard, none, .flush⟩]).state.nextEvent none).1 =
        .ok (toHost (Event.toRecord ⟨.traceOn 2, 0, -1⟩))) ∧
    ((Playback.attempted.performAll [⟨.standard, none, .destroy⟩]).state.nextEvent none).1 =
      .ok .undefined := by
  have hcreate : (create .standard 0 0x10 0 none Playback.Repeating.twice).result =
      .ok Playback.Repeating.twice.decoder := rfl
  have hreach : (Playback.Repeating.twice.decoder.performAll Playback.attempts).state.Reachable :=
    (Reachable.create hcreate).performAll Playback.attempts
  have haccepted : Delivery.accepted
      (Playback.Repeating.twice.decoder.deliveriesAll Playback.attempts) =
      [⟨.traceOn 1, 0, -1⟩, ⟨.traceOn 2, 0, -1⟩, ⟨.traceOn 1, 0, -1⟩, ⟨.traceOn 2, 0, -1⟩] := by
    decide +kernel
  have hout : (Playback.Repeating.twice.decoder.performAll Playback.attempts).state.outbox =
      ([⟨.traceOn 2, 0, -1⟩, ⟨.traceOn 1, 0, -1⟩, ⟨.traceOn 2, 0, -1⟩] : List Event).map
        Event.toRecord := by
    decide +kernel
  obtain ⟨hevents, hwait, -, hgone⟩ := handed_append_outbox hcreate Playback.attempts
    (by simp [Playback.attempts])
  rw [haccepted] at hevents
  unfold Playback.attempted
  refine ⟨hcreate, hevents, ?_, hgone .standard none [] none⟩
  obtain ⟨r, hr, hbetween⟩ := hwait (some "no record") "no record"
    ((nextEvent_cons hreach hout).2 "no record").1
  rw [hout] at hr
  obtain rfl : Event.toRecord ⟨.traceOn 2, 0, -1⟩ = r := Option.some.inj hr
  exact (hbetween [⟨.standard, none, .flush⟩] (by simp)).2

end HostDecoder

end TraceRelay
