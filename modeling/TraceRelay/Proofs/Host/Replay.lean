/-
  TraceRelay — how a host's reply is replayed.

  The elements of a reply are reported one after the other, to whatever sink is there.  The first
  report that is answered by an abort is the last one, and then the reply's own status and count do
  not matter.

  * `Sink.noting` notes what a sink receives, and what it answers;
  * `Replayed`: all reports are made, or all up to one that is refused.  `replayed_replayElements`:
    so it is for every sink;
  * `Replayed.refused`: if the sink is a collector whose queue refuses an event, the refused report
    is the last;
  * `replayed_of_sink`: what every sink receives, and what a session makes of a refusal.
-/
import TraceRelay.Proofs.Host.Reply
import TraceRelay.Proofs.Session.Settlement

namespace TraceRelay

variable {α σ : Type}

/-! ## Notes -/

/-- The sink that also notes each report that it receives, with its response. -/
def Sink.noting (sink : Sink σ) : Sink (σ × List (Report × Response))
  | r, (s, notes) => ((sink r s).1, (sink r s).2, notes ++ [(r, (sink r s).1)])

namespace Reporting

/-- The reports that an operation makes to a sink, with the responses. -/
def notes (sink : Sink σ) : Reporting α → σ → List (Report × Response)
  | done _, _ => []
  | report r next, s => (r, (sink r s).1) :: notes sink (next (sink r s).1) (sink r s).2

/-- Taking notes changes nothing else. -/
theorem deliver_noting (sink : Sink σ) (t : Reporting α) (s : σ)
    (earlier : List (Report × Response)) : t.deliver sink.noting (s, earlier) =
      ((t.deliver sink s).1, (t.deliver sink s).2, earlier ++ t.notes sink s) := by
  induction t generalizing s earlier with
  | done a => rw [notes, List.append_nil]; rfl
  | report r next ih =>
    rw [deliver_report, deliver_report, notes]
    refine (ih ..).trans ?_
    rw [List.append_assoc]; rfl

end Reporting

/-! ## Codes -/

namespace Status

theorem code_le (status : Status) : status.code ≤ 13 := by
  cases status <;> decide

theorem code_ofHostCode {n : UInt32} (h : n ≤ 13) : (ofHostCode n).code = n := by
  rcases ofHostCode_spec n with hn | ⟨hn, -⟩
  · exact hn
  · exact absurd h (UInt32.not_le.2 hn)

theorem ofHostCode_of_lt {n : UInt32} (h : 13 < n) : ofHostCode n = .fail := by
  rcases ofHostCode_spec n with hn | ⟨-, hn⟩
  · exact absurd (hn ▸ code_le (ofHostCode n)) (UInt32.not_le.2 h)
  · exact hn

end Status

/-! ## Replays -/

/-- What a sink receives of `reports`, with its responses, and the outcome: `whole` if it refuses
    none of them. -/
inductive Replayed (reports : List Report) (whole : Outcome) :
    List (Report × Response) → Outcome → Prop
  | all : Replayed reports whole (reports.map (·, .proceed)) whole
  /-- The reports up to the first one that is refused. -/
  | cut (before : List Report) {r rest} (h : reports = before ++ r :: rest) :
      Replayed reports whole (before.map (·, .proceed) ++ [(r, .abort)]) ⟨.dataDecodeFatal, 0⟩

theorem Replayed.cons {reports : List Report} {whole outcome : Outcome}
    {notes : List (Report × Response)} (h : Replayed reports whole notes outcome) (r : Report) :
    Replayed (r :: reports) whole ((r, .proceed) :: notes) outcome := by
  cases h with
  | all => exact .all
  | cut before h => exact .cut (r :: before) (congrArg (r :: ·) h)

/-- **A replay goes on until a report is refused**, whatever the sink. -/
theorem replayed_replayElements (sink : Sink σ) (index : UInt64) (traceId : UInt8)
    (whole : Outcome) (elements : List Element) (s : σ) :
    Replayed (elements.map (Report.mk index traceId)) whole
      ((replayElements index traceId whole elements).notes sink s)
      ((replayElements index traceId whole elements).deliver sink s).1 := by
  induction elements generalizing s with
  | nil => exact .all
  | cons x elements ih =>
    rw [replayElements, Reporting.notes, Reporting.deliver_report, List.map_cons]
    cases hx : (sink ⟨index, traceId, x⟩ s).1 with
    | proceed => exact (ih _).cons _
    | abort => exact .cut [] rfl

/-! ## Refusals -/

namespace Delivery

/-- What the collector answers. -/
def answer (d : Delivery) : Response :=
  (Collector.collect d.mem d.report d.collector).1

/-- A report whose event the queue refuses is answered by an abort. -/
theorem refusal?_of_proceed {d : Delivery} (h : d.answer = .proceed) : d.refusal? = none := by
  obtain ⟨mem, r, c⟩ := d
  cases hc : c.latch.first with
  | some e =>
    rw [answer, Collector.collect_of_isSet (by rw [Latch.isSet, hc]; rfl)] at h
    cases h
  | none =>
    rcases Collector.collect_cases hc mem r with ⟨log, he, -, -⟩ | ⟨e, g, log, he, -, hp, -⟩ |
      ⟨e, err, log, -, -, -, hr⟩
    · simp only [refusal?, event?, he, Option.bind_none]
    · simp only [refusal?, event?, he, Option.bind_some, hp]
    · rw [answer, hr] at h
      cases h

/-- If no report is answered by an abort, no event is refused. -/
theorem firstRefusal_of_proceed {ds : List Delivery} {rs : List Report}
    (h : (ds.map fun d => (d.report, d.answer)) = rs.map (·, .proceed)) :
    firstRefusal ds = none ∧ ds.map report = rs := by
  constructor
  · rw [firstRefusal, List.findSome?_eq_none_iff]
    intro d hd
    have hmem : (d.report, d.answer) ∈ rs.map (·, .proceed) := h ▸ List.mem_map_of_mem hd
    obtain ⟨r, -, hr⟩ := List.mem_map.1 hmem
    exact refusal?_of_proceed (congrArg Prod.snd hr).symm
  · have hreports := congrArg (List.map Prod.fst) h
    rw [List.map_map, List.map_map] at hreports
    exact hreports.trans (List.map_id rs)

end Delivery

namespace Collector

theorem notes_collect (mem : Allocator) (t : Reporting α) (c : Collector) :
    t.notes (collect mem) c = (deliveries mem t c).map fun d => (d.report, d.answer) := by
  induction t generalizing c with
  | done a => rfl
  | report r next ih => rw [Reporting.notes, deliveries, List.map_cons, ih]; rfl

theorem deliveries_map {β : Type} (mem : Allocator) (f : α → β) (t : Reporting α) (c : Collector) :
    deliveries mem (t.map f) c = deliveries mem t c := by
  induction t generalizing c with
  | done a => rfl
  | report r next ih => exact congrArg (⟨mem, r, c⟩ :: ·) (ih _ _)

end Collector

/-- **A refused event ends the replay.** -/
theorem Replayed.refused {reports : List Report} {whole outcome : Outcome} {ds : List Delivery}
    {cause : StoreError}
    (h : Replayed reports whole (ds.map fun d => (d.report, d.answer)) outcome)
    (hr : Delivery.firstRefusal ds = some cause) :
    outcome = ⟨.dataDecodeFatal, 0⟩ ∧ ∃ before d rest, ds = before ++ [d] ∧
      Delivery.firstRefusal before = none ∧ d.refusal? = some cause ∧
      reports = ds.map Delivery.report ++ rest := by
  generalize hn : (ds.map fun d => (d.report, d.answer)) = notes at h
  cases h with
  | all =>
    rw [(Delivery.firstRefusal_of_proceed hn).1] at hr
    cases hr
  | @cut before r rest h =>
    -- all deliveries but the last are answered by a proceed, so that it is the one refused
    obtain ⟨ds₁, ds₂, rfl, h₁, h₂⟩ := List.map_eq_append_iff.1 hn
    obtain ⟨d, rfl, hd⟩ := List.map_eq_singleton_iff.1 h₂
    obtain ⟨hnone, rfl⟩ := Delivery.firstRefusal_of_proceed h₁
    obtain rfl : d.report = r := congrArg Prod.fst hd
    have hlast : d.refusal? = some cause := by
      rw [Delivery.firstRefusal, List.findSome?_append, ← Delivery.firstRefusal, hnone] at hr
      simpa using hr
    exact ⟨rfl, ds₁, d, rest, rfl, hnone, hlast, by simp [h]⟩

/-! ## Refusals in a session -/

namespace Session

section
variable {ε : Type} [DecodeEngine ε] {mem : Allocator} {s : Session ε} {op : Op} {dop : DataOp}
  {index : UInt64} {data : ByteArray} {cause : StoreError}

/-- No event is refused if an error was latched before. -/
theorem latch_of_firstRefusal (h : Delivery.firstRefusal (s.deliveries mem op) = some cause) :
    s.latch.first = none := by
  cases hl : s.latch.first with
  | none => rfl
  | some e =>
    rw [deliveries_of_isSet (by rw [Latch.isSet, hl]; rfl)] at h
    cases h

/-- A fatal status after a refused event. -/
theorem perform_of_refusal (hs : s.Reachable) (hd : op.dataOp? = some (dop, index, data))
    (hr : Delivery.firstRefusal (s.deliveries mem op) = some cause)
    (hfatal : (s.deliverTo mem dop index data).1.result.status ∉ Status.tolerated) :
    (s.perform mem op).result = op.answer (.error (.queueExhausted cause)) ∧
    (s.perform mem op).state.phase = .errored ∧
    (s.perform mem op).state.latch =
      { first := some (.queueExhausted cause), suppressed := 1 } := by
  obtain ⟨outcomes, ho⟩ := hs.accounted
  obtain ⟨hclear, -⟩ := ho.clear (latch_of_firstRefusal hr)
  obtain ⟨hresult, hlatch⟩ :=
    (settled_operate hs.valid hclear mem hd op.fatal).exhausted cause hr
  rw [if_neg hfatal] at hlatch
  have hphase := (hs.valid.perform mem op).errored
  rw [perform_of_dataOp hd, Step.map_state] at hphase ⊢
  refine ⟨?_, hphase ?_, hlatch⟩
  · rw [Step.map_result, hresult]
  · rw [hlatch]
    rfl

end

section
variable {η : Type} [DecodeHost η] {s : Session (HostEngine η)} {op : Op} {dop : DataOp}
  {index : UInt64} {data : ByteArray} {reply : HostReply}

/-- A reply that can be read is replayed, with the engine's trace source. -/
theorem process_of_read
    (h : DecodeHost.readReply (s.asked dop index data).1 = .ok reply) :
    DecodeEngine.process dop index data s.engine =
      (reply.replay index s.engine.traceId).map fun outcome =>
        ⟨outcome, { s.engine with host := (s.asked dop index data).2 }, #[]⟩ := by
  unfold asked at h ⊢
  simp only [DecodeEngine.process, h]

/-- What comes to the collector, and the outcome, are those of the replay. -/
theorem replayed_deliveries (mem : Allocator) (hl : s.latch.first = none)
    (hd : op.dataOp? = some (dop, index, data))
    (h : DecodeHost.readReply (s.asked dop index data).1 = .ok reply) :
    Replayed (reply.elements.map (Report.mk index s.engine.traceId))
      ⟨.ofHostCode reply.status, reply.consumed⟩
      ((s.deliveries mem op).map fun d => (d.report, d.answer))
      (s.deliverTo mem dop index data).1.result := by
  rw [deliveries_of_clear hl hd, deliverTo, process_of_read h, Collector.deliveries_map,
    Reporting.deliver_map, ← Collector.notes_collect]
  exact replayed_replayElements ..

end

end Session

/-! ## The replay of a reply -/

namespace HostReply

/-- **How a reply is replayed.**  Whatever the sink, it receives the elements in order, with the
    index and the trace source of the replay, up to the first that it refuses.  If it refuses one,
    the outcome is fatal; else it is what the reply states, and a code above all codes is a
    failure.  In a session, no element comes after the one whose event the queue refuses: the call
    fails with the queue's error, and the fatal outcome is the one error after it. -/
theorem replayed_of_sink (index : UInt64) (traceId : UInt8) (reply : HostReply) :
    let replay := reply.replay index traceId
    let reports := reply.elements.map (Report.mk index traceId)
    let status := Status.ofHostCode reply.status
    (reply.status ≤ 13 → status.code = reply.status) ∧ (13 < reply.status → status = .fail) ∧
    (∀ {σ : Type} (sink : Sink σ) (s : σ), ∃ notes,
      replay.deliver sink.noting (s, []) =
        ((replay.deliver sink s).1, (replay.deliver sink s).2, notes) ∧
      Replayed reports ⟨status, reply.consumed⟩ notes (replay.deliver sink s).1) ∧
    ∀ {η : Type} [DecodeHost η] (mem : Allocator) (s : Session (HostEngine η)) (op : Session.Op)
        (dop : DataOp) (data : ByteArray) (cause : StoreError),
      s.Reachable → s.engine.traceId = traceId → op.dataOp? = some (dop, index, data) →
      DecodeHost.readReply (s.asked dop index data).1 = .ok reply →
      Delivery.firstRefusal (s.deliveries mem op) = some cause →
      let after := s.perform mem op
      (s.deliverTo mem dop index data).1.result = ⟨.dataDecodeFatal, 0⟩ ∧
      (∃ before d rest, s.deliveries mem op = before ++ [d] ∧
        Delivery.firstRefusal before = none ∧ d.refusal? = some cause ∧
        reports = (s.deliveries mem op).map Delivery.report ++ rest) ∧
      after.result = op.answer (.error (.queueExhausted cause)) ∧
      after.state.phase = .errored ∧
      after.state.latch = { first := some (.queueExhausted cause), suppressed := 1 } := by
  intro replay reports status
  refine ⟨Status.code_ofHostCode, Status.ofHostCode_of_lt, ?_, ?_⟩
  · intro σ sink s
    exact ⟨replay.notes sink s, Reporting.deliver_noting sink replay s [],
      replayed_replayElements ..⟩
  · rintro η _ mem s op dop data cause hs rfl hd hread hr after
    have hl := Session.latch_of_firstRefusal hr
    -- the collector is a sink like any other, and its refusals are the queue's
    have hreplayed := Session.replayed_deliveries mem hl hd hread
    obtain ⟨hfatal, hlast⟩ := hreplayed.refused hr
    exact ⟨hfatal, hlast, Session.perform_of_refusal hs hd hr (by rw [hfatal]; decide)⟩

end HostReply

/-! ## A short queue -/

namespace Playback

/-- A host with five events and a code above all codes. -/
def Repeating.flood : Repeating :=
  ⟨.obj [("status", .int 40), ("consumed", .int 16),
    ("elements", .arr [started 1, started 2, started 3, started 4, started 5])]⟩

/-- A new session over that host, whose queue has room for three events. -/
def flooded : Session (HostEngine Repeating) :=
  ⟨config, ⟨.flood, 0x10, none⟩, #[], ⟨Array.replicate 2 none, 0, 0, 4⟩, {}, .configured⟩

theorem reachable_flooded : flooded.Reachable :=
  @Session.Reachable.create (HostEngine Repeating) _ Repeating .standard
    (HostEngine.createTree 0x10 none) config .flood _ rfl

/-- The sink that accepts `n` reports. -/
def accepting : Sink Nat
  | _, 0 => (.abort, 0)
  | _, n + 1 => (.proceed, n)

/-- The reply of that host. -/
def floodReply : HostReply :=
  ⟨40, 16, [1, 2, 3, 4, 5].map fun start => { kind := .traceOn, start }⟩

end Playback

namespace HostReply

open Playback in
/-- The code stands for a failure, but a sink that accepts one report has the replay cut after the
    second one.  The queue of a session accepts three, and the session reports that it is full. -/
theorem replayed_of_sink_flood :
    Status.ofHostCode floodReply.status = .fail ∧
    Replayed (floodReply.elements.map (Report.mk 7 0x10)) ⟨.fail, 16⟩
      [(⟨7, 0x10, { kind := .traceOn, start := 1 }⟩, .proceed),
        (⟨7, 0x10, { kind := .traceOn, start := 2 }⟩, .abort)] ⟨.dataDecodeFatal, 0⟩ ∧
    flooded.Reachable ∧
    let after := flooded.perform .standard (.feed ⟨#[0, 0]⟩ 7)
    after.result = .fed (.error (.queueExhausted (.limitReached 4))) ∧
    after.state.phase = .errored ∧
    after.state.latch = { first := some (.queueExhausted (.limitReached 4)), suppressed := 1 } := by
  obtain ⟨-, hfail, hsink, hsession⟩ := replayed_of_sink 7 0x10 floodReply
  refine ⟨hfail (by decide), ?_, reachable_flooded, ?_⟩
  · obtain ⟨notes, hnotes, hreplayed⟩ := hsink accepting 1
    obtain rfl : _ = notes := congrArg (fun x => x.2.2) hnotes
    exact hreplayed
  · obtain ⟨-, -, hafter⟩ := hsession .standard flooded (.feed ⟨#[0, 0]⟩ 7) .data ⟨#[0, 0]⟩
      (.limitReached 4) reachable_flooded rfl rfl rfl rfl
    exact hafter

end HostReply

end TraceRelay
