/-
  TraceRelay — the calls that a session makes of its engine.

  * `EngineCall.goesOn`: data operations may follow a call;
  * `calls_operate` and `isSet_operate`: a data operation is one call, and the latch is
    clear after it iff data operations may follow;
  * `Served` are the calls that operations make of an engine, in order.  `Served.pairwise`:
    no data operation comes after a call that ends them;
  * `served_performAll`: what a run asks of the engine is served.
-/
import TraceRelay.Proofs.AddressRange
import TraceRelay.Proofs.Session.Creation
import TraceRelay.Proofs.Session.Frozen

namespace TraceRelay

variable {α ε φ : Type}

/-- An engine was told to stop iff the latch is set in the end. -/
theorem Collector.abort_mem_responses_iff (mem : Allocator) {c : Collector} (t : Reporting α)
    (hc : c.latch.first = none) : .abort ∈ t.responses (collect mem) c ↔
      (t.deliver (collect mem) c).2.latch.isSet = true := by
  induction t generalizing c with
  | done a => simp [Reporting.responses, Latch.isSet, hc]
  | report r next ih =>
    rw [Reporting.responses, Reporting.deliver_report, Array.mem_append]
    rcases collect_cases hc mem r with ⟨log, -, -, hr⟩ | ⟨e, g, log, -, -, -, hr⟩ |
      ⟨e, err, log, -, -, -, hr⟩ <;> rw [hr]
    · simpa using ih .proceed (c := ⟨c.queue, c.latch, log⟩) hc
    · simpa using ih .proceed (c := ⟨(c.queue.push mem e).2, c.latch, log⟩) hc
    · rw [deliver_of_isSet _ rfl]
      simp [Latch.isSet]

/-- Whether data operations may follow a call: the decoder was not refused; the operation did
    not end with a fatal status, and it was not told to stop. -/
def EngineCall.goesOn : EngineCall → Bool
  | .createDecoder _ answer => answer.isOk
  | .process _ _ _ responses outcome =>
    decide (outcome.status.disposition ≠ .fatal ∧ .abort ∉ responses)
  | _ => true

namespace Session

/-! ## Creation -/

/-- **What creation asks of the engine**, and what it makes of the answer. -/
theorem create_calls [DecodeEngine ε] {mem : Allocator}
    {tree : SourceFormat → φ → Step φ (Except Status ε)} {config : Config} {factory : φ}
    {s : Session (Recorded ε)}
    (h : (create mem (Recorded.createTree tree) config ⟨factory, #[]⟩).result = .ok s) :
    ∃ answer, s.engine.calls =
        #[.createTree sessionFormat (.ok ()), .createDecoder config.decoder answer] ∧
      ((answer = .ok () ∧ s.latch = {} ∧ s.phase = .configured) ∨
        ∃ status, answer = .error status ∧ s.phase = .errored ∧
          s.latch = { first := some (.decoderRefused config.decoder.setup.decoder status) }) := by
  obtain ⟨queue, engine, -, he, rfl⟩ := create_eq_ok h
  have hcalls : engine.calls = #[.createTree sessionFormat (.ok ())] := by
    cases ht : (tree sessionFormat factory).result with
    | error status =>
      rw [Recorded.createTree_of_error ht] at he
      cases he
    | ok inner =>
      rw [Recorded.result_createTree_of_ok ht] at he
      rw [← Except.ok.inj he]
  have hmade : (DecodeEngine.createDecoder config.decoder engine).state.calls =
      #[.createTree sessionFormat (.ok ()), .createDecoder config.decoder
        (DecodeEngine.createDecoder config.decoder engine).result] := by
    change engine.calls.push _ = _
    rw [hcalls]
    rfl
  rcases configure_state (⟨config, engine, #[], queue, {}, .created⟩ : Session (Recorded ε)) with
    ⟨hr, hc⟩ | ⟨status, hr, hc⟩ <;> rw [hc] <;> refine ⟨_, hmade, ?_⟩
  · exact Or.inl ⟨hr, rfl, rfl⟩
  · exact Or.inr ⟨status, hr, rfl, rfl⟩

/-! ## Data operations -/

theorem latchAfter_isSet (l : Latch) (status : Status) (fatal : SessionError) :
    (latchAfter l status fatal).isSet = (l.isSet || decide (status.disposition = .fatal)) := by
  unfold latchAfter
  split
  · rename_i hf
    rw [Latch.isSet, Latch.set_state_first, decide_eq_true hf, Bool.or_true]
    rfl
  · rename_i hf
    rw [decide_eq_false hf, Bool.or_false]

section
variable [DecodeEngine ε] {mem : Allocator} {s : Session (Recorded ε)} {dop : DataOp}
  {index : UInt64} {data : ByteArray} {fatal : Status → SessionError}

/-- A data operation as it is recorded. -/
def record (mem : Allocator) (s : Session (Recorded ε)) (dop : DataOp) (index : UInt64)
    (data : ByteArray) : EngineCall :=
  .process dop index data
    ((DecodeEngine.process dop index data s.engine.inner).responses (Collector.collect mem)
      ⟨s.queue, s.latch, #[]⟩)
    (s.deliverTo mem dop index data).1.result

theorem calls_operate (h : s.latch.first = none) :
    (s.operate mem dop index data fatal).state.engine.calls =
      s.engine.calls.push (s.record mem dop index data) := by
  rw [(operate_of_clear h).1]
  simp only [deliverTo, record, Recorded.deliver_process]
  rfl

theorem isSet_operate (h : s.latch.first = none) :
    (s.operate mem dop index data fatal).state.latch.isSet =
      !(s.record mem dop index data).goesOn := by
  have ha := Collector.abort_mem_responses_iff mem (c := ⟨s.queue, s.latch, #[]⟩)
    (DecodeEngine.process dop index data s.engine.inner) h
  rw [(operate_of_clear h).1, latchAfter_isSet]
  simp only [deliverTo, record, EngineCall.goesOn, Recorded.deliver_process, Step.within_result, ha]
  rw [Bool.eq_iff_iff]
  simp only [Bool.or_eq_true, decide_eq_true_iff, Bool.not_eq_true', decide_eq_false_iff_not,
    ne_eq, Decidable.not_and_iff_or_not, Decidable.not_not]
  exact or_comm

/-! ## Images -/

/-- The engine is asked iff the bytes have addresses, and then about these. -/
theorem calls_addImage (s : Session (Recorded ε)) (path : Path)
    (loadAddress fileOffset size : UInt64) :
    let s' := (s.addImage path loadAddress fileOffset size).state
    (AddressRange.ofSize? loadAddress size = none ∧ s'.engine = s.engine) ∨
    ∃ range answer, AddressRange.ofSize? loadAddress size = some range ∧
      s'.engine.calls = s.engine.calls.push (.addImage range .any path fileOffset answer) := by
  intro s'
  cases hi : Image.ofFile? path loadAddress fileOffset size with
  | none =>
    refine Or.inl ⟨Image.ofFile?_eq_none_iff.1 hi, ?_⟩
    simp only [s', addImage, hi]
  | some image =>
    refine Or.inr ⟨image.range,
      (DecodeEngine.addImage image.range .any path fileOffset s.engine.inner).result,
      Image.ofSize?_of_ofFile? hi, ?_⟩
    simp only [s', addImage, hi]
    split <;> rfl

end

/-! ## What is asked of an engine -/

/-- The calls that operations make of an engine, in order.  Feeds and flushes reach it as long as
    it is `live`; images do always, if there are addresses for them. -/
inductive Served : Bool → List Op → List EngineCall → Prop
  | nil {live} : Served live [] []
  /-- The engine has no part in the taking of events. -/
  | take {live op ops calls} (hp : op.produces = false) (h : Served live ops calls) :
      Served live (op :: ops) calls
  | feed {data index responses outcome ops calls}
      (h : Served (EngineCall.process .data index data responses outcome).goesOn ops calls) :
      Served true (.feed data index :: ops) (.process .data index data responses outcome :: calls)
  | flush {responses outcome ops calls}
      (h : Served (EngineCall.process .flush 0 .empty responses outcome).goesOn ops calls) :
      Served true (.flush :: ops) (.process .flush 0 .empty responses outcome :: calls)
  /-- A feed or a flush that comes too late. -/
  | late {op ops calls} (hd : op.dataOp?.isSome = true) (h : Served false ops calls) :
      Served false (op :: ops) calls
  | image {live path loadAddress fileOffset size last answer ops calls} (hs : 0 < size.toNat)
      (hl : last.toNat = loadAddress.toNat + (size.toNat - 1)) (h : Served live ops calls) :
      Served live (.addImage path loadAddress fileOffset size :: ops)
        (.addImage ⟨loadAddress, last⟩ .any path fileOffset answer :: calls)
  /-- The image is empty, or reaches beyond the last address. -/
  | misfit {live path loadAddress fileOffset size ops calls}
      (hs : size = 0 ∨ UInt64.size < loadAddress.toNat + size.toNat) (h : Served live ops calls) :
      Served live (.addImage path loadAddress fileOffset size :: ops) calls

/-- **No data operation comes after a call that ends them.** -/
theorem Served.pairwise {live : Bool} {ops : List Op} {calls : List EngineCall}
    (h : Served live ops calls) :
    calls.Pairwise (fun c c' => c'.isProcess = true → c.goesOn = true) ∧
      ∀ c ∈ calls, c.isProcess = true → live = true := by
  induction h with
  | nil => simp
  | take _ _ ih => exact ih
  | feed _ ih | flush _ ih => exact ⟨.cons ih.2 ih.1, fun _ _ _ => rfl⟩
  | late _ _ ih => exact ih
  | image _ _ _ ih =>
    refine ⟨.cons (fun _ _ _ => rfl) ih.1, ?_⟩
    intro c hc hp
    rcases List.mem_cons.1 hc with rfl | hc
    · cases hp
    · exact ih.2 c hc hp
  | misfit _ _ ih => exact ih

theorem Served.process {op : Op} {dop : DataOp} {index : UInt64} {data : ByteArray}
    {responses : Array Response} {outcome : Outcome} {ops : List Op} {calls : List EngineCall}
    (hd : op.dataOp? = some (dop, index, data))
    (h : Served (EngineCall.process dop index data responses outcome).goesOn ops calls) :
    Served true (op :: ops) (.process dop index data responses outcome :: calls) := by
  cases op with
  | feed => cases hd; exact .feed h
  | flush => cases hd; exact .flush h
  | addImage | nextEvent | drain => cases hd

variable [DecodeEngine ε]

/-! ## The step -/

/-- **What an operation asks of the engine** comes before what later ones ask. -/
theorem served_perform (mem : Allocator) (op : Op) (s : Session (Recorded ε)) :
    ∃ made, (s.perform mem op).state.engine.calls.toList = s.engine.calls.toList ++ made ∧
      ∀ ops calls, Served (!(s.perform mem op).state.latch.isSet) ops calls →
        Served (!s.latch.isSet) (op :: ops) (made ++ calls) := by
  cases hd : op.dataOp? with
  | some x =>
    obtain ⟨dop, index, data⟩ := x
    rw [perform_of_dataOp hd, Step.map_state]
    cases hl : s.latch.first with
    | some e =>
      rw [operate_of_isSet hl, Latch.isSet, hl]
      refine ⟨[], (List.append_nil _).symm, ?_⟩
      intro ops calls h
      exact .late (by rw [hd]; rfl) h
    | none =>
      rw [calls_operate hl, isSet_operate hl, Bool.not_not, Latch.isSet, hl]
      refine ⟨[s.record mem dop index data], Array.toList_push, ?_⟩
      intro ops calls h
      exact .process hd h
  | none =>
    cases op with
    | feed | flush => cases hd
    | nextEvent | drain => exact ⟨[], (List.append_nil _).symm, fun ops calls h => .take rfl h⟩
    | addImage path loadAddress fileOffset size =>
      obtain ⟨engine, images, -, hs⟩ := s.addImage_state path loadAddress fileOffset size
      have hlatch : (s.addImage path loadAddress fileOffset size).state.latch = s.latch := by
        rw [hs]
      rw [perform, Step.map_state, hlatch]
      rcases calls_addImage s path loadAddress fileOffset size with ⟨hr, hc⟩ |
        ⟨range, answer, hr, hc⟩
      · refine ⟨[], by rw [hc, List.append_nil], ?_⟩
        intro ops calls h
        exact .misfit (AddressRange.ofSize?_eq_none_iff.1 hr) h
      · obtain ⟨first, last⟩ := range
        obtain ⟨hpos, hfirst, hlast⟩ := AddressRange.ofSize?_eq_some_iff.1 hr
        obtain rfl : first = loadAddress := hfirst
        refine ⟨[.addImage ⟨first, last⟩ .any path fileOffset answer], ?_, ?_⟩
        · rw [hc, Array.toList_push]
        · intro ops calls h
          exact .image hpos hlast h

/-! ## The run -/

theorem served_performAll (calls : List (Allocator × Op)) (s : Session (Recorded ε)) :
    ∃ made, (s.performAll calls).state.engine.calls.toList = s.engine.calls.toList ++ made ∧
      Served (!s.latch.isSet) (calls.map Prod.snd) made := by
  induction calls generalizing s with
  | nil => exact ⟨[], (List.append_nil _).symm, .nil⟩
  | cons call calls ih =>
    obtain ⟨made, hmade, hserved⟩ := served_perform call.1 call.2 s
    obtain ⟨rest, hrest, hs⟩ := ih (s.perform call.1 call.2).state
    refine ⟨made ++ rest, ?_, hserved _ _ hs⟩
    rw [Step.chain_cons_state, hrest, hmade, List.append_assoc]

end Session

end TraceRelay
