/-
  TraceRelay — the protocol of an engine's calls.

  * `Session.callsOfLife` and `Handle.callsOfLife` are the calls that an engine gets from the
    creation of a session, or of a handle, to the end;
  * `Conforms` are the calls that the protocol allows for the operations of a life, in order;
  * `Handle.passed` are the operations that a handle passes on to its session;
    `Handle.engine?_performAll`: its engine is where these bring it;
  * `conforms_callsOfLife`: every life keeps to the protocol.
-/
import TraceRelay.Proofs.Handle
import TraceRelay.Proofs.Session.Calls

namespace TraceRelay

variable {ε φ : Type}

/-! ## The protocol -/

/-- The calls of a life with the given operations.  The answers are the engine's to choose. -/
inductive Conforms (mem : Allocator) (config : Config) (ops : List Session.Op) :
    List EngineCall → Prop
  /-- There is no store for the queue. -/
  | noStore {cause}
      (hq : (Ring.create mem config.capacity config.slotLimit : Except _ EventQueue) =
        .error cause) :
      Conforms mem config ops []
  | noTree {queue : EventQueue} {status}
      (hq : Ring.create mem config.capacity config.slotLimit = .ok queue) :
      Conforms mem config ops [.createTree (.frameFormatted true) (.error status)]
  | decoder {queue : EventQueue} {answer calls}
      (hq : Ring.create mem config.capacity config.slotLimit = .ok queue)
      (h : Session.Served answer.isOk ops calls) :
      Conforms mem config ops (.createTree (.frameFormatted true) (.ok ()) ::
        .createDecoder ⟨config.traceId, config.arch.setup⟩ answer :: calls)

/-- **In a life that keeps to the protocol no data operation comes after a call that ends them.** -/
theorem Conforms.pairwise {mem : Allocator} {config : Config} {ops : List Session.Op}
    {calls : List EngineCall} (h : Conforms mem config ops calls) :
    calls.Pairwise fun c c' => c'.isProcess = true → c.goesOn = true := by
  cases h with
  | noStore => exact .nil
  | noTree => exact List.pairwise_singleton ..
  | decoder _ h =>
    obtain ⟨hrest, hlive⟩ := h.pairwise
    exact .cons (fun _ _ _ => rfl) (.cons hlive hrest)

/-! ## Sessions -/

namespace Session

variable [DecodeEngine ε]

/-- The calls that an engine gets in the life of a session. -/
def callsOfLife (mem : Allocator) (tree : SourceFormat → φ → Step φ (Except Status ε))
    (config : Config) (factory : φ) (calls : List (Allocator × Op)) : List EngineCall :=
  let made := create mem (Recorded.createTree tree) config ⟨factory, #[]⟩
  match made.result with
  | .error _ => made.state.calls.toList
  | .ok s => (s.performAll calls).state.destroy.state.calls.toList

variable {mem : Allocator} {tree : SourceFormat → φ → Step φ (Except Status ε)} {config : Config}
  {factory : φ}

/-- A creation that fails has made no calls, or one that was refused. -/
theorem conforms_of_create_error {e : SessionError} (ops : List Op)
    (h : (create mem (Recorded.createTree tree) config ⟨factory, #[]⟩).result = .error e) :
    Conforms mem config ops
      (create mem (Recorded.createTree tree) config ⟨factory, #[]⟩).state.calls.toList := by
  cases hq : Ring.create mem config.capacity config.slotLimit with
  | error cause =>
    rw [create_of_noStore hq]
    exact .noStore hq
  | ok queue =>
    cases ht : (tree sessionFormat factory).result with
    | error status =>
      rw [create_of_noTree hq (Recorded.createTree_of_error ht)]
      exact .noTree hq
    | ok engine =>
      rw [create_of_tree hq (Recorded.result_createTree_of_ok ht)] at h
      cases h

theorem conforms_of_create_ok {s : Session (Recorded ε)}
    (h : (create mem (Recorded.createTree tree) config ⟨factory, #[]⟩).result = .ok s)
    (calls : List (Allocator × Op)) :
    Conforms mem config (calls.map Prod.snd) (s.performAll calls).state.engine.calls.toList := by
  obtain ⟨queue, _, hq, -, -⟩ := create_eq_ok h
  obtain ⟨answer, hc, ha⟩ := create_calls h
  obtain ⟨made, hmade, hserved⟩ := served_performAll calls s
  -- a refusal is latched, so that no feed reaches an engine without a decoder
  have hlive : (!s.latch.isSet) = answer.isOk := by
    rcases ha with ⟨rfl, hl, -⟩ | ⟨status, rfl, -, hl⟩ <;> rw [hl] <;> rfl
  rw [hmade, hc]
  exact .decoder hq (hlive ▸ hserved)

theorem conforms_of_life (calls : List (Allocator × Op)) :
    Conforms mem config (calls.map Prod.snd) (callsOfLife mem tree config factory calls) := by
  unfold callsOfLife
  dsimp only
  split
  · rename_i e he
    exact conforms_of_create_error _ he
  · rename_i s hs
    exact conforms_of_create_ok hs calls

end Session

/-! ## Handles -/

namespace Handle

/-- The operation of the session, if there is one that may change it. -/
def Use.toOp? : Use → Option Session.Op
  | .feed data index => some (.feed data index)
  | .flush => some .flush
  | .addImage path loadAddress fileOffset size => some (.addImage path loadAddress fileOffset size)
  | .nextEvent => some .nextEvent
  | .hasError | .message | .phase => none

/-- The operations that come to the session: those before its end. -/
def passed : List (Allocator × Op) → List (Allocator × Session.Op)
  | [] => []
  | (_, .destroy) :: _ => []
  | (mem, .use u) :: calls => (u.toOp?.map (mem, ·)).toList ++ passed calls

variable [DecodeEngine ε]

/-- The calls that an engine gets in the life of a handle. -/
def callsOfLife (mem : Allocator) (tree : SourceFormat → φ → Step φ (Except Status ε))
    (config : Config) (factory : φ) (calls : List (Allocator × Op)) : List EngineCall :=
  let made := create mem (Recorded.createTree tree) config ⟨factory, #[]⟩
  match made.result with
  | .error _ => made.state.calls.toList
  | .ok h =>
    (Life.performAll calls ⟨h, none⟩).state.engine?.elim [] fun engine => engine.calls.toList

theorem state_onSession (mem : Allocator) (u : Use) (s : Session ε) :
    (u.onSession mem s).state =
      (s.performAll (u.toOp?.map (mem, ·)).toList).state := by
  cases u <;> rfl

/-- **The engine of a handle is where the operations that come to its session bring it.** -/
theorem engine?_performAll (calls : List (Allocator × Op)) (s : Session ε) :
    (Life.performAll calls (.live s)).state.engine? =
      some (s.performAll (passed calls)).state.engine := by
  induction calls generalizing s with
  | nil => rfl
  | cons call calls ih =>
    obtain ⟨mem, u | _⟩ := call
    · rw [Step.chain_cons_state, perform_live, Step.within_state, ih, state_onSession, passed,
        Step.chain_append_state]
    · change (Life.performAll calls ⟨⟨none⟩, some s.engine⟩).state.engine? = _
      rw [(performAll_gone calls (some s.engine)).2]
      rfl

theorem conforms_of_life {mem : Allocator} {tree : SourceFormat → φ → Step φ (Except Status ε)}
    {config : Config} {factory : φ} (calls : List (Allocator × Op)) :
    Conforms mem config ((passed calls).map Prod.snd)
      (callsOfLife mem tree config factory calls) := by
  unfold callsOfLife
  dsimp only
  split
  · rename_i e he
    rw [create, Step.map_result] at he
    cases hs : (Session.create mem (Recorded.createTree tree) config ⟨factory, #[]⟩).result with
    | error e' => exact Session.conforms_of_create_error _ hs
    | ok s => rw [hs] at he; cases he
  · rename_i h hh
    obtain ⟨s, hs, rfl⟩ := create_eq_ok hh
    have he := engine?_performAll calls s
    rw [Life.live] at he
    rw [he]
    exact Session.conforms_of_create_ok hs (passed calls)

end Handle

/-! ## Lives -/

/-- **Every life keeps to the protocol.**  For a session these are its operations, and for a
    handle those before its session is destroyed. -/
theorem conforms_callsOfLife [DecodeEngine ε] (mem : Allocator)
    (tree : SourceFormat → φ → Step φ (Except Status ε)) (config : Config) (factory : φ) :
    (∀ calls : List (Allocator × Session.Op),
      let made := Session.callsOfLife mem tree config factory calls
      Conforms mem config (calls.map Prod.snd) made ∧
      made.Pairwise fun c c' => c'.isProcess = true → c.goesOn = true) ∧
    ∀ calls : List (Allocator × Handle.Op),
      let made := Handle.callsOfLife mem tree config factory calls
      Conforms mem config ((Handle.passed calls).map Prod.snd) made ∧
      made.Pairwise fun c c' => c'.isProcess = true → c.goesOn = true := by
  constructor
  · intro calls made
    have h : Conforms mem config (calls.map Prod.snd) made := Session.conforms_of_life calls
    exact ⟨h, h.pairwise⟩
  · intro calls made
    have h : Conforms mem config ((Handle.passed calls).map Prod.snd) made :=
      Handle.conforms_of_life calls
    exact ⟨h, h.pairwise⟩

/-- After a fatal status there is no flush, but an image still comes through. -/
example :
    Session.callsOfLife .standard Playback.tree Playback.config
      { script := [([], ⟨.badPacket, 0⟩)] }
      [(.standard, .feed ⟨#[0, 0]⟩ 0), (.standard, .flush),
        (.standard, .addImage (.ofString "a") 0x1000 0 16)] =
      [.createTree (.frameFormatted true) (.ok ()), .createDecoder Playback.config.decoder (.ok ()),
        .process .data 0 ⟨#[0, 0]⟩ #[] ⟨.badPacket, 0⟩,
        .addImage ⟨0x1000, 0x100F⟩ .any (.ofString "a") 0 (.ok ())] := by
  rfl

end TraceRelay
