/-
  TraceRelay — a handle is its session, until that is destroyed.

  * `Handle.Use` are the operations that a handle passes on to its session; with `destroy` they
    are the operations of a handle (`Handle.Op`);
  * `Use.onSession` performs one on a session, and `Handle.perform` on a handle;
  * `Life` is a handle with the engine that it has released;
  * `perform_live` and `perform_gone`: what an operation does while the session lives, and
    after its end;
  * `run_of_life`: both for whole runs.
-/
import TraceRelay.Engine.Recorder
import TraceRelay.Handle
import TraceRelay.Proofs.Session.Run

namespace TraceRelay

variable {ε φ : Type}

namespace Handle

/-! ## Operations -/

/-- The operations that a handle passes on to its session. -/
inductive Use where
  | feed (data : ByteArray) (index : UInt64)
  | flush
  | addImage (path : Path) (loadAddress fileOffset size : UInt64)
  | nextEvent
  | hasError
  | message
  | phase

/-- The operations of a handle. -/
inductive Op where
  | use (u : Use)
  | destroy

/-- What an operation answers. -/
inductive Answer where
  /-- The number of bytes consumed. -/
  | fed (result : Except SessionError Nat)
  | flushed (result : Except SessionError Unit)
  | imageAdded (result : Except SessionError Unit)
  | event (event : Option Event)
  | hasError (result : Bool)
  | message (text : Option String)
  | phase (phase : Phase)
  /-- Whether there was a session to destroy. -/
  | destroyed (result : Bool)

section
variable [DecodeEngine ε]

/-- Performs an operation on a session. -/
def Use.onSession (mem : Allocator) : Use → Session ε → Step (Session ε) Answer
  | .feed data index, s => (s.feed mem data index).map .fed
  | .flush, s => (s.flush mem).map .flushed
  | .addImage path loadAddress fileOffset size, s =>
    (s.addImage path loadAddress fileOffset size).map .imageAdded
  | .nextEvent, s => ⟨.event s.nextEvent.1, s.nextEvent.2, #[]⟩
  | .hasError, s => ⟨.hasError s.latch.isSet, s, #[]⟩
  | .message, s => ⟨.message s.latch.message, s, #[]⟩
  | .phase, s => ⟨.phase s.phase, s, #[]⟩

/-- Performs an operation on a handle. -/
def perform (mem : Allocator) : Op → Handle ε → Step (Handle ε) Answer
  | .use (.feed data index), h => (h.feed mem data index).map .fed
  | .use .flush, h => (h.flush mem).map .flushed
  | .use (.addImage path loadAddress fileOffset size), h =>
    (h.addImage path loadAddress fileOffset size).map .imageAdded
  | .use .nextEvent, h => ⟨.event h.nextEvent.1, h.nextEvent.2, #[]⟩
  | .use .hasError, h => ⟨.hasError h.hasError, h, #[]⟩
  | .use .message, h => ⟨.message h.message, h, #[]⟩
  | .use .phase, h => ⟨.phase h.phase, h, #[]⟩
  | .destroy, h => h.destroy.map .destroyed

end

/-- What a handle answers when its session is gone. -/
def Op.afterEnd : Op → Answer
  | .use (.feed ..) => .fed (.error .destroyed)
  | .use .flush => .flushed (.error .destroyed)
  | .use (.addImage ..) => .imageAdded (.error .destroyed)
  | .use .nextEvent => .event none
  | .use .hasError => .hasError false
  | .use .message => .message none
  | .use .phase => .phase .destroyed
  | .destroy => .destroyed false

/-! ## The life of a handle -/

/-- A handle, and the engine once that is released. -/
structure Life (ε : Type) where
  handle : Handle ε
  released : Option ε := none

namespace Life

/-- The handle of a session that has its engine. -/
def live (s : Session ε) : Life ε :=
  ⟨ofSession s, none⟩

/-- The engine, wherever it is. -/
def engine? (l : Life ε) : Option ε :=
  l.released <|> l.handle.session.map Session.engine

/-- Performs an operation.  The engine that a session leaves at its end is released. -/
def perform [DecodeEngine ε] (mem : Allocator) : Op → Life ε → Step (Life ε) Answer
  | .use u, l => (Handle.perform mem (.use u) l.handle).within fun handle => { l with handle }
  | .destroy, l => (Handle.perform mem .destroy l.handle).within fun handle =>
    ⟨handle, (l.handle.session.map fun s => s.destroy.state) <|> l.released⟩

/-- Performs operations one after the other, each with the allocator that it meets. -/
abbrev performAll [DecodeEngine ε] : List (Allocator × Op) → Life ε → Step (Life ε) (List Answer) :=
  Step.chain fun call => perform call.1 call.2

end Life

end Handle

/-- Performs on a session what a handle would pass on to it. -/
abbrev Session.useAll [DecodeEngine ε] :
    List (Allocator × Handle.Use) → Session ε → Step (Session ε) (List Handle.Answer) :=
  Step.chain fun call => call.2.onSession call.1

namespace Handle

open Life

variable [DecodeEngine ε]

/-! ## Creation -/

theorem create_eq_ok {mem : Allocator} {tree : SourceFormat → φ → Step φ (Except Status ε)}
    {config : Config} {factory : φ} {h : Handle ε}
    (hh : (create mem tree config factory).result = .ok h) :
    ∃ s, (Session.create mem tree config factory).result = .ok s ∧ h = ofSession s := by
  rw [create, Step.map_result] at hh
  cases hs : (Session.create mem tree config factory).result with
  | error e => rw [hs] at hh; cases hh
  | ok s =>
    rw [hs] at hh
    exact ⟨s, rfl, (Except.ok.inj hh).symm⟩

/-! ## The step -/

/-- While the session lives, an operation is the session's. -/
theorem perform_live (mem : Allocator) (u : Use) (s : Session ε) :
    Life.perform mem (.use u) (live s) = (u.onSession mem s).within live := by
  cases u <;> rfl

/-- After its end nothing changes any more. -/
theorem perform_gone (mem : Allocator) (op : Op) (released : Option ε) :
    (Life.perform mem op ⟨⟨none⟩, released⟩).result = op.afterEnd ∧
      (Life.perform mem op ⟨⟨none⟩, released⟩).state = ⟨⟨none⟩, released⟩ := by
  rcases op with u | _
  · cases u <;> exact ⟨rfl, rfl⟩
  · exact ⟨rfl, rfl⟩

/-! ## The run -/

theorem performAll_live (uses : List (Allocator × Use)) (s : Session ε) :
    Life.performAll (uses.map fun call => (call.1, .use call.2)) (live s) =
      (s.useAll uses).within live := by
  rw [Life.performAll, Step.chain_map]
  exact (Step.chain_within (fun call s => (perform_live call.1 call.2 s).symm) uses s).symm

theorem performAll_gone (calls : List (Allocator × Op)) (released : Option ε) :
    (Life.performAll calls ⟨⟨none⟩, released⟩).result = calls.map (fun call => call.2.afterEnd) ∧
      (Life.performAll calls ⟨⟨none⟩, released⟩).state = ⟨⟨none⟩, released⟩ := by
  induction calls with
  | nil => exact ⟨rfl, rfl⟩
  | cons call calls ih =>
    obtain ⟨hr, hs⟩ := perform_gone call.1 call.2 released
    rw [Step.chain_cons_result, Step.chain_cons_state, hr, hs, ih.1, ih.2]
    exact ⟨rfl, rfl⟩

/-- A run on which the session ends. -/
theorem performAll_ended (uses : List (Allocator × Use)) (mem : Allocator)
    (rest : List (Allocator × Op)) (s : Session ε) :
    let bare := s.useAll uses
    let run := Life.performAll
      (uses.map (fun call => (call.1, .use call.2)) ++ (mem, .destroy) :: rest) (live s)
    run.result = bare.result ++ .destroyed true :: rest.map (fun call => call.2.afterEnd) ∧
      run.state = ⟨⟨none⟩, some bare.state.engine⟩ := by
  intro bare run
  have hlive := performAll_live uses s
  obtain ⟨hresult, hstate⟩ := performAll_gone rest (some bare.state.engine)
  constructor
  · calc run.result
        = (Life.performAll (uses.map fun call => (call.1, .use call.2)) (live s)).result ++
            (Life.performAll ((mem, .destroy) :: rest) (Life.performAll
              (uses.map fun call => (call.1, .use call.2)) (live s)).state).result :=
          Step.chain_append_result ..
      _ = bare.result ++ .destroyed true ::
            (Life.performAll rest ⟨⟨none⟩, some bare.state.engine⟩).result := by rw [hlive]; rfl
      _ = bare.result ++ .destroyed true :: rest.map (fun call => call.2.afterEnd) := by
          rw [hresult]
  · calc run.state
        = (Life.performAll ((mem, .destroy) :: rest) (Life.performAll
            (uses.map fun call => (call.1, .use call.2)) (live s)).state).state :=
          Step.chain_append_state ..
      _ = (Life.performAll rest ⟨⟨none⟩, some bare.state.engine⟩).state := by rw [hlive]; rfl
      _ = ⟨⟨none⟩, some bare.state.engine⟩ := hstate

/-- **A handle is its session until that is destroyed**: it is created as one, and answers as one,
    with the same calls of the engine and the same state.  The end comes once.  After it there is
    nothing but the answers of a session that is gone, and no call of the engine. -/
theorem run_of_life :
    (∀ (mem : Allocator) (tree : SourceFormat → φ → Step φ (Except Status ε)) (config : Config)
      (factory : φ), create mem tree config factory =
        (Session.create mem tree config factory).map fun made => made.map ofSession) ∧
    ∀ (s : Session (Recorded ε)) (uses : List (Allocator × Use)),
      let bare := s.useAll uses
      let calls := uses.map fun call => (call.1, Op.use call.2)
      Life.performAll calls (live s) = bare.within live ∧
      ∀ (mem : Allocator) (rest : List (Allocator × Op)),
        let run := Life.performAll (calls ++ (mem, .destroy) :: rest) (live s)
        run.result = bare.result ++ .destroyed true :: rest.map (fun call => call.2.afterEnd) ∧
        run.state.handle = ⟨none⟩ ∧
        run.state.engine?.map Recorded.calls = some bare.state.engine.calls := by
  refine ⟨fun _ _ _ _ => rfl, ?_⟩
  intro s uses bare calls
  refine ⟨performAll_live uses s, ?_⟩
  intro mem rest run
  obtain ⟨hresult, hstate⟩ := performAll_ended uses mem rest s
  refine ⟨hresult, ?_⟩
  rw [hstate]
  exact ⟨rfl, rfl⟩

end Handle

end TraceRelay
