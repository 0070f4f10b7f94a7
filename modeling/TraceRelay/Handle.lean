/-
  TraceRelay — handles of sessions.

  A handle outlives its session.  As long as the session lives, the operations
  are the session's; afterwards they fail or find nothing, and destroying again
  does nothing.
-/
import TraceRelay.Session

namespace TraceRelay

/-- A handle of a session. -/
structure Handle (ε : Type) where
  session : Option (Session ε)

namespace Handle

variable {ε φ : Type}

/-- The handle of a session. -/
def ofSession (s : Session ε) : Handle ε :=
  ⟨some s⟩

/-- Runs an operation of the session, or fails if there is none. -/
def onSession {α : Type} (h : Handle ε)
    (operation : Session ε → Step (Session ε) (Except SessionError α)) :
    Step (Handle ε) (Except SessionError α) :=
  match h with
  | ⟨some s⟩ => (operation s).within ofSession
  | ⟨none⟩ => ⟨.error .destroyed, ⟨none⟩, #[]⟩

section
variable [DecodeEngine ε]

/-- Creates a session behind a handle. -/
def create (mem : Allocator) (tree : SourceFormat → φ → Step φ (Except Status ε))
    (config : Config) (factory : φ) : Step φ (Except SessionError (Handle ε)) :=
  (Session.create mem tree config factory).map fun result => result.map ofSession

/-- Registers a memory image. -/
def addImage (h : Handle ε) (path : Path) (loadAddress fileOffset size : UInt64) :
    Step (Handle ε) (Except SessionError Unit) :=
  h.onSession fun s => s.addImage path loadAddress fileOffset size

/-- Feeds bytes. -/
def feed (mem : Allocator) (h : Handle ε) (data : ByteArray) (index : UInt64) :
    Step (Handle ε) (Except SessionError Nat) :=
  h.onSession fun s => s.feed mem data index

/-- Flushes the engine. -/
def flush (mem : Allocator) (h : Handle ε) : Step (Handle ε) (Except SessionError Unit) :=
  h.onSession fun s => s.flush mem

end

/-- Takes the oldest event; there is none once the session is gone. -/
def nextEvent : Handle ε → Option Event × Handle ε
  | ⟨some s⟩ =>
    let (event, s) := s.nextEvent
    (event, ⟨some s⟩)
  | ⟨none⟩ => (none, ⟨none⟩)

/-- Whether the session has latched an error. -/
def hasError (h : Handle ε) : Bool :=
  h.session.any fun s => s.latch.isSet

/-- The text of the session's latched error. -/
def message (h : Handle ε) : Option String :=
  h.session.bind fun s => s.latch.message

/-- The phase. -/
def phase (h : Handle ε) : Phase :=
  (h.session.map Session.phase).getD .destroyed

/-- Destroys the session, or tells that it is gone. -/
def destroy : Handle ε → Step (Handle ε) Bool
  | ⟨some s⟩ => (s.destroy.within fun _ => ⟨none⟩).map fun _ => true
  | ⟨none⟩ => ⟨false, ⟨none⟩, #[.alreadyDestroyed]⟩

end Handle

end TraceRelay
