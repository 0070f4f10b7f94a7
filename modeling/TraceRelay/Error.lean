/-
  TraceRelay — the errors of a session.

  * `SessionError.message` is the text of an error;
  * `SessionError.isFatal` tells the errors that end a session from those of a
    single call;
  * `SessionError.boundedMessage` is the text cut to 255 bytes.
-/
import TraceRelay.Arch
import TraceRelay.Path
import TraceRelay.Ring.Store
import TraceRelay.Status

namespace TraceRelay

/-- The errors of a session. -/
inductive SessionError where
  /-- There is no store for the event queue. -/
  | storeFailed (cause : StoreError)
  /-- The engine created no decode tree. -/
  | treeRefused (status : Status)
  /-- The engine refused the decoder. -/
  | decoderRefused (decoder : Decoder) (status : Status)
  /-- A memory image was rejected. -/
  | imageRejected (path : Path) (status : Status)
  /-- The engine failed on the data at `index`. -/
  | decodeFailed (index : UInt64) (status : Status)
  | flushFailed (status : Status)
  /-- The event queue could not grow while data was decoded. -/
  | queueExhausted (cause : StoreError)
  | destroyed
deriving DecidableEq, Repr

/-- The number of bytes that a latched message may have. -/
def maxMessageBytes : Nat := 255

namespace SessionError

/-- The text of an error. -/
def message : SessionError → String
  | storeFailed cause => "allocation failed: " ++ cause.message
  | treeRefused status => "decode tree creation failed: " ++ status.message
  | decoderRefused decoder status =>
    "create decoder " ++ Named.name decoder ++ " failed: " ++ status.message
  | imageRejected path status =>
    "add memory image failed for " ++ path.text ++ ": " ++ status.message
  | decodeFailed index status => s!"decode error at index {index}: " ++ status.message
  | flushFailed status => "flush failed: " ++ status.message
  | queueExhausted cause => "event buffer exhausted: " ++ cause.message
  | destroyed => "session destroyed"

/-- Whether an error ends the session: all do but a rejected image and a call
    after the end. -/
def isFatal : SessionError → Bool
  | imageRejected .. | destroyed => false
  | _ => true

/-- The text of an error, cut between characters to at most `maxMessageBytes`. -/
def boundedMessage (e : SessionError) : String :=
  Utf8.cut maxMessageBytes e.message

end SessionError

end TraceRelay
