/-
  TraceRelay — values handed to a host.

  The host's numbers are exact only up to 2^53, so words of 64 bits go to it as
  big integers and all shorter words as numbers.

  * `HostValue` is what a host can be given;
  * `ToHost α` is how a value of type `α` is presented;
  * `convert` presents a value, or fails as the conversion does.
-/
import TraceRelay.Arch
import TraceRelay.Event

namespace TraceRelay

/-- What a host can be given. -/
inductive HostValue where
  | undefined
  | bool (b : Bool)
  | number (n : Int)
  | bigint (n : Int)
  | text (s : String)
  | list (items : List HostValue)
  | record (members : List (String × HostValue))
deriving Repr, Inhabited

/-- A type whose values can be presented to a host. -/
class ToHost (α : Type) where
  /-- The value as the host gets it. -/
  toHost : α → HostValue

export ToHost (toHost)

instance : ToHost Unit := ⟨fun _ => .undefined⟩
instance : ToHost Bool := ⟨.bool⟩
instance : ToHost String := ⟨.text⟩
instance : ToHost UInt8 := ⟨fun n => .number n.toNat⟩
instance : ToHost UInt32 := ⟨fun n => .number n.toNat⟩
instance : ToHost Int32 := ⟨fun n => .number n.toInt⟩
instance : ToHost UInt64 := ⟨fun n => .bigint n.toNat⟩

instance {α : Type} [ToHost α] : ToHost (List α) :=
  ⟨fun items => .list (items.map toHost)⟩

/-- A flat record of an event. -/
instance : ToHost EventRecord where
  toHost r := .record [
    ("kind", toHost r.code),
    ("timestamp", toHost r.timestamp),
    ("from_addr", toHost r.start),
    ("to_addr", toHost r.stop),
    ("cpu", toHost r.cpu),
    ("exception_number", toHost r.exception)]

/-- The description of a decoder. -/
instance : ToHost DecoderRecord where
  toHost r := .record [
    ("decoder", toHost r.decoder),
    ("traceId", toHost r.traceId),
    ("arch", toHost r.core),
    ("profile", toHost r.profile),
    ("registers", toHost r.registers)]

/-- Presents a value; `fault` is the text of the failure if the conversion
    fails. -/
def convert {α : Type} [ToHost α] (fault : Option String) (a : α) : Except String HostValue :=
  match fault with
  | some text => .error text
  | none => .ok (toHost a)

end TraceRelay
