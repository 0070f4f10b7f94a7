/-
  TraceRelay — memory images.

  An image is a section of a file that lies in the traced address space.

  * `Image.ofFile?` describes `size` bytes of a file, if the addresses that
    they take exist;
  * `Image.range` is the range of those addresses.
-/
import TraceRelay.AddressRange
import TraceRelay.Path

namespace TraceRelay

/-- A file section mapped into the traced address space. -/
structure Image where
  path : Path
  loadAddress : UInt64
  /-- The place of the first byte in the file. -/
  fileOffset : UInt64
  size : UInt64
  /-- The bytes have addresses, and there is at least one. -/
  fits : (AddressRange.ofSize? loadAddress size).isSome
deriving DecidableEq

namespace Image

/-- The image of `size` bytes of a file, from `fileOffset` on, at
    `loadAddress`. -/
def ofFile? (path : Path) (loadAddress fileOffset size : UInt64) : Option Image :=
  if fits : (AddressRange.ofSize? loadAddress size).isSome then
    some { path, loadAddress, fileOffset, size, fits }
  else none

/-- The addresses of an image's bytes. -/
def range (i : Image) : AddressRange :=
  ⟨i.loadAddress, i.loadAddress + (i.size - 1)⟩

/-- Whether an address is one of an image's. -/
def Contains (i : Image) (a : UInt64) : Prop :=
  i.range.Contains a

instance (i : Image) (a : UInt64) : Decidable (i.Contains a) :=
  inferInstanceAs (Decidable (i.range.Contains a))

end Image

end TraceRelay
