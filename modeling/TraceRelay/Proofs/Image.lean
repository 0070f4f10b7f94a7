/-
  TraceRelay — the addresses of a memory image, as numbers.

  A range is computed in two ways: with a test for the wrap when an image is made, and without
  one from an image that is there.  Both are exact, up to the last address of the 64-bit space.

  * `AddressRange.Addressable`: there are addresses for some number of bytes;
  * `AddressRange.ncard_contains`: the number of addresses in a range;
  * `Image.toNat_last_range`: the computation without a test does not wrap;
  * `Image.contains_exactly`: ranges and images hold exactly the addresses of their bytes.
-/
import Mathlib.Data.Set.Card
import Mathlib.Order.Interval.Finset.Nat
import TraceRelay.Proofs.AddressRange

namespace TraceRelay

namespace AddressRange

variable {start size a : UInt64} {r : AddressRange}

/-- There is a byte, and all bytes from `start` on have 64-bit addresses. -/
def Addressable (start size : UInt64) : Prop :=
  1 ≤ size.toNat ∧ start.toNat + size.toNat ≤ UInt64.size

instance (start size : UInt64) : Decidable (Addressable start size) :=
  inferInstanceAs (Decidable (_ ∧ _))

theorem isSome_ofSize?_iff : (ofSize? start size).isSome = true ↔ Addressable start size := by
  rw [Option.isSome_iff_ne_none, Ne, ofSize?_eq_none_iff, ← UInt64.toNat_inj]
  simp only [Addressable, UInt64.toNat_zero]
  omega

/-! ## Members -/

theorem contains_iff : r.Contains a ↔ a.toNat ∈ Set.Icc r.first.toNat r.last.toNat := by
  simp [Contains, UInt64.le_iff_toNat_le]

theorem contains_ofSize?_iff (h : ofSize? start size = some r) :
    r.Contains a ↔ start.toNat ≤ a.toNat ∧ a.toNat < start.toNat + size.toNat := by
  obtain ⟨hpos, rfl, hlast⟩ := ofSize?_eq_some_iff.1 h
  rw [contains_iff, Set.mem_Icc, hlast]
  omega

/-- The numbers of the addresses in a range are an interval. -/
theorem toNat_image_contains (r : AddressRange) :
    UInt64.toNat '' {a | r.Contains a} = Finset.Icc r.first.toNat r.last.toNat := by
  ext n
  rw [Finset.coe_Icc]
  constructor
  · rintro ⟨a, ha, rfl⟩
    exact contains_iff.1 ha
  · intro hn
    have hlt : n < UInt64.size := Nat.lt_of_le_of_lt hn.2 r.last.toNat_lt_size
    have ha : (UInt64.ofNat n).toNat = n := UInt64.toNat_ofNat_of_lt' hlt
    refine ⟨UInt64.ofNat n, contains_iff.2 ?_, ha⟩
    rwa [ha]

theorem ncard_contains (r : AddressRange) :
    {a | r.Contains a}.ncard = r.last.toNat + 1 - r.first.toNat := by
  have hinj : Function.Injective UInt64.toNat := fun _ _ => UInt64.toNat_inj.1
  rw [← Set.ncard_image_of_injective _ hinj, toNat_image_contains, Set.ncard_coe_finset,
    Nat.card_Icc]

end AddressRange

namespace Image

open AddressRange

variable {path : Path} {loadAddress fileOffset size : UInt64} {image : Image}

/-! ## Images -/

/-- The arguments of the call that an image comes from. -/
def arguments (i : Image) : Path × UInt64 × UInt64 × UInt64 :=
  (i.path, i.loadAddress, i.fileOffset, i.size)

/-- What an engine is told of an image. -/
def mapping (i : Image) : AddressRange × Path × UInt64 :=
  (i.range, i.path, i.fileOffset)

theorem mapping_of_arguments (h : image.arguments = (path, loadAddress, fileOffset, size)) :
    image.mapping = (⟨loadAddress, loadAddress + (size - 1)⟩, path, fileOffset) := by
  simp only [arguments, Prod.mk.injEq] at h
  obtain ⟨rfl, rfl, rfl, rfl⟩ := h
  rfl

theorem isSome_ofFile?_iff : (ofFile? path loadAddress fileOffset size).isSome = true ↔
    Addressable loadAddress size := by
  rw [← isSome_ofSize?_iff, Option.isSome_iff_ne_none, Option.isSome_iff_ne_none]
  exact not_congr ofFile?_eq_none_iff

theorem arguments_of_ofFile? (h : ofFile? path loadAddress fileOffset size = some image) :
    image.arguments = (path, loadAddress, fileOffset, size) := by
  unfold ofFile? at h
  split at h
  · obtain rfl := Option.some.inj h
    rfl
  · cases h

/-- **The last address is computed without a wrap**: neither does the size less one fall below
    zero, nor does the sum leave the 64-bit space. -/
theorem toNat_last_range (image : Image) :
    1 ≤ image.size.toNat ∧
    image.loadAddress.toNat + (image.size.toNat - 1) < UInt64.size ∧
    image.range.last.toNat = image.loadAddress.toNat + (image.size.toNat - 1) := by
  obtain ⟨hpos, hfits⟩ := isSome_ofSize?_iff.1 image.fits
  have hlt : image.loadAddress.toNat + (image.size.toNat - 1) < UInt64.size := by omega
  have hne : image.size ≠ 0 := by
    intro h0
    rw [h0] at hpos
    exact absurd hpos (by decide)
  refine ⟨hpos, hlt, ?_⟩
  rw [range, AddressRange.toNat_last _ hne, Nat.mod_eq_of_lt hlt]

/-- **Ranges and images hold exactly the addresses of their bytes.**  There is a range of `size`
    addresses from `start` iff there is a byte and the exact sum of the two is at most 2^64, and it
    holds these addresses and no others; an image can be made of the same numbers, and its range,
    which is computed without a test, is that range. -/
theorem contains_exactly (start size : UInt64) :
    ((ofSize? start size).isSome = true ↔
      1 ≤ size.toNat ∧ start.toNat + size.toNat ≤ UInt64.size) ∧
    (∀ r, ofSize? start size = some r →
      (∀ a, r.Contains a ↔ start.toNat ≤ a.toNat ∧ a.toNat < start.toNat + size.toNat) ∧
      {a | r.Contains a}.ncard = size.toNat ∧
      (start.toNat + size.toNat = UInt64.size → r.Contains 0xFFFFFFFFFFFFFFFF)) ∧
    ∀ path fileOffset,
      ((ofFile? path start fileOffset size).isSome = true ↔
        (ofSize? start size).isSome = true) ∧
      ∀ image, ofFile? path start fileOffset size = some image →
        image.arguments = (path, start, fileOffset, size) ∧
        (1 ≤ image.size.toNat ∧
          image.loadAddress.toNat + (image.size.toNat - 1) < UInt64.size ∧
          image.range.last.toNat = image.loadAddress.toNat + (image.size.toNat - 1)) ∧
        ofSize? start size = some image.range ∧
        ∀ a, image.Contains a ↔ start.toNat ≤ a.toNat ∧ a.toNat < start.toNat + size.toNat := by
  refine ⟨isSome_ofSize?_iff, ?_, ?_⟩
  · intro r hr
    refine ⟨fun a => contains_ofSize?_iff hr, ?_, ?_⟩
    · obtain ⟨hpos, rfl, hlast⟩ := ofSize?_eq_some_iff.1 hr
      rw [ncard_contains, hlast]
      omega
    · intro htop
      rw [contains_ofSize?_iff hr, htop]
      have hpos := (ofSize?_eq_some_iff.1 hr).1
      have hmax : (0xFFFFFFFFFFFFFFFF : UInt64).toNat = UInt64.size - 1 := rfl
      omega
  · intro path fileOffset
    refine ⟨isSome_ofFile?_iff.trans isSome_ofSize?_iff.symm, ?_⟩
    intro image hi
    have hrange := ofSize?_of_ofFile? hi
    exact ⟨arguments_of_ofFile? hi, image.toNat_last_range, hrange,
      fun a => contains_ofSize?_iff hrange⟩

/-- The last two addresses are a range, and no range reaches beyond them. -/
theorem contains_exactly_top :
    let r : AddressRange := ⟨0xFFFFFFFFFFFFFFFE, 0xFFFFFFFFFFFFFFFF⟩
    ofSize? 0xFFFFFFFFFFFFFFFE 2 = some r ∧
    {a | r.Contains a}.ncard = 2 ∧ r.Contains 0xFFFFFFFFFFFFFFFF ∧
    ¬ (ofSize? 0xFFFFFFFFFFFFFFFE 3).isSome = true ∧
    ∃ image, ofFile? (.ofString "app") 0xFFFFFFFFFFFFFFFE 0 2 = some image ∧
      ofSize? 0xFFFFFFFFFFFFFFFE 2 = some image.range := by
  intro r
  have hr : ofSize? 0xFFFFFFFFFFFFFFFE 2 = some r := rfl
  obtain ⟨-, hrange, himage⟩ := contains_exactly 0xFFFFFFFFFFFFFFFE 2
  obtain ⟨-, hcard, htop⟩ := hrange r hr
  obtain ⟨hsome, hall⟩ := himage (.ofString "app") 0
  obtain ⟨image, hi⟩ := Option.isSome_iff_exists.1 (hsome.2 (by rw [hr]; rfl))
  obtain ⟨-, -, heq, -⟩ := hall image hi
  exact ⟨hr, hcard, htop rfl, mt (contains_exactly 0xFFFFFFFFFFFFFFFE 3).1.1 (by decide),
    image, hi, heq⟩

end Image

end TraceRelay
