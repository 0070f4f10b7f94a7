/-
  TraceRelay — ranges of addresses as ranges of numbers.

  * `ofSize?_eq_none_iff` and `ofSize?_eq_some_iff`: there is a range of `size` addresses from
    `start` iff there are any and the last of them is a 64-bit number;
  * `Image.ofFile?_eq_none_iff` and `Image.ofSize?_of_ofFile?`: a file has an image iff its bytes
    have addresses, and the image has these.
-/
import TraceRelay.Image

namespace TraceRelay

namespace AddressRange

variable {start size : UInt64} {r : AddressRange}

/-- The last address is computed modulo 2^64. -/
theorem toNat_last (start : UInt64) (h : size ≠ 0) :
    (start + (size - 1)).toNat = (start.toNat + (size.toNat - 1)) % UInt64.size := by
  have hs : size.toNat ≠ 0 := fun h0 => h (UInt64.toNat_inj.1 h0)
  have h1 : (1 : UInt64) ≤ size := UInt64.le_iff_toNat_le.2 (Nat.pos_of_ne_zero hs)
  rw [UInt64.toNat_add, UInt64.toNat_sub_of_le _ _ h1]
  rfl

/-- It has wrapped iff it is not a 64-bit number. -/
theorem last_lt_iff (h : size ≠ 0) :
    start + (size - 1) < start ↔ UInt64.size < start.toNat + size.toNat := by
  have hs : size.toNat ≠ 0 := fun h0 => h (UInt64.toNat_inj.1 h0)
  have hsize := size.toNat_lt_size
  have hstart := start.toNat_lt_size
  rw [UInt64.lt_iff_toNat_lt, toNat_last start h]
  rcases Nat.lt_or_ge (start.toNat + (size.toNat - 1)) UInt64.size with hlt | hge
  · rw [Nat.mod_eq_of_lt hlt]; omega
  · rw [Nat.mod_eq_sub_mod hge, Nat.mod_eq_of_lt (by omega)]; omega

theorem ofSize?_eq_none_iff :
    ofSize? start size = none ↔ size = 0 ∨ UInt64.size < start.toNat + size.toNat := by
  by_cases h : size = 0
  · simp [ofSize?, h]
  · simp [ofSize?, h, last_lt_iff h]

theorem ofSize?_eq_some_iff : ofSize? start size = some r ↔
    0 < size.toNat ∧ r.first = start ∧ r.last.toNat = start.toNat + (size.toNat - 1) := by
  obtain ⟨first, last⟩ := r
  by_cases h : size = 0
  · simp [ofSize?, h]
  · have hs : 0 < size.toNat := Nat.pos_of_ne_zero fun h0 => h (UInt64.toNat_inj.1 h0)
    have hlast := toNat_last start h
    simp only [ofSize?, h, last_lt_iff h, false_or, hs, true_and]
    split
    · rename_i hlt
      have := last.toNat_lt_size
      exact iff_of_false nofun fun ⟨_, hl⟩ => by omega
    · rename_i hlt
      rw [Nat.mod_eq_of_lt (by omega)] at hlast
      simp only [Option.some.injEq, AddressRange.mk.injEq, ← hlast, UInt64.toNat_inj]
      exact and_congr eq_comm eq_comm

end AddressRange

namespace Image

variable {path : Path} {loadAddress fileOffset size : UInt64} {image : Image}

theorem ofFile?_eq_none_iff :
    ofFile? path loadAddress fileOffset size = none ↔
      AddressRange.ofSize? loadAddress size = none := by
  simp [ofFile?]

theorem ofSize?_of_ofFile? (h : ofFile? path loadAddress fileOffset size = some image) :
    AddressRange.ofSize? loadAddress size = some image.range := by
  unfold ofFile? at h
  split at h
  · rename_i fits
    obtain rfl := Option.some.inj h
    obtain ⟨r, hr⟩ := Option.isSome_iff_exists.1 fits
    unfold AddressRange.ofSize? at hr ⊢
    dsimp only at hr ⊢
    split at hr
    · cases hr
    · rename_i hs
      exact if_neg hs
  · cases h

end Image

end TraceRelay
