/-
  TraceRelay — cutting texts between characters.

  A text is cut at the last boundary of a character that is not after a given byte.  No
  character has more than four bytes, so that the boundary is at most three bytes before it.

  * `le_boundary_iff`: which places lie before the cut;
  * `lt_boundary_add_four` and `not_isValid_of_lt`: how far the search for it goes, and
    what it passes over;
  * `splits_cut`: the cut text ends there;
  * `cut_isPrefix`, `utf8ByteSize_cut_le` and `isPrefix_cut`: it is the longest beginning of the
    text that fits.
-/
import TraceRelay.Text.Utf8

namespace TraceRelay.Utf8

variable {s t : String} {n m limit : Nat}

/-! ## The place of the cut -/

/-- Stepping back finds the greatest position that is not after byte `n`. -/
theorem boundary_eq_posLE (s : String) (n : Nat) : boundary s n = s.posLE ⟨n⟩ := by
  induction n with
  | zero =>
    symm
    rw [boundary, String.posLE_eq_iff]
    constructor
    · simp
    · intro p hp
      exact hp
  | succ n ih =>
    rw [boundary]
    by_cases h : String.Pos.Raw.IsValid s ⟨n + 1⟩
    · rw [dif_pos h, String.posLE_eq_pos h]
    · rw [dif_neg h, ih]
      symm
      rw [String.posLE_eq_iff]
      constructor
      · exact Nat.le_succ_of_le String.offset_posLE_le
      · intro p hp
        rw [String.le_posLE_iff]
        rcases Nat.lt_or_eq_of_le hp with hlt | heq
        · exact Nat.le_of_lt_succ hlt
        · exact absurd (String.Pos.Raw.ext heq ▸ p.isValid) h

theorem le_boundary_iff {p : s.Pos} : p ≤ boundary s n ↔ p.offset.byteIdx ≤ n := by
  rw [boundary_eq_posLE, String.le_posLE_iff, String.Pos.Raw.le_iff]

theorem offset_boundary_le (s : String) (n : Nat) : (boundary s n).offset.byteIdx ≤ n :=
  le_boundary_iff.1 (String.Pos.le_refl _)

/-- The character after the cut would not fit, and has at most four bytes. -/
theorem lt_boundary_add_four (h : n < s.utf8ByteSize) :
    n < (boundary s n).offset.byteIdx + 4 := by
  have hend : boundary s n ≠ s.endPos := by
    intro he
    have hle := offset_boundary_le s n
    rw [he, String.offset_endPos, String.byteIdx_rawEndPos] at hle
    omega
  have hnext : ¬ (boundary s n).next hend ≤ boundary s n :=
    Std.not_le.2 String.Pos.lt_next
  rw [le_boundary_iff, String.Pos.byteIdx_offset_next] at hnext
  have hsize := ((boundary s n).get hend).utf8Size_le_four
  omega

/-- What the search passes over is no boundary. -/
theorem not_isValid_of_lt (h : (boundary s n).offset.byteIdx < m) (hm : m ≤ n) :
    ¬ String.Pos.Raw.IsValid s ⟨m⟩ := by
  intro hv
  have hle : s.pos ⟨m⟩ hv ≤ boundary s n := le_boundary_iff.2 hm
  exact Nat.not_le.2 h hle

/-! ## The text that is left -/

theorem cut_of_le (h : s.utf8ByteSize ≤ limit) : cut limit s = s :=
  if_pos h

/-- A text that fits is cut at its end. -/
theorem cut_eq (limit : Nat) (s : String) : cut limit s = (s.sliceTo (boundary s limit)).copy := by
  by_cases h : s.utf8ByteSize ≤ limit
  · have hend : boundary s limit = s.endPos :=
      Std.le_antisymm (String.Pos.le_endPos _) (le_boundary_iff.2 h)
    rw [cut_of_le h, hend]
    simp
  · exact if_neg h

theorem splits_cut (limit : Nat) (s : String) :
    ∃ rest, (boundary s limit).Splits (cut limit s) rest := by
  rw [cut_eq]
  exact ⟨_, String.Pos.splits _⟩

theorem utf8ByteSize_cut (limit : Nat) (s : String) :
    (cut limit s).utf8ByteSize = (boundary s limit).offset.byteIdx := by
  obtain ⟨rest, hs⟩ := splits_cut limit s
  rw [hs.offset_eq_rawEndPos, String.byteIdx_rawEndPos]

theorem utf8ByteSize_cut_le (limit : Nat) (s : String) : (cut limit s).utf8ByteSize ≤ limit := by
  rw [utf8ByteSize_cut]
  exact offset_boundary_le s limit

theorem cut_isPrefix (limit : Nat) (s : String) : (cut limit s).toList <+: s.toList := by
  obtain ⟨rest, hs⟩ := splits_cut limit s
  have happ := congrArg String.toList hs.eq_append
  rw [String.toList_append] at happ
  exact ⟨rest.toList, happ.symm⟩

/-- **No longer beginning of the text fits.** -/
theorem isPrefix_cut (ht : t.toList <+: s.toList) (hsize : t.utf8ByteSize ≤ limit) :
    t.toList <+: (cut limit s).toList := by
  obtain ⟨cs, hcs⟩ := ht
  have happ : s = t ++ String.ofList cs := by
    rw [← String.toList_inj, String.toList_append, String.toList_ofList, hcs]
  obtain ⟨rest, hs⟩ := splits_cut limit s
  have hpos := String.Pos.splits_ofEqAppend happ
  have hle : String.Pos.ofEqAppend happ ≤ boundary s limit := by
    rw [le_boundary_iff, hpos.offset_eq_rawEndPos, String.byteIdx_rawEndPos]
    exact hsize
  obtain ⟨more, hmore, -⟩ := (hpos.le_iff_exists_eq_append hs).1 hle
  rw [hmore, String.toList_append]
  exact List.prefix_append _ _

/-- Four bytes hold all of the second character but one byte, and so none of it. -/
example : cut 4 "a𝒫" = "a" := by
  decide

end TraceRelay.Utf8
