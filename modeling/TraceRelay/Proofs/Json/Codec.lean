/-
  TraceRelay — lawful codecs.

  A codec is lawful if what it has written is read as the value that it was written for.  The
  codecs of plain values are, and those made of lawful ones.

  * `Codec.Lawful.write_inj`: different values are written differently;
  * `Codec.lawful_integer`: words, by their range;
  * `Codec.mapM_eq_ok`: a list is read if all its items are;
  * `Codec.lawful_list`, `Codec.lawful_optional`, `Codec.lawful_named`.
-/
import Mathlib.Data.List.Forall2
import TraceRelay.Config
import TraceRelay.Element
import TraceRelay.Json.Codec

namespace TraceRelay

namespace Codec

variable {α : Type} {c : Codec α}

/-- What was written is read as the value that it was written for. -/
def Lawful (c : Codec α) : Prop :=
  ∀ a, c.read (c.write a) = .ok a

@[simp] theorem Lawful.write_inj (h : c.Lawful) {a b : α} : c.write a = c.write b ↔ a = b := by
  constructor
  · intro hab
    have ha : c.read (c.write b) = .ok a := hab ▸ h a
    exact Except.ok.inj (ha.symm.trans (h b))
  · rintro rfl
    rfl

theorem write_ite (c : Codec α) (p : Prop) [Decidable p] (a b : α) :
    c.write (if p then a else b) = if p then c.write a else c.write b :=
  apply_ite c.write p a b

/-! ## Plain values -/

@[simp] theorem lawful_bool : bool.Lawful :=
  fun _ => rfl

@[simp] theorem lawful_text : text.Lawful :=
  fun _ => rfl

theorem lawful_integer {low high : Int} {ofInt : Int → α} {toInt : α → Int}
    (hrange : ∀ a, low ≤ toInt a ∧ toInt a ≤ high) (hinverse : ∀ a, ofInt (toInt a) = a) :
    (integer low high ofInt toInt).Lawful := by
  intro a
  show (if low ≤ toInt a ∧ toInt a ≤ high then _ else _) = _
  rw [if_pos (hrange a), hinverse]

@[simp] theorem lawful_word8 : word8.Lawful := by
  refine lawful_integer (fun a => ?_) fun a => ?_
  · have := a.toNat_lt
    omega
  · rw [Int.toNat_natCast, UInt8.ofNat_toNat]

@[simp] theorem lawful_word32 : word32.Lawful := by
  refine lawful_integer (fun a => ?_) fun a => ?_
  · have := a.toNat_lt
    omega
  · rw [Int.toNat_natCast, UInt32.ofNat_toNat]

@[simp] theorem lawful_word64 : word64.Lawful := by
  refine lawful_integer (fun a => ?_) fun a => ?_
  · have := a.toNat_lt
    omega
  · rw [Int.toNat_natCast, UInt64.ofNat_toNat]

@[simp] theorem lawful_int32 : int32.Lawful := by
  refine lawful_integer (fun a => ?_) fun a => ?_
  · exact ⟨a.le_toInt, Int.le_of_lt_add_one a.toInt_lt⟩
  · rw [Int32.ofInt_toInt]

/-! ## Lists and optional values -/

theorem mapM_eq_ok {ε : Type} {read : Json → Except ε α} {items : List Json} {as : List α}
    (h : List.Forall₂ (fun j a => read j = .ok a) items as) : items.mapM read = .ok as := by
  induction h with
  | nil => rfl
  | cons hj _ ih =>
    rw [List.mapM_cons, hj, ih]
    rfl

@[simp] theorem lawful_list (h : c.Lawful) : (list c).Lawful := by
  intro as
  refine mapM_eq_ok ?_
  rw [List.forall₂_map_left_iff, List.forall₂_same]
  exact fun a _ => h a

theorem read_optional {j : Json} (h : j ≠ .null) : (optional c).read j = (c.read j).map some := by
  cases j with
  | null => exact absurd rfl h
  | _ => rfl

theorem lawful_optional (h : c.Lawful) (hnull : ∀ a, c.write a ≠ .null) :
    (optional c).Lawful := by
  rintro (_ | a)
  · rfl
  · show (optional c).read (c.write a) = _
    rw [read_optional (hnull a), h a]
    rfl

/-! ## Named values -/

theorem lawful_named [Named α] (h : ∀ a : α, Named.find? α (Named.name a) = some a) :
    (named : Codec α).Lawful := by
  intro a
  show variant α (Named.name a) = _
  rw [variant, h a]

@[simp] theorem lawful_elementKind : (named : Codec Element.Kind).Lawful :=
  lawful_named fun k => by cases k <;> rfl

@[simp] theorem lawful_lastInstr : (named : Codec LastInstr).Lawful :=
  lawful_named fun i => by cases i <;> rfl

@[simp] theorem lawful_arch : (named : Codec Arch).Lawful :=
  lawful_named fun a => by cases a <;> rfl

end Codec

end TraceRelay
