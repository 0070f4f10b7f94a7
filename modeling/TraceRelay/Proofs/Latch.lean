/-
  TraceRelay — errors that come to a latch.

  * `Latch.setAll` gives errors to a latch, one after the other;
  * `Latch.setAll_of_first`: a latch that holds an error counts the others, up to the greatest
    64-bit number;
  * `SessionError.isPrefix_boundedMessage`: a latched text is the longest beginning of the
    error's text that fits;
  * `Latch.holds_first`: both, for every first error and all that come after it.
-/
import TraceRelay.Latch
import TraceRelay.Proofs.Run
import TraceRelay.Proofs.Text.Cut

namespace TraceRelay

namespace Latch

/-! ## Errors in turn -/

/-- Gives errors to a latch, one after the other. -/
abbrev setAll : List SessionError → Latch → Step Latch (List SessionError) :=
  Step.chain fun e l => l.set e

theorem set_of_first (first : SessionError) (n : Nat) (e : SessionError) :
    (⟨some first, n⟩ : Latch).set e =
      ⟨first, ⟨some first, min (n + 1) (UInt64.size - 1)⟩, #[.errorSuppressed first e]⟩ :=
  rfl

/-- A latch that holds an error counts the others. -/
theorem setAll_of_first (first : SessionError) {n : Nat} (hn : n ≤ UInt64.size - 1)
    (es : List SessionError) :
    (setAll es ⟨some first, n⟩).result = List.replicate es.length first ∧
      (setAll es ⟨some first, n⟩).state =
        ⟨some first, min (n + es.length) (UInt64.size - 1)⟩ := by
  induction es generalizing n with
  | nil =>
    constructor
    · rfl
    · exact congrArg (Latch.mk (some first)) (Nat.min_eq_left hn).symm
  | cons e es ih =>
    obtain ⟨hr, hs⟩ := ih (n := min (n + 1) (UInt64.size - 1)) (Nat.min_le_right _ _)
    constructor
    · rw [Step.chain_cons_result, set_of_first, hr, List.length_cons, List.replicate_succ]
    · have hcount : min (min (n + 1) (UInt64.size - 1) + es.length) (UInt64.size - 1) =
          min (n + (es.length + 1)) (UInt64.size - 1) := by omega
      rw [Step.chain_cons_state, set_of_first, hs, List.length_cons, hcount]

end Latch

/-! ## The text of the first error -/

namespace SessionError

theorem boundedMessage_isPrefix (e : SessionError) :
    e.boundedMessage.toList <+: e.message.toList :=
  Utf8.cut_isPrefix maxMessageBytes e.message

theorem isPrefix_boundedMessage {e : SessionError} {t : String}
    (ht : t.toList <+: e.message.toList) (hsize : t.utf8ByteSize ≤ maxMessageBytes) :
    t.toList <+: e.boundedMessage.toList :=
  Utf8.isPrefix_cut ht hsize

end SessionError

namespace Latch

/-- **A latch holds the first error.**  Whatever comes after it, every call returns it, the others
    are counted, and the text stays: the longest beginning of the error's text, in whole
    characters, that has at most 255 bytes.  A text that is too long is cut after at least 252
    bytes: stepping back from byte 255, the search passes over three places at most before it
    comes to a boundary, and over no boundary. -/
theorem holds_first (e : SessionError) :
    ∃ message : String,
      (∀ es : List SessionError,
        let run := setAll (e :: es) {}
        run.result = List.replicate (es.length + 1) e ∧
        run.state.first = some e ∧
        run.state.suppressed = min es.length (UInt64.size - 1) ∧
        run.state.message = some message) ∧
      (message.toList <+: e.message.toList ∧ message.utf8ByteSize ≤ 255 ∧
        ∀ t : String, t.toList <+: e.message.toList → t.utf8ByteSize ≤ 255 →
          t.toList <+: message.toList) ∧
      (e.message.utf8ByteSize ≤ 255 → message = e.message) ∧
      (255 < e.message.utf8ByteSize →
        252 ≤ message.utf8ByteSize ∧
        ∃ steps ≤ 3, (Utf8.boundary e.message 255).offset.byteIdx = 255 - steps ∧
          message.utf8ByteSize = 255 - steps ∧
          ∀ k < steps, ¬ String.Pos.Raw.IsValid e.message ⟨255 - k⟩) := by
  have hsize : e.boundedMessage.utf8ByteSize = (Utf8.boundary e.message 255).offset.byteIdx :=
    Utf8.utf8ByteSize_cut 255 e.message
  have hle := Utf8.offset_boundary_le e.message 255
  refine ⟨e.boundedMessage, ?_, ⟨?_, ?_, ?_⟩, ?_, ?_⟩
  · intro es run
    obtain ⟨hr, hs⟩ := setAll_of_first e (Nat.zero_le _) es
    have hstate : run.state = ⟨some e, min (0 + es.length) (UInt64.size - 1)⟩ := hs
    refine ⟨congrArg (e :: ·) hr, ?_, ?_, ?_⟩ <;> rw [hstate]
    · rw [Nat.zero_add]
    · rfl
  · exact e.boundedMessage_isPrefix
  · exact Utf8.utf8ByteSize_cut_le 255 e.message
  · intro t ht htsize
    exact SessionError.isPrefix_boundedMessage ht htsize
  · intro hfits
    exact Utf8.cut_of_le hfits
  · intro hlong
    have hlt := Utf8.lt_boundary_add_four hlong
    refine ⟨by omega, 255 - (Utf8.boundary e.message 255).offset.byteIdx, by omega, by omega,
      by omega, ?_⟩
    intro k hk
    exact Utf8.not_isValid_of_lt (by omega) (Nat.sub_le 255 k)

end Latch

end TraceRelay
