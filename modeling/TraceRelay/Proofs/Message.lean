/-
  TraceRelay — the lengths of error texts.

  * `boundedMessage_of_le`: a text that fits is not cut;
  * `SessionError.Latching` are the errors that a session latches.  `Latching.boundedMessage`:
    their texts all fit, whatever the numbers in them.
-/
import Mathlib.Data.Nat.Digits.Defs
import Mathlib.Data.String.Basic
import TraceRelay.Error
import TraceRelay.Proofs.Text.Cut

namespace TraceRelay

theorem SessionError.boundedMessage_of_le {e : SessionError}
    (h : e.message.utf8ByteSize ≤ maxMessageBytes) : e.boundedMessage = e.message :=
  Utf8.cut_of_le h

/-! ## Lengths -/

theorem utf8ByteSize_append_le {s t : String} {m n : Nat} (hs : s.utf8ByteSize ≤ m)
    (ht : t.utf8ByteSize ≤ n) : (s ++ t).utf8ByteSize ≤ m + n := by
  rw [String.utf8ByteSize_append]
  exact Nat.add_le_add hs ht

theorem utf8Len_le (cs : List Char) : String.utf8Len cs ≤ 4 * cs.length := by
  induction cs with
  | nil => rfl
  | cons c cs ih =>
    have hc := c.utf8Size_le_four
    rw [String.utf8Len_cons, List.length_cons]
    omega

/-- A 64-bit number has at most twenty digits.  That a digit is one byte does not matter here. -/
theorem utf8ByteSize_toString_le (n : UInt64) : (toString n).utf8ByteSize ≤ 80 := by
  have hlen : n.toNat.repr.length ≤ 20 :=
    Nat.repr_length n.toNat 20 (by decide) (n.toNat_lt_size.trans (by decide))
  have h := utf8Len_le n.toNat.repr.toList
  rw [String.utf8Len_toList, String.length_toList] at h
  exact h.trans (Nat.mul_le_mul_left 4 hlen)

theorem Status.utf8ByteSize_message_le (status : Status) : status.message.utf8ByteSize ≤ 30 := by
  cases status <;> decide

theorem Decoder.utf8ByteSize_name_le (decoder : Decoder) :
    (Named.name decoder).utf8ByteSize ≤ 6 := by
  cases decoder <;> decide

theorem StoreError.utf8ByteSize_message_le (e : StoreError) : e.message.utf8ByteSize ≤ 121 := by
  cases e with
  | allocationFailed requested =>
    have hfront : "event buffer allocation failed for ".utf8ByteSize ≤ 35 := by decide
    have hback : " slots".utf8ByteSize ≤ 6 := by decide
    exact utf8ByteSize_append_le
      (utf8ByteSize_append_le hfront (utf8ByteSize_toString_le requested)) hback
  | limitReached limit =>
    have hfront : "event buffer limit of ".utf8ByteSize ≤ 22 := by decide
    have hback : " slots reached".utf8ByteSize ≤ 14 := by decide
    have h := utf8ByteSize_append_le
      (utf8ByteSize_append_le hfront (utf8ByteSize_toString_le limit)) hback
    exact h.trans (by decide)

/-! ## The errors of a session -/

namespace SessionError

/-- The errors that a session latches. -/
inductive Latching : SessionError → Prop
  | decoderRefused (decoder : Decoder) (status : Status) : Latching (.decoderRefused decoder status)
  | decodeFailed (index : UInt64) (status : Status) : Latching (.decodeFailed index status)
  | flushFailed (status : Status) : Latching (.flushFailed status)
  | queueExhausted (cause : StoreError) : Latching (.queueExhausted cause)

variable {e : SessionError}

theorem Latching.isFatal (h : e.Latching) : e.isFatal = true := by
  cases h <;> rfl

theorem Latching.utf8ByteSize_message_le (h : e.Latching) :
    e.message.utf8ByteSize ≤ maxMessageBytes := by
  cases h with
  | decoderRefused decoder status =>
    have hfront : "create decoder ".utf8ByteSize ≤ 15 := by decide
    have hback : " failed: ".utf8ByteSize ≤ 9 := by decide
    have h := utf8ByteSize_append_le (utf8ByteSize_append_le
      (utf8ByteSize_append_le hfront decoder.utf8ByteSize_name_le) hback)
      status.utf8ByteSize_message_le
    exact h.trans (by decide)
  | decodeFailed index status =>
    have hfront : "decode error at index ".utf8ByteSize ≤ 22 := by decide
    have hback : ": ".utf8ByteSize ≤ 2 := by decide
    have h := utf8ByteSize_append_le (utf8ByteSize_append_le
      (utf8ByteSize_append_le hfront (utf8ByteSize_toString_le index)) hback)
      status.utf8ByteSize_message_le
    exact h.trans (by decide)
  | flushFailed status =>
    have hfront : "flush failed: ".utf8ByteSize ≤ 14 := by decide
    exact (utf8ByteSize_append_le hfront status.utf8ByteSize_message_le).trans (by decide)
  | queueExhausted cause =>
    have hfront : "event buffer exhausted: ".utf8ByteSize ≤ 24 := by decide
    exact (utf8ByteSize_append_le hfront cause.utf8ByteSize_message_le).trans (by decide)

/-- **What a session latches is never cut.** -/
theorem Latching.boundedMessage (h : e.Latching) : e.boundedMessage = e.message :=
  boundedMessage_of_le h.utf8ByteSize_message_le

end SessionError

end TraceRelay
