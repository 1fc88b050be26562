import Mathlib
import Attest.PersonalMessage
import Attest.Proofs.Text.Decimal
import Attest.Proofs.Text.Digits

/-!
# Frames of personal messages

In a frame the digits of the length run straight into the message, which may begin with digits of
its own, and a frame can be the beginning of another one. Still no two messages have the same frame:
a longer message has a longer frame, since its length does not take fewer digits. So the length of
the frame tells the length of the message, and that tells where the message begins.

The main statements are `frame_injective` and `digest_unambiguous`.
-/

namespace Attest.PersonalMessage

/-- A frame is the opening, the length in decimal and the message. -/
theorem eq_frame_iff {message framed : Bytes} : framed = frame message ↔ ∃ written,
    Text.IsDecimal message.length written ∧
      framed = Text.bytes opening ++ Text.utf8 written ++ message := by
  simp only [Text.isDecimal_iff, exists_eq_left, frame]

/-- How long the frame of a message of the given length is. -/
def frameLength (length : ℕ) : ℕ :=
  (Text.bytes opening).length + (Text.decimal length).length + length

theorem length_frame (message : Bytes) : (frame message).length = frameLength message.length := by
  have hdigits : Text.byteLength (Text.decimal message.length) =
      (Text.decimal message.length).length := by
    refine Text.byteLength_eq_length fun c hc => ?_
    have hdigit := Char.isDigit_iff_toNat.1 ((Text.isDecimal_decimal _).isDigit c hc)
    exact hdigit.2.trans_lt (by decide)
  rw [frame, List.length_append, List.length_append, frameLength, ← hdigits]
  rfl

/-- **A longer message has a longer frame.** -/
theorem frameLength_strictMono : StrictMono frameLength := by
  intro a b h
  have hdigits := Text.length_decimal_mono h.le
  exact Nat.add_lt_add_of_le_of_lt (Nat.add_le_add_left hdigits _) h

/-- **No two messages have the same frame.** -/
theorem frame_injective : Function.Injective frame := by
  intro message message' h
  have hlength : message.length = message'.length := by
    apply frameLength_strictMono.injective
    rw [← length_frame, ← length_frame, h]
  exact (List.append_inj' h hlength).2

/-- A frame can be the beginning of another one: the `0` is the message here, and the second digit
of its length there. -/
example : frame (Text.bytes "0") <+: frame (Text.bytes "some words") := by decide

/-- **What is signed for a message tells the message.** It is the digest of the frame: the opening,
the length of the message in decimal without leading zeros, and the message. No two messages have a
frame in common, so that two messages with the same digest are a collision of the hash. -/
theorem digest_unambiguous :
    (∀ message framed, framed = frame message ↔ ∃ written,
      Text.IsDecimal message.length written ∧
        framed = Text.bytes opening ++ Text.utf8 written ++ message) ∧
    (∀ message, digest message = keccak256 (frame message)) ∧
    Function.Injective frame ∧
    ∀ message message', message ≠ message' → digest message = digest message' →
      frame message ≠ frame message' ∧ keccak256 (frame message) = keccak256 (frame message') := by
  refine ⟨fun message framed => eq_frame_iff, fun message => rfl, frame_injective, ?_⟩
  intro message message' hne hdigest
  exact ⟨frame_injective.ne hne, hdigest⟩

end Attest.PersonalMessage
