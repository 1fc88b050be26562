import Mathlib
import Attest.Proofs.Entropy
import Attest.Proofs.Ownership

/-!
# New keys

A new key holds the first random block that spells a scalar other than zero. The blocks before it
are used up, the blocks after it are left; and if no block is of use there is no key, and no block
left. So a key that was made can be used.

The main statements are `generate_eq_ok_iff`, `generate_eq_error_iff` and `generate_exact`.
-/

namespace Attest.Key

open Curve

variable {entropy rest : Entropy}

/-- **A key is made** of what is drawn. -/
theorem generate_eq_ok_iff {key : Key} : generate entropy = (.ok key, rest) ↔
    key.state = .live ∧ entropy.draw = (some key.secret, rest) := by
  obtain ⟨secret, state⟩ := key
  rw [generate]
  rcases entropy.draw with ⟨_ | drawn, left⟩
  · simp
  · simp only [Prod.mk.injEq, Except.ok.injEq, Key.mk.injEq, Option.some.injEq]
    tauto

/-- **No key is made** where nothing is drawn. -/
theorem generate_eq_error_iff {error : Error} : generate entropy = (.error error, rest) ↔
    error = .noEntropy ∧ entropy.draw = (none, rest) := by
  rw [generate]
  rcases entropy.draw with ⟨_ | drawn, left⟩
  · simp only [Prod.mk.injEq, Except.error.injEq]
    tauto
  · simp

/-- A key that was made can be used. -/
theorem isUsable_of_generate {key : Key} (h : generate entropy = (.ok key, rest)) :
    key.IsUsable :=
  isSecret_iff.1 (Entropy.draw_eq_some_iff.1 (generate_eq_ok_iff.1 h).2).1

/-- The only thing that can keep a key that can be used from signing is the search for a nonce. -/
theorem sign_of_not_searchEnds {key : Key} {message : Bytes} (h : key.IsUsable)
    (hends : ¬key.SearchEnds message) : key.sign message = .error .noNonce := by
  have hnone : Ecdsa.sign? key.secretScalar (PersonalMessage.digest message) = none :=
    Option.not_isSome_iff_eq_none.1 (mt Ecdsa.isSome_sign?_iff.1 hends)
  rw [sign, scalar_eq h]
  refine (pure_bind _ _).trans ?_
  rw [hnone]

/-- A key is made as long as there is a block for it. -/
theorem exists_generate_iff : (∃ key rest, generate entropy = (.ok key, rest)) ↔
    ∃ block ∈ entropy, 0 < block.toNat ∧ block.toNat < order := by
  constructor
  · rintro ⟨key, rest, h⟩
    obtain ⟨-, hdraw⟩ := generate_eq_ok_iff.1 h
    obtain ⟨hsecret, skipped, rfl, -⟩ := Entropy.draw_eq_some_iff.1 hdraw
    exact ⟨key.secret, by simp, isSecret_iff.1 hsecret⟩
  · rintro ⟨block, hblock, hrange⟩
    have hpos : 0 < entropy.countP isSecret :=
      List.countP_pos_iff.2 ⟨block, hblock, isSecret_iff.2 hrange⟩
    obtain ⟨secret, rest, hdraw, -⟩ := Entropy.exists_draw hpos
    exact ⟨⟨secret, .live⟩, rest, generate_eq_ok_iff.2 ⟨rfl, hdraw⟩⟩

/-- **Keys are made exactly of the first block that will do.** There is a key if some block spells a
scalar other than zero. It is live, its secret is the first such block, and all blocks after that
are left. Otherwise the error is that there is no entropy, and all blocks are used up. A key that
was made has an address and signs every message; nothing but a search for a nonce that does not end
could keep it from that. -/
theorem generate_exact (entropy : Entropy) :
    ((∃ key rest, generate entropy = (.ok key, rest)) ↔
      ∃ block ∈ entropy, 0 < block.toNat ∧ block.toNat < order) ∧
    (∀ key rest, generate entropy = (.ok key, rest) ↔
      key.state = .live ∧ (0 < key.secret.toNat ∧ key.secret.toNat < order) ∧
        ∃ skipped, entropy = skipped ++ key.secret :: rest ∧
          ∀ block ∈ skipped, ¬(0 < block.toNat ∧ block.toNat < order)) ∧
    (∀ error rest, generate entropy = (.error error, rest) ↔
      error = .noEntropy ∧ rest = [] ∧
        ∀ block ∈ entropy, ¬(0 < block.toNat ∧ block.toNat < order)) ∧
    ∀ key rest, generate entropy = (.ok key, rest) →
      (∃ address, key.address = .ok address) ∧
      ∀ message, (key.SearchEnds message → ∃ signature,
          key.sign message = .ok signature ∧ key.signHex message = .ok signature.hex) ∧
        (¬key.SearchEnds message → key.sign message = .error .noNonce) := by
  refine ⟨exists_generate_iff, ?_, ?_, ?_⟩
  · intro key rest
    simp only [generate_eq_ok_iff, Entropy.draw_eq_some_iff, isSecret_iff, isSecret_eq_false_iff]
  · intro error rest
    simp only [generate_eq_error_iff, Entropy.draw_eq_none_iff, isSecret_eq_false_iff]
  · intro key rest h
    have husable := isUsable_of_generate h
    refine ⟨exists_address husable, fun message => ⟨fun hends => ?_, ?_⟩⟩
    · obtain ⟨scalars, hsign, -⟩ := exists_signature husable hends
      exact ⟨Signature.ofScalars scalars, hsign, signHex_of_sign hsign⟩
    · exact sign_of_not_searchEnds husable

/-- The zero block is passed over, and the last block is left. -/
theorem generate_exact_worn :
    generate [Octets.ofNat 32 0, worn.secret, Octets.ofNat 32 5] =
        (.ok ⟨worn.secret, .live⟩, [Octets.ofNat 32 5]) ∧
      SearchEnds ⟨worn.secret, .live⟩ (Text.bytes "Some data") ∧
      (∃ own, address ⟨worn.secret, .live⟩ = .ok own) ∧
      ∃ signature, sign ⟨worn.secret, .live⟩ (Text.bytes "Some data") = .ok signature := by
  have hskipped : ∀ block ∈ [Octets.ofNat 32 0], ¬(0 < block.toNat ∧ block.toNat < order) := by
    decide
  obtain ⟨-, hmade, -, hworks⟩ := generate_exact
    [Octets.ofNat 32 0, worn.secret, Octets.ofNat 32 5]
  have hkey := (hmade ⟨worn.secret, .live⟩ [Octets.ofNat 32 5]).2
    ⟨rfl, isUsable_worn, [Octets.ofNat 32 0], rfl, hskipped⟩
  obtain ⟨haddress, hsigns⟩ := hworks _ _ hkey
  obtain ⟨signature, hsign, -⟩ := (hsigns _).1 searchEnds_worn
  exact ⟨hkey, searchEnds_worn, haddress, signature, hsign⟩

/-- Zero and the order are passed over, and the last scalar is not. -/
example : generate [Octets.ofNat 32 0, Octets.ofNat 32 order, Octets.ofNat 32 (order - 1),
      Octets.ofNat 32 1] =
    (.ok ⟨Octets.ofNat 32 (order - 1), .live⟩, [Octets.ofNat 32 1]) := by
  decide +kernel

end Attest.Key
