import Mathlib
import Attest.Record
import Attest.Proofs.Address
import Attest.Proofs.Ownership

/-!
# Verdicts on ownership

Ownership is checked in two places, by `Recovery.confirms` and by `Record.verify`, and both compare
a claim with the recovered address as texts. They come to the same verdict, and since a text names
one address at most, a message and a signature prove the ownership of one address only. On claims
that are accepted as addresses, comparing texts is comparing addresses.

The main statements are `Recovery.confirms_iff`, `Recovery.names_iff_of_parse` and
`Record.checks_agree`.
-/

namespace Attest

namespace Recovery

variable {claim : String} {message : Bytes} {signature : String} {address : Address}

/-- A claim names an address exactly if it is, trimmed, the lower-case text of the address up to the
case of letters. -/
theorem names_iff :
    names claim address = true ↔
      Text.lower (Text.trim claim.toList) = address.lowercased.toList := by
  have hlower : Text.lower address.lowercased.toList = address.lowercased.toList :=
    Address.lower_toList_of_parse (Address.parse_eq_ok_iff.2 (.inl rfl))
  rw [names, Text.eqIgnoringCase_iff, hlower]
  exact eq_comm

/-- **A claim names one address** at most. -/
theorem names_unique {other : Address} (h : names claim address = true)
    (h' : names claim other = true) : address = other := by
  rw [names_iff] at h h'
  exact Address.lowercased_injective (String.toList_inj.1 (h.symm.trans h'))

/-- An accepted text has no blank characters around it. -/
theorem trim_of_parse (h : Address.parse claim = .ok address) :
    Text.trim claim.toList = claim.toList := by
  obtain ⟨digits, htext, hdigits⟩ := Address.exists_of_accepted (Address.parse_eq_ok_iff.1 h)
  rw [htext]
  apply Address.trim_marked
  intro c hc
  exact Hex.not_isBlank_of_isDigit (Address.isDigit_of_lower_eq hdigits c hc)

/-- **A claim that is accepted as an address** names this address and no other. -/
theorem names_iff_of_parse {other : Address} (h : Address.parse claim = .ok address) :
    names claim other = true ↔ other = address := by
  rw [names_iff, trim_of_parse h, Address.lower_toList_of_parse h, String.toList_inj,
    Address.lowercased_injective.eq_iff]
  exact eq_comm

theorem signer?_eq_some_iff :
    signer? message signature = some address ↔ signer message signature = .ok address := by
  rw [signer?]
  cases signer message signature with
  | error error => simp [Except.toOption]
  | ok found => simp [Except.toOption]

/-- A claim is confirmed exactly if it names the signer. -/
theorem confirms_iff :
    confirms claim message signature = true ↔
      ∃ address, signer message signature = .ok address ∧ names claim address = true := by
  rw [confirms]
  simp only [← signer?_eq_some_iff]
  cases signer? message signature with
  | none => simp
  | some found => simp

end Recovery

namespace Record

variable {record : Record}

/-- Verifying ends in one of three ways, by what recovery gives and by what the claim names. -/
theorem verify_cases (record : Record) :
    (∃ error, Recovery.signer (Text.bytes record.message) record.signature = .error error ∧
      record.verify = .unrecoverable error.message) ∨
    ∃ address, Recovery.signer (Text.bytes record.message) record.signature = .ok address ∧
      (Recovery.names record.address address = true ∧
        record.verify = .confirmed address.lowercased ∨
      Recovery.names record.address address = false ∧
        record.verify = .mismatch record.address address.lowercased) := by
  rw [verify]
  cases Recovery.signer (Text.bytes record.message) record.signature with
  | error error => exact .inl ⟨error, rfl, rfl⟩
  | ok address =>
    refine .inr ⟨address, rfl, ?_⟩
    cases hnames : Recovery.names record.address address with
    | true => exact .inl ⟨rfl, if_pos hnames⟩
    | false => exact .inr ⟨rfl, if_neg (Bool.not_eq_true _ ▸ hnames)⟩

theorem verify_eq_confirmed_iff {told : String} :
    record.verify = .confirmed told ↔
      ∃ address, Recovery.signer (Text.bytes record.message) record.signature = .ok address ∧
        Recovery.names record.address address = true ∧ told = address.lowercased := by
  obtain ⟨error, hsigner, hverify⟩ | ⟨address, hsigner, ⟨hnames, hverify⟩ | ⟨hnames, hverify⟩⟩ :=
    record.verify_cases
  · simp [hsigner, hverify]
  · simp only [hsigner, hverify, hnames, Verdict.confirmed.injEq, Except.ok.injEq, true_and,
      exists_eq_left']
    exact eq_comm
  · simp [hsigner, hverify, hnames]

theorem verify_eq_mismatch_iff {claimed recovered : String} :
    record.verify = .mismatch claimed recovered ↔
      ∃ address, Recovery.signer (Text.bytes record.message) record.signature = .ok address ∧
        Recovery.names record.address address = false ∧ claimed = record.address ∧
        recovered = address.lowercased := by
  obtain ⟨error, hsigner, hverify⟩ | ⟨address, hsigner, ⟨hnames, hverify⟩ | ⟨hnames, hverify⟩⟩ :=
    record.verify_cases
  · simp [hsigner, hverify]
  · simp [hsigner, hverify, hnames]
  · simp only [hsigner, hverify, hnames, Verdict.mismatch.injEq, Except.ok.injEq, true_and,
      exists_eq_left']
    exact and_congr eq_comm eq_comm

theorem verify_eq_unrecoverable_iff {reason : String} :
    record.verify = .unrecoverable reason ↔
      ∃ error, Recovery.signer (Text.bytes record.message) record.signature = .error error ∧
        reason = error.message := by
  obtain ⟨error, hsigner, hverify⟩ | ⟨address, hsigner, ⟨hnames, hverify⟩ | ⟨hnames, hverify⟩⟩ :=
    record.verify_cases
  · simp only [hsigner, hverify, Verdict.unrecoverable.injEq, Except.error.injEq, exists_eq_left']
    exact eq_comm
  · simp [hsigner, hverify]
  · simp [hsigner, hverify]

theorem isConfirmed_verify_iff :
    record.verify.isConfirmed = true ↔
      ∃ address, Recovery.signer (Text.bytes record.message) record.signature = .ok address ∧
        Recovery.names record.address address = true := by
  obtain ⟨error, hsigner, hverify⟩ | ⟨address, hsigner, ⟨hnames, hverify⟩ | ⟨hnames, hverify⟩⟩ :=
    record.verify_cases
  · simp [hsigner, hverify, Verdict.isConfirmed, Verdict.kind]
  · simp [hsigner, hverify, hnames, Verdict.isConfirmed, Verdict.kind]
  · simp [hsigner, hverify, hnames, Verdict.isConfirmed, Verdict.kind]

/-- **All checks of ownership agree.** A claim is confirmed exactly if a record of it is, in
whatever version, and that is exactly if the text of the recovered address is the trimmed claim up
to the case of letters. The verdict tells the recovered address, the claim as it stands where that
is another one, and the reason where nobody is recovered. A message and a signature confirm claims
to one address only; and a claim that is accepted as an address is confirmed exactly if this address
is recovered. -/
theorem checks_agree (claim message signature version : String) :
    (Recovery.confirms claim (Text.bytes message) signature = true ↔
      (verify ⟨claim, message, signature, version⟩).isConfirmed = true) ∧
    (Recovery.confirms claim (Text.bytes message) signature = true ↔
      ∃ address, Recovery.signer (Text.bytes message) signature = .ok address ∧
        Text.eqIgnoringCase address.lowercased.toList (Text.trim claim.toList) = true) ∧
    (∀ version', verify ⟨claim, message, signature, version'⟩ =
      verify ⟨claim, message, signature, version⟩) ∧
    (∀ told, verify ⟨claim, message, signature, version⟩ = .confirmed told ↔
      ∃ address, Recovery.signer (Text.bytes message) signature = .ok address ∧
        Recovery.names claim address = true ∧ told = address.lowercased) ∧
    (∀ claimed recovered,
      verify ⟨claim, message, signature, version⟩ = .mismatch claimed recovered ↔
      ∃ address, Recovery.signer (Text.bytes message) signature = .ok address ∧
        Recovery.names claim address = false ∧ claimed = claim ∧ recovered = address.lowercased) ∧
    (∀ reason, verify ⟨claim, message, signature, version⟩ = .unrecoverable reason ↔
      ∃ error, Recovery.signer (Text.bytes message) signature = .error error ∧
        reason = error.message) ∧
    (∀ address, Recovery.signer? (Text.bytes message) signature = some address ↔
      Recovery.signer (Text.bytes message) signature = .ok address) ∧
    (∀ other, Recovery.confirms claim (Text.bytes message) signature = true →
      Recovery.confirms other (Text.bytes message) signature = true →
      ∃ address, ∀ named, (Recovery.names claim named = true ↔ named = address) ∧
        (Recovery.names other named = true ↔ named = address)) ∧
    (Address.isValid claim = true → ∃ address, Address.parse claim = .ok address ∧
      (Recovery.confirms claim (Text.bytes message) signature = true ↔
        Recovery.signer (Text.bytes message) signature = .ok address)) := by
  refine ⟨?_, Recovery.confirms_iff, fun _ => rfl, ?_, ?_, ?_, ?_, ?_, ?_⟩
  · rw [Recovery.confirms_iff, isConfirmed_verify_iff]
  · intro told
    exact verify_eq_confirmed_iff
  · intro claimed recovered
    exact verify_eq_mismatch_iff
  · intro reason
    exact verify_eq_unrecoverable_iff
  · intro address
    exact Recovery.signer?_eq_some_iff
  · intro other hclaim hother
    obtain ⟨address, hsigner, hnames⟩ := Recovery.confirms_iff.1 hclaim
    obtain ⟨address', hsigner', hnames'⟩ := Recovery.confirms_iff.1 hother
    obtain rfl := Except.ok.inj (hsigner.symm.trans hsigner')
    refine ⟨address, fun named => ⟨?_, ?_⟩⟩
    · exact ⟨fun h => Recovery.names_unique h hnames, fun h => h ▸ hnames⟩
    · exact ⟨fun h => Recovery.names_unique h hnames', fun h => h ▸ hnames'⟩
  · intro hvalid
    obtain ⟨address, hparse⟩ := Address.isValid_iff.1 hvalid
    refine ⟨address, hparse, ?_⟩
    rw [Recovery.confirms_iff]
    simp only [Recovery.names_iff_of_parse hparse, exists_eq_right]

end Record

end Attest
