import Mathlib
import Attest.Proofs.Key.Spelled
import Attest.Proofs.Record.Writing
import Attest.Proofs.Verdict

/-!
# The commands together

The commands that deal with one key or one signature each have a way of their own to their output.
Here what each comes to is said first, and then that they fit together: what one shows is taken by
another one, and all of them show the same address and the same signature for a key.

The main statements are `run_recover`, `run_checksum`, `run_verify` and `commands_fit_together`.
-/

namespace Attest

namespace Checksum

/-- The checksummed form of an accepted text is that of the address. -/
theorem ofText_of_parse {text : String} {address : Address} (h : Address.parse text = .ok address) :
    ofText text = address.checksummed := by
  obtain ⟨digits, htext, hdigits⟩ := Address.exists_of_accepted (Address.parse_eq_ok_iff.1 h)
  rw [ofText, htext]
  simp only [Text.afterMarker?, Option.getD_some, hdigits]
  rfl

end Checksum

namespace Command

variable {text : String}

theorem checkAddress_eq_ok_iff :
    checkAddress text = .ok () ↔ ∃ address, Address.parse text = .ok address := by
  rw [← Address.isValid_iff, checkAddress]
  split_ifs with h
  · simp [h]
  · simp [h]

end Command

namespace Program

variable {text claim message signature : String} {address : Address} (supplies : Supplies)

/-! ## What is shown -/

theorem success_singleton (line : String) : Transcript.success [line] = ⟨0, line ++ "\n", ""⟩ := by
  simp [Transcript.success, unlines]

theorem success_addressLines (address : Address) :
    Transcript.success (addressLines address) =
      ⟨0, "Address:     " ++ address.lowercased ++ "\n" ++
        ("Checksummed: " ++ address.checksummed ++ "\n"), ""⟩ := by
  simp only [Transcript.success, addressLines, unlines, List.map_cons, List.map_nil,
    String.join_cons, String.join_nil, String.append_empty]

/-! ## What each command comes to -/

/-- Recovering shows the address of the signer, if there is one. -/
theorem run_recover (message signature : String) :
    run supplies (.recover message signature) = .ofResult Recovery.Error.message
      ((Recovery.signer (Text.bytes message) signature).map addressLines) := by
  rw [run_of_validate supplies rfl, perform]
  cases Recovery.signer (Text.bytes message) signature <;> rfl

/-- The checksummed form is shown for every accepted text. -/
theorem run_checksum (h : Address.parse text = .ok address) :
    run supplies (.checksum text) = .success [address.checksummed] := by
  have hvalid : Command.validate (.checksum text) = .ok () :=
    Command.checkAddress_eq_ok_iff.2 ⟨address, h⟩
  rw [run_of_validate supplies hvalid, perform, Checksum.ofText_of_parse h]

/-- Verifying shows the verdict on the record of an accepted claim. -/
theorem run_verify (h : Address.parse claim = .ok address) (message signature : String) :
    run supplies (.verify claim message signature) =
      { Transcript.success [verdictLine (Record.verify ⟨claim, message, signature, "2"⟩)] with
        exitCode :=
          if (Record.verify ⟨claim, message, signature, "2"⟩).isConfirmed then 0 else 2 } := by
  have hvalid : Command.validate (.verify claim message signature) = .ok () :=
    Command.checkAddress_eq_ok_iff.2 ⟨address, h⟩
  rw [run_of_validate supplies hvalid]
  rfl

/-- A claim to the address of the signer is confirmed. -/
theorem run_verify_of_signer (h : Address.parse claim = .ok address)
    (hsigner : Recovery.signer (Text.bytes message) signature = .ok address) :
    run supplies (.verify claim message signature) =
      ⟨0, "Confirmed: signature was produced by " ++ address.lowercased ++ "\n", ""⟩ := by
  have hverdict : Record.verify ⟨claim, message, signature, "2"⟩ =
      .confirmed address.lowercased := by
    rw [Record.verify_eq_confirmed_iff]
    exact ⟨address, hsigner, (Recovery.names_iff_of_parse h).2 rfl, rfl⟩
  rw [run_verify supplies h, hverdict, success_singleton]
  rfl

/-- A claim to another address than that of the signer is not proved. -/
theorem run_verify_of_ne {other : Address} (h : Address.parse claim = .ok other)
    (hsigner : Recovery.signer (Text.bytes message) signature = .ok address)
    (hne : other ≠ address) :
    run supplies (.verify claim message signature) =
      ⟨2, "Not proven: claimed " ++ claim ++ " but signer is " ++ address.lowercased ++ "\n",
        ""⟩ := by
  have hnames : Recovery.names claim address = false := by
    rw [← Bool.not_eq_true, Recovery.names_iff_of_parse h]
    exact hne.symm
  have hverdict : Record.verify ⟨claim, message, signature, "2"⟩ =
      .mismatch claim address.lowercased := by
    rw [Record.verify_eq_mismatch_iff]
    exact ⟨address, hsigner, hnames, rfl, rfl⟩
  rw [run_verify supplies h, hverdict, success_singleton]
  rfl

/-! ## Keys and signatures -/

/-- A signature is written on one line. -/
theorem not_mem_of_signHex {key : Key} {bytes : Bytes} (h : key.signHex bytes = .ok signature) :
    '\n' ∉ signature.toList := by
  obtain ⟨made, -, rfl⟩ := map_eq_ok_iff.1 h
  rw [Signature.hex, String.toList_ofList, List.mem_cons, List.mem_cons, not_or, not_or]
  refine ⟨by decide, by decide, fun hmem => ?_⟩
  exact absurd (Hex.isLowerDigit_of_mem_encode hmem) (by decide)

/-- **The commands fit together.** A text that spells a scalar as a key, and a message, have one
address and one signature, for which all of the following holds. Signing shows the signature on one
line. Showing the address of the key and recovering it from the signature come to the same.
Verifying confirms both forms of the address that are shown there, and of any other address it tells
that it is not proved and who is the signer. Signing as a record shows a record that reads back. And
both forms of the address have the same checksummed form. -/
theorem commands_fit_together (text message : String) (hkey : Key.SpellsScalar text)
    (hends : ∀ key, Key.ofHex text = .ok key → key.SearchEnds (Text.bytes message)) :
    ∃ (address : Address) (signature written : String), '\n' ∉ signature.toList ∧
      Record.read written = .ok ⟨address.lowercased, message, signature, "2"⟩ ∧
      ∀ supplies : Supplies,
        run supplies (.sign text message false) = ⟨0, signature ++ "\n", ""⟩ ∧
        run supplies (.address text) =
          ⟨0, "Address:     " ++ address.lowercased ++ "\n" ++
            ("Checksummed: " ++ address.checksummed ++ "\n"), ""⟩ ∧
        run supplies (.recover message signature) = run supplies (.address text) ∧
        (∀ shown ∈ [address.lowercased, address.checksummed],
          run supplies (.verify shown message signature) =
            ⟨0, "Confirmed: signature was produced by " ++ address.lowercased ++ "\n", ""⟩ ∧
          run supplies (.checksum shown) = ⟨0, address.checksummed ++ "\n", ""⟩) ∧
        (∀ claim other, Address.parse claim = .ok other → other ≠ address →
          run supplies (.verify claim message signature) =
            ⟨2, "Not proven: claimed " ++ claim ++ " but signer is " ++ address.lowercased ++ "\n",
              ""⟩) ∧
        run supplies (.sign text message true) = ⟨0, written ++ "\n", ""⟩ := by
  obtain ⟨key, hread, husable⟩ := Key.spellsScalar_iff.1 hkey
  obtain ⟨address, signature, haddress, hsign, hsigner⟩ :=
    Key.exists_signHex husable (hends key hread)
  have hrecord : Record.sign key message = .ok ⟨address.lowercased, message, signature, "2"⟩ := by
    rw [Record.sign, hsign, haddress]
    rfl
  -- neither depends on the supplies: a nonce is not drawn but derived
  refine ⟨address, signature,
    Json.pretty (Record.members ⟨address.lowercased, message, signature, "2"⟩),
    not_mem_of_signHex hsign, Record.read_of_objectText (Record.objectText_pretty _),
    fun supplies => ⟨?_, ?_, ?_, ?_, ?_, ?_⟩⟩
  · rw [run_sign supplies hread, signed, hsign]
    exact success_singleton signature
  · rw [run_address supplies hread, haddress]
    exact success_addressLines address
  · rw [run_address supplies hread, haddress, run_recover supplies, hsigner]
    rfl
  · intro shown hshown
    have hparse : Address.parse shown = .ok address := by
      rw [Address.parse_eq_ok_iff]
      simpa using hshown
    refine ⟨run_verify_of_signer supplies hparse hsigner, ?_⟩
    rw [run_checksum supplies hparse, success_singleton]
  · intro claim other hparse hne
    exact run_verify_of_ne supplies hparse hsigner hne
  · rw [run_sign supplies hread, signed, hrecord]
    exact success_singleton _

/-- The digits of a key, and a message for which the first candidate for a nonce is of use. -/
theorem commands_fit_together_worn :
    Key.SpellsScalar Key.worn.hex ∧ Key.worn.SearchEnds (Text.bytes "Some data") ∧
      ∃ (address : Address) (signature : String), ∀ supplies : Supplies,
        run supplies (.sign Key.worn.hex "Some data" false) = ⟨0, signature ++ "\n", ""⟩ ∧
        run supplies (.recover "Some data" signature) =
          run supplies (.address Key.worn.hex) ∧
        run supplies (.verify address.checksummed "Some data" signature) =
          ⟨0, "Confirmed: signature was produced by " ++ address.lowercased ++ "\n", ""⟩ := by
  have hread := Key.ofHex_hex Key.worn
  have hkey : Key.SpellsScalar Key.worn.hex :=
    Key.spellsScalar_iff.2 ⟨_, hread, Key.isUsable_worn⟩
  have hends : ∀ key, Key.ofHex Key.worn.hex = .ok key →
      key.SearchEnds (Text.bytes "Some data") := by
    intro key hkey
    obtain rfl := Except.ok.inj (hread.symm.trans hkey)
    exact Key.searchEnds_worn
  obtain ⟨address, signature, written, -, -, hruns⟩ :=
    commands_fit_together Key.worn.hex "Some data" hkey hends
  refine ⟨hkey, Key.searchEnds_worn, address, signature, fun supplies => ?_⟩
  obtain ⟨hsign, -, hrecover, hverify, -⟩ := hruns supplies
  exact ⟨hsign, hrecover, (hverify address.checksummed (by simp)).1⟩

end Program

end Attest
