import Mathlib
import Attest.Proofs.Ownership
import Attest.Proofs.Program.Running
import Attest.Proofs.Text.Hexadecimal

/-!
# Reading keys

A text is read as a key if it is 64 digits in lower case, and it is what is written for that key.
All other texts are refused, with a cause that the shape of the text decides (`Refused`). The check
that a command makes before it starts work is another one, which looks at the length first; it
accepts the same texts. So once a command with a key has been let in, there is a key, and all that
can go wrong is that its secret is no scalar.

The main statements are `Key.ofHex_eq_ok_iff`, `Key.ofHex_eq_error_iff`,
`Command.isKeyText_iff` and `Key.ofHex_agrees_with_check`.
-/

namespace Attest

namespace Hex

variable {chars : List Char}

/-- Digits in lower case take one byte each. -/
theorem byteLength_of_isLowerDigit (h : ∀ c ∈ chars, isLowerDigit c) :
    Text.byteLength chars = chars.length :=
  Text.byteLength_eq_length fun c hc => lt_of_isDigit (isDigit_of_isLowerDigit (h c hc))

/-- Digits in lower case are what is written for the bytes that they are read as. -/
theorem decode?_of_isLowerDigit (h : ∀ c ∈ chars, isLowerDigit c) {bytes : Bytes} :
    decode? chars = some bytes ↔ chars = encode bytes := by
  have hlower : Text.lower chars = chars :=
    (List.map_congr_left fun c hc => toLower_of_isLowerDigit (h c hc)).trans (List.map_id' _)
  rw [decode?_eq_some_iff, hlower]

end Hex

namespace Key

variable {text : String} {key : Key}

/-! ## What is refused -/

/-- Why a text is refused. A character that is no lower-case digit is told with the byte where it
starts; the other two causes are told of texts that are digits throughout. -/
inductive Refused (text : String) : Error → Prop where
  | notHex {before after : List Char} {c : Char} (htext : text.toList = before ++ c :: after)
      (hbefore : ∀ d ∈ before, Hex.isLowerDigit d) (hc : ¬Hex.isLowerDigit c) :
      Refused text (.notHex c (Text.utf8 before).length)
  | oddDigits (hdigits : ∀ c ∈ text.toList, Hex.isLowerDigit c)
      (hodd : (Text.bytes text).length % 2 = 1) : Refused text .oddDigits
  | wrongLength (hdigits : ∀ c ∈ text.toList, Hex.isLowerDigit c)
      (heven : (Text.bytes text).length % 2 = 0) (hlength : (Text.bytes text).length ≠ 64) :
      Refused text (.wrongLength ((Text.bytes text).length / 2))

theorem firstNonDigit?_eq_none {chars : List Char} (h : ∀ c ∈ chars, Hex.isLowerDigit c) :
    firstNonDigit? chars = none := by
  rw [firstNonDigit?, List.dropWhile_eq_nil_iff.2 h]

theorem firstNonDigit?_append_cons {before after : List Char} {c : Char}
    (hbefore : ∀ d ∈ before, Hex.isLowerDigit d) (hc : ¬Hex.isLowerDigit c) :
    firstNonDigit? (before ++ c :: after) = some (c, Text.byteLength before) := by
  rw [firstNonDigit?, List.dropWhile_append_of_pos hbefore, List.takeWhile_append_of_pos hbefore,
    List.dropWhile_cons_of_neg hc, List.takeWhile_cons_of_neg hc, List.append_nil]

/-- A text of digits is read in pairs. -/
theorem ofHex_of_isLowerDigit (h : ∀ c ∈ text.toList, Hex.isLowerDigit c) :
    ofHex text = (Hex.decode? text.toList).elim (.error .oddDigits) ofBytes := by
  rw [ofHex, firstNonDigit?_eq_none h]
  cases Hex.decode? text.toList <;> rfl

theorem ofHex_of_refused {error : Error} (h : Refused text error) : ofHex text = .error error := by
  cases h with
  | notHex htext hbefore hc =>
    rw [ofHex, htext, firstNonDigit?_append_cons hbefore hc]
    rfl
  | oddDigits hdigits hodd =>
    have hdecode : Hex.decode? text.toList = none := by
      rw [← Option.not_isSome_iff_eq_none, Hex.isSome_decode?_iff,
        ← Hex.byteLength_of_isLowerDigit hdigits]
      change ¬((Text.bytes text).length % 2 = 0 ∧ _)
      omega
    rw [ofHex_of_isLowerDigit hdigits, hdecode]
    rfl
  | wrongLength hdigits heven hlength =>
    have hcount : (Text.bytes text).length = text.toList.length :=
      Hex.byteLength_of_isLowerDigit hdigits
    rw [hcount] at heven hlength ⊢
    obtain ⟨bytes, hbytes, hlower⟩ := Hex.exists_lower_eq_encode
      (show text.toList.length = 2 * (text.toList.length / 2) by omega)
      fun c hc => Hex.isDigit_of_isLowerDigit (hdigits c hc)
    have hnone : Octets.ofBytes? 32 bytes = none := by
      rw [Octets.ofBytes?_eq_none_iff]
      omega
    rw [ofHex_of_isLowerDigit hdigits, Hex.decode?_eq_some_iff.2 hlower, ← hbytes]
    change ofBytes bytes = _
    rw [ofBytes, hnone]

/-! ## What is accepted -/

@[simp] theorem ofBytes_toBytes (octets : Octets 32) :
    ofBytes octets.toBytes = .ok ⟨octets, .live⟩ := by
  rw [ofBytes, Octets.ofBytes?_toBytes]

theorem toList_hex (key : Key) : key.hex.toList = Hex.encode key.secret.toBytes := by
  rw [hex, Hex.text, String.toList_ofList]

theorem isLowerDigit_of_mem_hex (key : Key) : ∀ c ∈ key.hex.toList, Hex.isLowerDigit c := by
  rw [toList_hex]
  exact fun c hc => Hex.isLowerDigit_of_mem_encode hc

theorem length_bytes_hex (key : Key) : (Text.bytes key.hex).length = 64 := by
  change Text.byteLength key.hex.toList = 64
  rw [toList_hex, Hex.byteLength_encode, Octets.length_toBytes]

/-- What is written for a key is read as a live key with the same secret. -/
theorem ofHex_hex (key : Key) : ofHex key.hex = .ok ⟨key.secret, .live⟩ := by
  rw [ofHex_of_isLowerDigit key.isLowerDigit_of_mem_hex, toList_hex, Hex.decode?_encode]
  exact ofBytes_toBytes key.secret

/-- Digits in lower case, 64 of them, are what is written for a key. -/
theorem exists_hex_eq (hdigits : ∀ c ∈ text.toList, Hex.isLowerDigit c)
    (hlength : (Text.bytes text).length = 64) : ∃ key : Key, text = key.hex := by
  have hcount : text.toList.length = 2 * 32 := by
    rw [← Hex.byteLength_of_isLowerDigit hdigits]
    exact hlength
  obtain ⟨bytes, hbytes, hlower⟩ := Hex.exists_lower_eq_encode hcount
    fun c hc => Hex.isDigit_of_isLowerDigit (hdigits c hc)
  refine ⟨⟨⟨bytes.toArray, hbytes⟩, .live⟩, ?_⟩
  rw [← String.toList_inj, toList_hex]
  exact (Hex.decode?_of_isLowerDigit hdigits).1 (Hex.decode?_eq_some_iff.2 hlower)

theorem written_or_refused (text : String) :
    (∃ key : Key, text = key.hex) ∨ ∃ error, Refused text error := by
  by_cases hdigits : ∀ c ∈ text.toList, Hex.isLowerDigit c
  case neg =>
    -- the digits in front of the first other character are what can be taken of the text
    have hne := mt List.dropWhile_eq_nil_iff.1 hdigits
    obtain ⟨c, after, hrest⟩ := List.exists_cons_of_ne_nil hne
    have hc : ¬Hex.isLowerDigit c := by
      have hhead := List.head_dropWhile_not Hex.isLowerDigit hne
      simpa [hrest] using hhead
    have htext : text.toList = text.toList.takeWhile Hex.isLowerDigit ++ c :: after := by
      rw [← hrest, List.takeWhile_append_dropWhile]
    exact .inr ⟨_, .notHex htext (fun d hd => List.mem_takeWhile_imp hd) hc⟩
  rcases Nat.mod_two_eq_zero_or_one (Text.bytes text).length with heven | hodd
  case inr => exact .inr ⟨_, .oddDigits hdigits hodd⟩
  by_cases hlength : (Text.bytes text).length = 64
  case neg => exact .inr ⟨_, .wrongLength hdigits heven hlength⟩
  exact .inl (exists_hex_eq hdigits hlength)

/-- **A text is read as a key** exactly if it is what is written for the key, which is live. -/
theorem ofHex_eq_ok_iff : ofHex text = .ok key ↔ key.hex = text ∧ key.state = .live := by
  constructor
  · intro h
    rcases written_or_refused text with ⟨other, rfl⟩ | ⟨error, hrefused⟩
    · rw [ofHex_hex] at h
      obtain rfl := Except.ok.inj h
      exact ⟨rfl, rfl⟩
    · rw [ofHex_of_refused hrefused] at h
      cases h
  · rintro ⟨rfl, hlive⟩
    rw [ofHex_hex, ← hlive]

/-- **All else is refused** with the first cause there is. -/
theorem ofHex_eq_error_iff {error : Error} : ofHex text = .error error ↔ Refused text error := by
  refine ⟨fun h => ?_, ofHex_of_refused⟩
  rcases written_or_refused text with ⟨other, rfl⟩ | ⟨error', hrefused⟩
  · rw [ofHex_hex] at h
    cases h
  · rw [ofHex_of_refused hrefused] at h
    obtain rfl := Except.error.inj h
    exact hrefused

end Key

/-! ## The check before a command -/

namespace Command

open Key

variable {text : String}

/-- **The check and the reader accept the same texts.** -/
theorem isKeyText_iff : isKeyText text = true ↔ ∃ key, ofHex text = .ok key := by
  rw [isKeyText, Bool.and_eq_true, decide_eq_true_iff, List.all_eq_true]
  constructor
  · rintro ⟨hlength, hdigits⟩
    obtain ⟨key, rfl⟩ := exists_hex_eq hdigits hlength
    exact ⟨_, ofHex_hex key⟩
  · rintro ⟨key, h⟩
    obtain ⟨rfl, -⟩ := ofHex_eq_ok_iff.1 h
    exact ⟨key.length_bytes_hex, key.isLowerDigit_of_mem_hex⟩

theorem checkKey_eq_ok_iff : checkKey text = .ok () ↔ ∃ key, ofHex text = .ok key := by
  rw [← isKeyText_iff, checkKey]
  split_ifs with h
  · simp [h]
  · simp [h]

end Command

namespace Program

open Key

variable {text message : String} {key : Key} {record : Bool} (supplies : Supplies)

/-- What showing the address of a key comes to. -/
theorem run_address (h : ofHex text = .ok key) :
    run supplies (.address text) = .ofResult Error.message (key.address.map addressLines) := by
  have hvalid : Command.validate (.address text) = .ok () := Command.checkKey_eq_ok_iff.2 ⟨key, h⟩
  rw [run_of_validate supplies hvalid, perform, h]
  change Transcript.ofResult _ (key.address >>= fun address => pure (addressLines address)) = _
  cases key.address <;> rfl

/-- What is shown of a message that a key signs. -/
def signed (key : Key) (message : String) : (record : Bool) → Except Key.Error (List String)
  | true => (Record.sign key message).map fun record => [Json.pretty record.members]
  | false => (key.signHex (Text.bytes message)).map fun signature => [signature]

/-- What signing with a key comes to. -/
theorem run_sign (h : ofHex text = .ok key) :
    run supplies (.sign text message record) =
      .ofResult Error.message (signed key message record) := by
  have hvalid : Command.validate (.sign text message record) = .ok () :=
    Command.checkKey_eq_ok_iff.2 ⟨key, h⟩
  rw [run_of_validate supplies hvalid, perform, h]
  cases record with
  | true =>
    change Transcript.ofResult _ (Record.sign key message >>= fun record =>
      pure [Json.pretty record.members]) = Transcript.ofResult _ (Except.map _ _)
    cases Record.sign key message <;> rfl
  | false =>
    change Transcript.ofResult _ (key.signHex (Text.bytes message) >>= fun signature =>
      pure [signature]) = Transcript.ofResult _ (Except.map _ _)
    cases key.signHex (Text.bytes message) <;> rfl

/-- A key that can be used signs, as a record or not, where the search for a nonce ends. -/
theorem exists_signed (husable : key.IsUsable) (hends : key.SearchEnds (Text.bytes message))
    (record : Bool) : ∃ lines, signed key message record = .ok lines := by
  obtain ⟨address, signature, haddress, hsignature, -⟩ := exists_signHex husable hends
  cases record with
  | true =>
    rw [signed, Record.sign, hsignature, haddress]
    exact ⟨_, rfl⟩
  | false =>
    rw [signed, hsignature]
    exact ⟨_, rfl⟩

theorem signed_of_not_isUsable (husable : ¬key.IsUsable) (message : String) (record : Bool) :
    signed key message record = .error .notScalar := by
  have hsign := signHex_of_not_isUsable husable (Text.bytes message)
  cases record with
  | true =>
    rw [signed, Record.sign, hsign]
    rfl
  | false =>
    rw [signed, hsign]
    rfl

/-- Whether a run has shown something, or has told that the secret of a key is no scalar. -/
def ShowsOrNoScalar (transcript : Transcript) : Prop :=
  (∃ lines, transcript = .success lines) ∨ transcript = .failure Error.notScalar.message

theorem showsOrNoScalar_address (h : ofHex text = .ok key) :
    ShowsOrNoScalar (run supplies (.address text)) := by
  rw [run_address supplies h]
  by_cases husable : key.IsUsable
  · obtain ⟨address, haddress⟩ := exists_address husable
    rw [haddress]
    exact .inl ⟨addressLines address, rfl⟩
  · rw [address_of_not_isUsable husable]
    exact .inr rfl

theorem showsOrNoScalar_sign (h : ofHex text = .ok key)
    (hends : key.IsUsable → key.SearchEnds (Text.bytes message)) :
    ShowsOrNoScalar (run supplies (.sign text message record)) := by
  rw [run_sign supplies h]
  by_cases husable : key.IsUsable
  · obtain ⟨lines, hlines⟩ := exists_signed husable (hends husable) record
    rw [hlines]
    exact .inl ⟨lines, rfl⟩
  · rw [signed_of_not_isUsable husable]
    exact .inr rfl

end Program

namespace Key

open Program

/-- **The text codec of keys, and the check before a command.** The commands that take a key let a
text in exactly if it can be read as a key. It is then what is written for the key, and its digits
are those of the secret; and what is written for any 32 bytes is read as a live key with these. A
command that was let in shows something unless the secret is no scalar, where the search for a nonce
ends if it has to sign. Refusals name the first character that is no lower-case digit and the byte
where it starts, and of digits an odd number before a number other than 64. -/
theorem ofHex_agrees_with_check (text : String) :
    (Command.validate (.address text) = .ok () ↔ ∃ key, ofHex text = .ok key) ∧
    (∀ message record, Command.validate (.sign text message record) = .ok () ↔
      ∃ key, ofHex text = .ok key) ∧
    (∀ key, ofHex text = .ok key ↔ key.hex = text ∧ key.state = .live) ∧
    (∀ key, ofHex text = .ok key → Hex.decode? text.toList = some key.secret.toBytes) ∧
    (∀ octets : Octets 32, ∃ key, ofBytes octets.toBytes = .ok key ∧ key.secret = octets ∧
      ofHex key.hex = .ok ⟨octets, .live⟩) ∧
    (Command.validate (.address text) = .ok () →
      ∀ supplies, ShowsOrNoScalar (run supplies (.address text))) ∧
    (∀ message record, Command.validate (.sign text message record) = .ok () →
      (∀ key, ofHex text = .ok key → key.IsUsable → key.SearchEnds (Text.bytes message)) →
      ∀ supplies, ShowsOrNoScalar (run supplies (.sign text message record))) ∧
    ∀ error, ofHex text = .error error ↔ Refused text error := by
  refine ⟨Command.checkKey_eq_ok_iff, fun _ _ => Command.checkKey_eq_ok_iff,
    fun key => ofHex_eq_ok_iff, ?_, ?_, ?_, ?_, fun error => ofHex_eq_error_iff⟩
  · intro key h
    obtain ⟨rfl, -⟩ := ofHex_eq_ok_iff.1 h
    rw [toList_hex, Hex.decode?_encode]
  · intro octets
    exact ⟨⟨octets, .live⟩, ofBytes_toBytes octets, rfl, ofHex_hex _⟩
  · intro hvalid supplies
    obtain ⟨key, h⟩ := Command.checkKey_eq_ok_iff.1 hvalid
    exact showsOrNoScalar_address supplies h
  · intro message record hvalid hends supplies
    obtain ⟨key, h⟩ := Command.checkKey_eq_ok_iff.1 hvalid
    exact showsOrNoScalar_sign supplies h (hends key h)

/-- A key that signs, where the first candidate for the nonce is of use. -/
theorem ofHex_agrees_with_check_worn :
    Command.validate (.sign worn.hex "Some data" false) = .ok () ∧
      worn.SearchEnds (Text.bytes "Some data") ∧
      ShowsOrNoScalar (run ⟨.ok [], [], 1⟩ (.sign worn.hex "Some data" false)) := by
  obtain ⟨-, hvalid, -, -, -, -, hshows, -⟩ := ofHex_agrees_with_check worn.hex
  have hread := ofHex_hex worn
  have hchecked := (hvalid "Some data" false).2 ⟨_, hread⟩
  refine ⟨hchecked, searchEnds_worn, hshows _ _ hchecked ?_ _⟩
  intro key hkey _
  obtain rfl := Except.ok.inj (hread.symm.trans hkey)
  exact searchEnds_worn

end Key

end Attest
