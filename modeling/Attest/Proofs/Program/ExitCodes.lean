import Mathlib
import Attest.Proofs.Entropy
import Attest.Proofs.Lifetime
import Attest.Proofs.Program.Batches
import Attest.Proofs.Program.Commands

/-!
# Exit codes

The exit code of a run tells which of three ways it has ended. It is 1 if the command cannot be
carried out (`Unmet`), and then nothing is shown. It is 2 if an ownership was asked about and is not
proved (`Unproved`), be it that somebody else signed or that no signer can be named. Otherwise it is
0. The checks before a command and its own work look at the same texts with different code; here the
two are put together, one command at a time.

The main statements are `ends` and `exit_codes`.
-/

namespace Attest

open Curve

namespace Program

variable {supplies : Supplies}

/-! ## New keys -/

/-- A key that can be used is shown with its address. -/
theorem exists_keyLines (number : ℕ) {key : Key} (h : key.IsUsable) :
    ∃ lines, keyLines number key = .ok lines := by
  obtain ⟨address, haddress⟩ := Key.exists_address h
  rw [keyLines, haddress]
  exact ⟨_, rfl⟩

/-- Erasing a key uses up one block that can be a secret, if there is one. -/
theorem countP_entropy_finish (secret : Octets 32) (entropy : Entropy) :
    (Key.Lifetime.finish ⟨⟨secret, .live⟩, entropy⟩).entropy.countP isSecret =
      entropy.countP isSecret - 1 := by
  have hfinish : (Key.Lifetime.finish ⟨⟨secret, .live⟩, entropy⟩).entropy = entropy.draw.2 := by
    rw [Key.Lifetime.finish, Key.Lifetime.erase, Key.erase]
    rcases entropy.draw with ⟨_ | fresh, rest⟩ <;> rfl
  rw [hfinish]
  rcases Nat.eq_zero_or_pos (entropy.countP isSecret) with hzero | hpos
  · have hnone : ∀ block ∈ entropy, isSecret block = false := by
      simpa [List.countP_eq_zero] using hzero
    rw [Entropy.draw_eq_none_iff.2 ⟨rfl, hnone⟩, hzero]
    rfl
  · obtain ⟨fresh, rest, hdraw, -, hcount⟩ := Entropy.exists_draw hpos
    rw [hdraw, hcount, Nat.add_sub_cancel]

/-- All keys that are asked for are made if there are random blocks for them: one for each key to be
made, and one for each to be erased before the next. -/
theorem exists_generateFrom (number : ℕ) {count : ℕ} {entropy : Entropy}
    (h : 2 * count ≤ entropy.countP isSecret + 1) :
    ∃ lines, generateFrom number count entropy = (lines, none) := by
  induction count generalizing number entropy with
  | zero => exact ⟨[], rfl⟩
  | succ count ih =>
    obtain ⟨secret, rest, hdraw, hsecret, hcount⟩ :=
      Entropy.exists_draw (show 0 < entropy.countP isSecret by omega)
    have husable : Key.IsUsable ⟨secret, .live⟩ := isSecret_iff.1 hsecret
    obtain ⟨lines, hlines⟩ := exists_keyLines number husable
    have hrest := countP_entropy_finish secret rest
    -- the later keys are made of the blocks that the first one has left over
    have hsuffices : 2 * count ≤
        (Key.Lifetime.finish ⟨⟨secret, .live⟩, rest⟩).entropy.countP isSecret + 1 := by omega
    obtain ⟨more, hmore⟩ := ih (number + 1) hsuffices
    refine ⟨lines ++ more, ?_⟩
    rw [generateFrom, Key.generate, hdraw]
    simp only [hlines, hmore]

/-! ## How a run can end -/

/-- Whether a text is accepted as an address. -/
def IsAddressText (text : String) : Prop :=
  ∃ address : Address, text = address.lowercased ∨ text = address.checksummed

/-- What keeps a command from being carried out. -/
inductive Unmet (supplies : Supplies) : Command → Prop where
  | noCount : Unmet supplies (.generate 0)
  | addressKey {key : String} (h : ¬Key.SpellsScalar key) : Unmet supplies (.address key)
  | signKey {key message : String} {record : Bool} (h : ¬Key.SpellsScalar key) :
      Unmet supplies (.sign key message record)
  | checksumText {text : String} (h : ¬IsAddressText text) : Unmet supplies (.checksum text)
  | verifyText {claim message signature : String} (h : ¬IsAddressText claim) :
      Unmet supplies (.verify claim message signature)
  | noSigner {message signature : String} {error : Recovery.Error}
      (h : Recovery.signer (Text.bytes message) signature = .error error) :
      Unmet supplies (.recover message signature)
  | noWorkers {input : String} : Unmet supplies (.verifyBatch input (some 0))
  | noFile {input : String} {workers : Option UInt64} {error : Files.Error}
      (h : supplies.file = .error error) : Unmet supplies (.verifyBatch input workers)
  | noBatch {input : String} {workers : Option UInt64} {file : Bytes} {error : Batch.ReadError}
      (hfile : supplies.file = .ok file) (h : Batch.read file = .error error) :
      Unmet supplies (.verifyBatch input workers)

/-- Whether a command asks about an ownership that is not proved: somebody else has signed, or no
signer can be named. -/
inductive Unproved : Command → Prop where
  | verify {claim message signature : String} (hclaim : IsAddressText claim)
      (hverdict : (∃ claimed recovered,
          Record.verify ⟨claim, message, signature, "2"⟩ = .mismatch claimed recovered) ∨
        ∃ reason, Record.verify ⟨claim, message, signature, "2"⟩ = .unrecoverable reason) :
      Unproved (.verify claim message signature)

/-- Whether the machine supplies what a command relies on: a random block for every key that is to
be made and for every key that is erased before the next is made, and an end to the search for a
nonce where something is to be signed. -/
def Suffices (supplies : Supplies) : Command → Prop
  | .generate count => 2 * count.toNat ≤ supplies.entropy.countP isSecret + 1
  | .sign text message _ => ∀ key, Key.ofHex text = .ok key → key.IsUsable →
      key.SearchEnds (Text.bytes message)
  | _ => True

/-- The ways in which a run can end, each with its exit code. -/
inductive Ends (supplies : Supplies) (command : Command) : Prop where
  | unmet (h : Unmet supplies command) (hcode : (run supplies command).exitCode = 1)
      (houtput : (run supplies command).output = "")
  | unproved (hmet : ¬Unmet supplies command) (h : Unproved command)
      (hcode : (run supplies command).exitCode = 2)
  | done (hmet : ¬Unmet supplies command) (hproved : ¬Unproved command)
      (hcode : (run supplies command).exitCode = 0)

namespace Ends

variable {command : Command}

/-- A command that is refused shows nothing. -/
theorem of_not_valid (h : Unmet supplies command) (hrefused : command.validate ≠ .ok ()) :
    Ends supplies command := by
  have hrun : ∃ diagnostics, run supplies command = ⟨1, "", diagnostics⟩ := by
    rw [run]
    cases hvalid : command.validate with
    | error error => exact ⟨_, rfl⟩
    | ok _ => exact absurd hvalid hrefused
  obtain ⟨diagnostics, hrun⟩ := hrun
  exact .unmet h (by rw [hrun]) (by rw [hrun])

/-- A command that fails at its work shows nothing. -/
theorem of_failure {message : String} (h : Unmet supplies command)
    (hrun : run supplies command = .failure message) : Ends supplies command := by
  refine .unmet h ?_ ?_
  · rw [hrun]
    rfl
  · rw [hrun]
    rfl

end Ends

/-! ## One command at a time -/

theorem isAddressText_iff {text : String} :
    IsAddressText text ↔ ∃ address, Address.parse text = .ok address := by
  simp only [IsAddressText, Address.parse_eq_ok_iff]

theorem checkAddress_ne_ok {text : String} (h : ¬IsAddressText text) :
    Command.checkAddress text ≠ .ok () := by
  rw [isAddressText_iff] at h
  exact mt Command.checkAddress_eq_ok_iff.1 h

theorem ends_generate {count : UInt64} (h : Suffices supplies (.generate count)) :
    Ends supplies (.generate count) := by
  by_cases hcount : count = 0
  · subst hcount
    exact .unmet .noCount rfl rfl
  · have hvalid : Command.validate (.generate count) = .ok () := if_neg hcount
    obtain ⟨lines, hlines⟩ := exists_generateFrom 1 h
    refine .done ?_ nofun ?_
    · rintro ⟨⟩
      exact hcount rfl
    · rw [run_of_validate supplies hvalid, perform, generate, hlines]
      rfl

/-- A command with a key ends by what it shows of the key, if this is an error exactly where the
key cannot be used. -/
theorem ends_of_key {command : Command} {text : String}
    {shown : Key → Except Key.Error (List String)}
    (hvalid : command.validate = Command.checkKey text)
    (hrun : ∀ key, Key.ofHex text = .ok key →
      run supplies command = .ofResult Key.Error.message (shown key))
    (husable : ∀ key, Key.ofHex text = .ok key → key.IsUsable → ∃ lines, shown key = .ok lines)
    (hnot : ∀ key, ¬key.IsUsable → shown key = .error .notScalar)
    (hunmet : Unmet supplies command ↔ ¬Key.SpellsScalar text) (hproved : ¬Unproved command) :
    Ends supplies command := by
  by_cases hspells : Key.SpellsScalar text
  · obtain ⟨key, hread, hkey⟩ := Key.spellsScalar_iff.1 hspells
    obtain ⟨lines, hlines⟩ := husable key hread hkey
    refine .done (fun h => hunmet.1 h hspells) hproved ?_
    rw [hrun key hread, hlines]
    rfl
  · -- the check lets 64 digits in, and only then the number that they spell is looked at
    by_cases hread : ∃ key, Key.ofHex text = .ok key
    · obtain ⟨key, hread⟩ := hread
      have hkey : ¬key.IsUsable := fun hkey =>
        hspells (Key.spellsScalar_iff.2 ⟨key, hread, hkey⟩)
      have herror := hrun key hread
      rw [hnot key hkey] at herror
      exact .of_failure (hunmet.2 hspells) herror
    · apply Ends.of_not_valid (hunmet.2 hspells)
      rw [hvalid]
      exact mt Command.checkKey_eq_ok_iff.1 hread

theorem ends_address {text : String} : Ends supplies (.address text) := by
  refine ends_of_key rfl (fun key => run_address supplies) ?_ ?_ ?_ nofun
  · intro key _ husable
    obtain ⟨address, haddress⟩ := Key.exists_address husable
    rw [haddress]
    exact ⟨addressLines address, rfl⟩
  · intro key hnot
    rw [Key.address_of_not_isUsable hnot]
    rfl
  · refine ⟨?_, .addressKey⟩
    intro h
    cases h with
    | addressKey h => exact h

theorem ends_sign {text message : String} {record : Bool}
    (h : Suffices supplies (.sign text message record)) :
    Ends supplies (.sign text message record) := by
  refine ends_of_key rfl (fun key => run_sign supplies) ?_ ?_ ?_ nofun
  · intro key hread husable
    exact exists_signed husable (h key hread husable) record
  · intro key hnot
    exact signed_of_not_isUsable hnot message record
  · refine ⟨?_, .signKey⟩
    intro h
    cases h with
    | signKey h => exact h

theorem ends_checksum {text : String} : Ends supplies (.checksum text) := by
  by_cases htext : IsAddressText text
  · obtain ⟨address, hparse⟩ := isAddressText_iff.1 htext
    refine .done ?_ nofun ?_
    · intro h
      cases h with
      | checksumText h => exact h htext
    · rw [run_checksum supplies hparse]
      rfl
  · exact .of_not_valid (.checksumText htext) (checkAddress_ne_ok htext)

theorem ends_recover {message signature : String} : Ends supplies (.recover message signature) := by
  have hrun := run_recover supplies message signature
  cases hsigner : Recovery.signer (Text.bytes message) signature with
  | error error =>
    rw [hsigner] at hrun
    exact .of_failure (.noSigner hsigner) hrun
  | ok address =>
    rw [hsigner] at hrun
    refine .done ?_ nofun ?_
    · intro h
      cases h with
      | noSigner h => cases hsigner.symm.trans h
    · rw [hrun]
      rfl

theorem ends_verify {claim message signature : String} :
    Ends supplies (.verify claim message signature) := by
  by_cases hclaim : IsAddressText claim
  case neg => exact .of_not_valid (.verifyText hclaim) (checkAddress_ne_ok hclaim)
  have hmet : ¬Unmet supplies (.verify claim message signature) := by
    intro h
    cases h with
    | verifyText h => exact h hclaim
  obtain ⟨address, hparse⟩ := isAddressText_iff.1 hclaim
  have hcode := congrArg Transcript.exitCode (run_verify supplies hparse message signature)
  -- the verdict decides between the other two ways
  cases hverify : Record.verify ⟨claim, message, signature, "2"⟩ with
  | confirmed told =>
    rw [hverify] at hcode
    refine .done hmet ?_ hcode
    intro h
    cases h with
    | verify _ hverdict => simp [hverify] at hverdict
  | mismatch claimed recovered =>
    rw [hverify] at hcode
    exact .unproved hmet (.verify hclaim (.inl ⟨claimed, recovered, hverify⟩)) hcode
  | unrecoverable reason =>
    rw [hverify] at hcode
    exact .unproved hmet (.verify hclaim (.inr ⟨reason, hverify⟩)) hcode

/-- What cannot be read is told as the error. -/
theorem run_verifyBatch_of_noFile {input : String} {workers : Option UInt64} {error : Files.Error}
    (hworkers : workers ≠ some 0) (hfile : supplies.file = .error error) :
    run supplies (.verifyBatch input workers) = .failure error.message := by
  have hvalid : Command.validate (.verifyBatch input workers) = .ok () := if_neg hworkers
  rw [run_of_validate supplies hvalid, perform, hfile]

theorem ends_verifyBatch {input : String} {workers : Option UInt64} :
    Ends supplies (.verifyBatch input workers) := by
  by_cases hworkers : workers = some 0
  · subst hworkers
    exact .unmet .noWorkers rfl rfl
  obtain ⟨given, entropy, processors⟩ := supplies
  cases given with
  | error error => exact .of_failure (.noFile rfl) (run_verifyBatch_of_noFile hworkers rfl)
  | ok file =>
    cases hread : Batch.read file with
    | error error =>
      have hrun : run ⟨.ok file, entropy, processors⟩ (.verifyBatch input workers) =
          .failure error.message := by
        rw [run_verifyBatch _ hworkers (workers_ofRequest processors hworkers), hread]
      exact .of_failure (.noBatch rfl hread) hrun
    | ok records =>
      refine .done ?_ nofun ?_
      · intro h
        cases h with
        | noWorkers => exact hworkers rfl
        | noFile h => cases h
        | noBatch hfile h =>
          obtain rfl := Except.ok.inj hfile
          cases hread.symm.trans h
      · rw [run_verifyBatch _ hworkers (workers_ofRequest processors hworkers), hread]
        rfl

/-- **Every run ends in one of the three ways.** -/
theorem ends {command : Command} (h : Suffices supplies command) : Ends supplies command := by
  cases command with
  | generate count => exact ends_generate h
  | address key => exact ends_address
  | checksum text => exact ends_checksum
  | sign key message record => exact ends_sign h
  | recover message signature => exact ends_recover
  | verify claim message signature => exact ends_verify
  | verifyBatch input workers => exact ends_verifyBatch

/-- A command that cannot be carried out does not get to a verdict. -/
theorem Unmet.not_unproved {command : Command} (h : Unmet supplies command) :
    ¬Unproved command := by
  intro hunproved
  cases hunproved with
  | verify hclaim _ =>
    cases h with
    | verifyText h => exact h hclaim

/-- **What the exit code tells.** Where the machine supplies what the command relies on, the exit
code is 1 exactly if the command cannot be carried out, 2 exactly if an ownership was asked about
and is not proved, and 0 exactly if neither is so. With an exit code of 1 nothing is shown. -/
theorem exit_codes (supplies : Supplies) (command : Command) (h : Suffices supplies command) :
    ((run supplies command).exitCode = 1 ↔ Unmet supplies command) ∧
    ((run supplies command).exitCode = 2 ↔ Unproved command) ∧
    ((run supplies command).exitCode = 0 ↔ ¬Unmet supplies command ∧ ¬Unproved command) ∧
    ((run supplies command).exitCode = 1 → (run supplies command).output = "") := by
  cases ends h with
  | unmet hunmet hcode houtput => simp [hcode, hunmet, hunmet.not_unproved, houtput]
  | unproved hmet hunproved hcode => simp [hcode, hmet, hunproved]
  | done hmet hproved hcode => simp [hcode, hmet, hproved]

/-- Two random blocks, the first of which is no secret. -/
def twoBlocks : Supplies := ⟨.ok [], [Octets.ofNat 32 order, Octets.ofNat 32 1], 1⟩

/-- A key is made of the second block, and no two keys could be; and a key signs. -/
theorem exit_codes_zero :
    Suffices twoBlocks (.generate 1) ∧ (run twoBlocks (.generate 1)).exitCode = 0 ∧
      ¬Suffices twoBlocks (.generate 2) ∧
      Suffices twoBlocks (.sign Key.worn.hex "Some data" true) ∧
      (run twoBlocks (.sign Key.worn.hex "Some data" true)).exitCode = 0 := by
  have hone : Suffices twoBlocks (.generate 1) := by
    change 2 * (1 : UInt64).toNat ≤ twoBlocks.entropy.countP isSecret + 1
    decide +kernel
  have htwo : ¬Suffices twoBlocks (.generate 2) := by
    change ¬2 * (2 : UInt64).toNat ≤ twoBlocks.entropy.countP isSecret + 1
    decide +kernel
  have hread := Key.ofHex_hex Key.worn
  have hkey := Key.spellsScalar_iff.2 ⟨_, hread, Key.isUsable_worn⟩
  have hsign : Suffices twoBlocks (.sign Key.worn.hex "Some data" true) := by
    intro key hkey _
    obtain rfl := Except.ok.inj (hread.symm.trans hkey)
    exact Key.searchEnds_worn
  refine ⟨hone, ?_, htwo, hsign, ?_⟩
  · exact (exit_codes twoBlocks (.generate 1) hone).2.2.1.2 ⟨nofun, nofun⟩
  · refine (exit_codes twoBlocks (.sign Key.worn.hex "Some data" true) hsign).2.2.1.2 ⟨?_, nofun⟩
    intro h
    cases h with
    | signKey h => exact h hkey

end Program

end Attest
