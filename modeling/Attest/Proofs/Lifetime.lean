import Mathlib
import Attest.Key.Lifetime
import Attest.Proofs.Entropy
import Attest.Proofs.Ownership

/-!
# What a key goes through

A key is used, erased and dropped in some order. Up to the first erasure, or the end, it is what it
was made as, and every operation leaves it so; from then on it is the key of the first random block
that can be a secret, and stays that. So a lifetime has one change, the entropy is drawn from once,
and what comes after the change does not depend on the secret that was there before.

The main statements are `run_of_fixed`, `states_begun`, `run_begun` and `lifecycle`.
-/

namespace Attest

open Curve

namespace Key

namespace Lifetime

variable {life : Lifetime} {operation : Operation} {operations : List Operation}

/-! ## One operation -/

/-- What is answered to an operation on a key, if no error comes from erasing it. -/
def given (key : Key) (operation : Operation) : Answer :=
  (answer key operation).getD (.erased none)

@[simp] theorem given_publicKey (key : Key) : given key .publicKey = .publicKey key.publicKey := rfl

@[simp] theorem given_address (key : Key) : given key .address = .address key.address := rfl

@[simp] theorem given_checksummed (key : Key) :
    given key .checksummed = .text (key.address.map Address.checksummed) := rfl

@[simp] theorem given_sign (key : Key) (message : Bytes) :
    given key (.sign message) = .signature (key.sign message) := rfl

@[simp] theorem given_signHex (key : Key) (message : Bytes) :
    given key (.signHex message) = .text (key.signHex message) := rfl

@[simp] theorem given_record (key : Key) (message : String) :
    given key (.record message) = .record (Record.sign key message) := rfl

/-- **No operation but erasing changes anything.** -/
theorem perform_of_ne_erase (h : operation ≠ .erase) (life : Lifetime) :
    life.perform operation = (given life.key operation, life) := by
  cases operation with
  | erase => exact absurd rfl h
  | _ => rfl

theorem erase_of_erased (h : life.key.state = .erased) : life.erase = (none, life) := by
  obtain ⟨⟨secret, state⟩, entropy⟩ := life
  cases h
  rfl

/-- **No operation changes an erased key**, not even erasing it, or takes random blocks for it. -/
theorem perform_of_erased (h : life.key.state = .erased) (operation : Operation) :
    life.perform operation = (given life.key operation, life) := by
  by_cases herase : operation = .erase
  · subst herase
    change (Answer.erased life.erase.1, life.erase.2) = _
    rw [erase_of_erased h]
    rfl
  · exact perform_of_ne_erase herase life

/-! ## Runs -/

/-- The states of a lifetime: before each operation, before the end and after it. -/
def states (life : Lifetime) : List Operation → List Lifetime
  | [] => [life, life.finish]
  | operation :: rest => life :: (life.perform operation).2.states rest

theorem run_cons (life : Lifetime) (operation : Operation) (rest : List Operation) :
    life.run (operation :: rest) =
      ((life.perform operation).1 :: ((life.perform operation).2.run rest).1,
        ((life.perform operation).2.run rest).2) := rfl

/-- Operations that change nothing are answered one by one. -/
theorem run_of_fixed
    (h : ∀ operation ∈ operations, life.perform operation = (given life.key operation, life)) :
    life.run operations = (operations.map (given life.key), life) := by
  induction operations with
  | nil => rfl
  | cons operation rest ih =>
    obtain ⟨hfirst, hrest⟩ := List.forall_mem_cons.1 h
    simp only [run_cons, hfirst, ih hrest, List.map_cons]

/-! ## The one change -/

/-- A lifetime that begins with a key just made. -/
def begun (secret : Octets 32) (entropy : Entropy) : Lifetime := ⟨⟨secret, .live⟩, entropy⟩

/-- A lifetime whose key has been erased. -/
def gone (secret : Octets 32) (entropy : Entropy) : Lifetime := ⟨⟨secret, .erased⟩, entropy⟩

/-- The operations in front of the first erasure. -/
def beforeErasure (operations : List Operation) : List Operation :=
  operations.takeWhile (· ≠ .erase)

/-- The first erasure and the operations after it. -/
def fromErasure (operations : List Operation) : List Operation :=
  operations.dropWhile (· ≠ .erase)

theorem beforeErasure_cons_erase (rest : List Operation) :
    beforeErasure (.erase :: rest) = [] := rfl

theorem fromErasure_cons_erase (rest : List Operation) :
    fromErasure (.erase :: rest) = .erase :: rest := rfl

theorem beforeErasure_cons_of_ne (h : operation ≠ .erase) (rest : List Operation) :
    beforeErasure (operation :: rest) = operation :: beforeErasure rest :=
  List.takeWhile_cons_of_pos (decide_eq_true h)

theorem fromErasure_cons_of_ne (h : operation ≠ .erase) (rest : List Operation) :
    fromErasure (operation :: rest) = fromErasure rest :=
  List.dropWhile_cons_of_pos (decide_eq_true h)

theorem perform_gone (secret : Octets 32) (entropy : Entropy) (operation : Operation) :
    (gone secret entropy).perform operation =
      (given ⟨secret, .erased⟩ operation, gone secret entropy) :=
  perform_of_erased rfl operation

theorem states_gone (secret : Octets 32) (entropy : Entropy) (operations : List Operation) :
    (gone secret entropy).states operations =
      List.replicate (operations.length + 2) (gone secret entropy) := by
  induction operations with
  | nil => rfl
  | cons operation rest ih =>
    rw [states, perform_gone, ih]
    rfl

section Drawn

variable {secret fresh : Octets 32} {skipped rest : Entropy}
  (hskipped : ∀ block ∈ skipped, ¬(0 < block.toNat ∧ block.toNat < order))
  (hfresh : 0 < fresh.toNat ∧ fresh.toNat < order)

include hskipped hfresh

/-- **The first erasure** takes the first random block that can be a secret. -/
theorem erase_begun :
    (begun secret (skipped ++ fresh :: rest)).erase = (none, gone fresh rest) := by
  have hdraw : Entropy.draw (skipped ++ fresh :: rest) = (some fresh, rest) := by
    refine Entropy.draw_eq_some_iff.2 ⟨isSecret_iff.2 hfresh, skipped, rfl, ?_⟩
    exact fun block hblock => isSecret_eq_false_iff.2 (hskipped block hblock)
  simp only [Lifetime.erase, begun, Key.erase, hdraw]
  rfl

theorem perform_erase_begun :
    (begun secret (skipped ++ fresh :: rest)).perform .erase =
      (given ⟨fresh, .erased⟩ .erase, gone fresh rest) := by
  change (Answer.erased (Lifetime.erase _).1, (Lifetime.erase _).2) = _
  rw [erase_begun hskipped hfresh]
  rfl

/-- **The states of a lifetime** are those of the key that was made and then those of the erased
key, with one change from the first to the second. -/
theorem states_begun (operations : List Operation) :
    (begun secret (skipped ++ fresh :: rest)).states operations =
      List.replicate ((beforeErasure operations).length + 1)
        (begun secret (skipped ++ fresh :: rest)) ++
      List.replicate ((fromErasure operations).length + 1) (gone fresh rest) := by
  induction operations with
  | nil =>
    rw [states, finish, erase_begun hskipped hfresh]
    rfl
  | cons operation operations ih =>
    by_cases hop : operation = .erase
    · subst hop
      rw [states, perform_erase_begun hskipped hfresh, states_gone, beforeErasure_cons_erase,
        fromErasure_cons_erase]
      rfl
    · rw [states, perform_of_ne_erase hop, ih, beforeErasure_cons_of_ne hop,
        fromErasure_cons_of_ne hop]
      rfl

/-- **The answers of a lifetime** are those of the key that was made up to the first erasure, and
those of the erased key from then on. -/
theorem run_begun (operations : List Operation) :
    (begun secret (skipped ++ fresh :: rest)).run operations =
      ((beforeErasure operations).map (given ⟨secret, .live⟩) ++
          (fromErasure operations).map (given ⟨fresh, .erased⟩),
        if .erase ∈ operations then gone fresh rest
        else begun secret (skipped ++ fresh :: rest)) := by
  induction operations with
  | nil => rfl
  | cons operation operations ih =>
    by_cases hop : operation = .erase
    · subst hop
      have hafter : (gone fresh rest).run operations =
          (operations.map (given ⟨fresh, .erased⟩), gone fresh rest) :=
        run_of_fixed fun operation _ => perform_gone fresh rest operation
      rw [run_cons, perform_erase_begun hskipped hfresh, hafter, if_pos (List.mem_cons_self ..)]
      rfl
    · simp only [run_cons, perform_of_ne_erase hop, ih, beforeErasure_cons_of_ne hop,
        fromErasure_cons_of_ne hop, List.mem_cons, Ne.symm hop, false_or]
      rfl

/-- Whatever was done, the end leaves an erased key. -/
theorem finish_run_begun (operations : List Operation) :
    ((begun secret (skipped ++ fresh :: rest)).run operations).2.finish = gone fresh rest := by
  rw [run_begun hskipped hfresh]
  by_cases h : .erase ∈ operations
  · simp only [if_pos h, finish]
    rw [erase_of_erased rfl]
  · simp only [if_neg h, finish]
    rw [erase_begun hskipped hfresh]

end Drawn

/-! ## A key that can be used -/

/-- Whether all that is derived from a key succeeds, and what it signs leads back to its address.
Signing succeeds for a message if its search for a nonce ends. -/
structure Works (key : Key) (own : Address) : Prop where
  publicKey : ∃ publicKey, given key .publicKey = .publicKey (.ok publicKey) ∧
    Address.ofPublicKey publicKey = own
  address : given key .address = .address (.ok own)
  checksummed : given key .checksummed = .text (.ok own.checksummed)
  signs : ∀ message, key.SearchEnds message → ∃ signature,
    given key (.sign message) = .signature (.ok signature) ∧
    given key (.signHex message) = .text (.ok signature.hex) ∧
    Recovery.signer message signature.hex = .ok own
  records : ∀ message, key.SearchEnds (Text.bytes message) → ∃ record,
    given key (.record message) = .record (.ok record) ∧ record.message = message ∧
    record.verify = .confirmed own.lowercased

/-- What a key that can be used signs, in bytes and as it is written, leads back to its address. -/
theorem exists_sign {key : Key} {own : Address} {message : Bytes} (husable : key.IsUsable)
    (hends : key.SearchEnds message) (hown : key.address = .ok own) :
    ∃ signature, key.sign message = .ok signature ∧ key.signHex message = .ok signature.hex ∧
      Recovery.signer message signature.hex = .ok own := by
  obtain ⟨scalars, hsign, -⟩ := exists_signature husable hends
  obtain ⟨address, text, haddress, htext, hsigner⟩ := exists_signHex husable hends
  obtain rfl := Except.ok.inj (haddress.symm.trans hown)
  have hhex := signHex_of_sign hsign
  obtain rfl := Except.ok.inj (htext.symm.trans hhex)
  exact ⟨_, hsign, hhex, hsigner⟩

/-- **A key whose secret is a scalar other than zero works.** -/
theorem exists_works {key : Key} (h : key.IsUsable) : ∃ own, Works key own := by
  obtain ⟨publicKey, hpublic, -⟩ := exists_publicKey h
  have haddress : key.address = .ok (Address.ofPublicKey publicKey) := by
    rw [address, hpublic]
    rfl
  refine ⟨Address.ofPublicKey publicKey, ⟨publicKey, ?_, rfl⟩, ?_, ?_, ?_, ?_⟩
  · rw [given_publicKey, hpublic]
  · rw [given_address, haddress]
  · rw [given_checksummed, haddress]
    rfl
  · intro message hends
    obtain ⟨signature, hsign, hhex, hsigner⟩ := exists_sign h hends haddress
    exact ⟨signature, by rw [given_sign, hsign], by rw [given_signHex, hhex], hsigner⟩
  · intro message hends
    obtain ⟨signature, -, hhex, hsigner⟩ := exists_sign h hends haddress
    refine ⟨⟨(Address.ofPublicKey publicKey).lowercased, message, signature.hex, "2"⟩, ?_, rfl, ?_⟩
    · rw [given_record, Record.sign, hhex, haddress]
      rfl
    · rw [Record.verify, hsigner]
      exact if_pos (Recovery.names_lowercased _)

/-- **The lifetime of a key.** Let the first random block that can be a secret be `fresh`. The
states of the lifetime are that of the key just made, up to the first erasure or the end, and then
that of the erased key, which holds `fresh`; the second follows on the first once, and nothing is
drawn after that. The answers are those of the one key and then of the other, which works. A second
lifetime with another secret, whatever was done in it before, is like the first one from the first
erasure on. -/
theorem lifecycle (secret fresh : Octets 32) (skipped rest : Entropy)
    (hskipped : ∀ block ∈ skipped, ¬(0 < block.toNat ∧ block.toNat < order))
    (hfresh : 0 < fresh.toNat ∧ fresh.toNat < order) (operations : List Operation) :
    (begun secret (skipped ++ fresh :: rest)).states operations =
        List.replicate ((beforeErasure operations).length + 1)
          (begun secret (skipped ++ fresh :: rest)) ++
        List.replicate ((fromErasure operations).length + 1) (gone fresh rest) ∧
      ((begun secret (skipped ++ fresh :: rest)).run operations).1 =
        (beforeErasure operations).map (given ⟨secret, .live⟩) ++
        (fromErasure operations).map (given ⟨fresh, .erased⟩) ∧
      (∃ own, Works ⟨fresh, .erased⟩ own) ∧
      ∀ secret' operations', fromErasure operations' = fromErasure operations →
        ((begun secret' (skipped ++ fresh :: rest)).run operations').1.drop
            (beforeErasure operations').length =
          ((begun secret (skipped ++ fresh :: rest)).run operations).1.drop
            (beforeErasure operations).length ∧
        ((begun secret' (skipped ++ fresh :: rest)).run operations').2.finish =
          ((begun secret (skipped ++ fresh :: rest)).run operations).2.finish := by
  refine ⟨states_begun hskipped hfresh operations, ?_, ?_, ?_⟩
  · rw [run_begun hskipped hfresh]
  · exact exists_works hfresh
  · intro secret' operations' hfrom
    refine ⟨?_, ?_⟩
    · rw [run_begun hskipped hfresh, run_begun hskipped hfresh, hfrom]
      simp only [List.drop_left', List.length_map]
    · rw [finish_run_begun hskipped hfresh, finish_run_begun hskipped hfresh]

/-- The zero block is passed over, and the second erasure leaves the last block alone. -/
theorem lifecycle_worn :
    (∀ block ∈ [Octets.ofNat 32 0], ¬(0 < block.toNat ∧ block.toNat < order)) ∧
      (0 < worn.secret.toNat ∧ worn.secret.toNat < order) ∧
      (begun (Octets.ofNat 32 1) [Octets.ofNat 32 0, worn.secret, Octets.ofNat 32 5]).states
          [.bytes, .erase, .hex, .erase] =
        List.replicate 2
          (begun (Octets.ofNat 32 1) [Octets.ofNat 32 0, worn.secret, Octets.ofNat 32 5]) ++
        List.replicate 4 (gone worn.secret [Octets.ofNat 32 5]) ∧
      ∃ own signature, given worn (.sign (Text.bytes "Some data")) = .signature (.ok signature) ∧
        Recovery.signer (Text.bytes "Some data") signature.hex = .ok own := by
  have hskipped : ∀ block ∈ [Octets.ofNat 32 0], ¬(0 < block.toNat ∧ block.toNat < order) := by
    decide
  obtain ⟨hstates, -, ⟨own, hworks⟩, -⟩ := lifecycle (Octets.ofNat 32 1) worn.secret
    [Octets.ofNat 32 0] [Octets.ofNat 32 5] hskipped isUsable_worn [.bytes, .erase, .hex, .erase]
  obtain ⟨signature, hsign, -, hsigner⟩ := hworks.signs _ searchEnds_worn
  exact ⟨hskipped, isUsable_worn, hstates, own, signature, hsign, hsigner⟩

end Lifetime

end Key

end Attest
