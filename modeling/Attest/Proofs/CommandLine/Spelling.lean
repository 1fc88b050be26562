import Mathlib
import Attest.CommandLine.Spelling
import Attest.CommandLine.Reading
import Attest.Proofs.CommandLine.Reading

/-!
# Commands as they are spelled

The options of a command with their values are all that a command says, apart from its name and its
operand. Since they come once each, a command can be read back from its spelling whatever their
order is, and whatever its texts look like: empty, with dashes in front or with equals signs in
them.

The main statements are `Scan.command_of_perm` and `read_spelled`.
-/

namespace Attest.CommandLine

/-! ## What a command says -/

/-- The options of a command, with their values. -/
def entries : Command → List (Opt × Value)
  | .generate count => [(.count, .count count)]
  | .address key => [(.key, .text key)]
  | .checksum _ => []
  | .sign key message record =>
    [(.key, .text key), (.message, .text message)] ++ if record then [(.record, .flag)] else []
  | .recover message signature => [(.message, .text message), (.signature, .text signature)]
  | .verify address message signature =>
    [(.address, .text address), (.message, .text message), (.signature, .text signature)]
  | .verifyBatch input workers =>
    (.input, .text input) ::
      match workers with
      | some workers => [(.workers, .count workers)]
      | none => []

/-- The operand of a command, where it has one. -/
def operandOf : Command → Option String
  | .checksum address => some address
  | _ => none

/-- Whether the command names a file, if it needs one. -/
def NamesFile : Command → Prop
  | .verifyBatch input _ => input ≠ ""
  | _ => True

variable {command : Command} {found : List (Opt × Value)}

theorem map_spelledEntry_entries (command : Command) :
    (entries command).map spelledEntry = spelledOptions command := by
  cases command with
  | generate | address | checksum | recover | verify => rfl
  | sign key message record => cases record <;> rfl
  | verifyBatch input workers => cases workers <;> rfl

/-- The options that a command comes with are some of those that it can have, in their order. -/
theorem sublist_options (command : Command) :
    ((entries command).map Prod.fst).Sublist (nameOf command).options := by
  cases command with
  | generate | address | checksum | recover | verify => exact List.Sublist.refl _
  | sign key message record =>
    cases record with
    | true => exact List.Sublist.refl _
    | false => exact List.sublist_append_left [Opt.key, Opt.message] [Opt.record]
  | verifyBatch input workers =>
    cases workers with
    | some workers => exact List.Sublist.refl _
    | none => exact List.sublist_append_left [Opt.input] [Opt.workers]

theorem nodup_options (name : Name) : name.options.Nodup := by
  cases name <;> decide

theorem nodup_map_fst_entries (command : Command) : ((entries command).map Prod.fst).Nodup :=
  (sublist_options command).nodup (nodup_options _)

/-- Each value is one that its option can have. -/
theorem takes_of_mem_entries (hfile : NamesFile command) :
    ∀ entry ∈ entries command, entry.1.form.Takes entry.2 := by
  cases command with
  | generate count => exact List.forall_mem_singleton.2 (.count count)
  | address key => exact List.forall_mem_singleton.2 (.text key)
  | checksum address => exact List.forall_mem_nil _
  | sign key message record =>
    refine List.forall_mem_cons.2 ⟨.text key, List.forall_mem_cons.2 ⟨.text message, ?_⟩⟩
    cases record with
    | true => exact List.forall_mem_singleton.2 .flag
    | false => exact List.forall_mem_nil _
  | recover message signature =>
    exact List.forall_mem_cons.2 ⟨.text message, List.forall_mem_singleton.2 (.text signature)⟩
  | verify address message signature =>
    exact List.forall_mem_cons.2 ⟨.text address,
      List.forall_mem_cons.2 ⟨.text message, List.forall_mem_singleton.2 (.text signature)⟩⟩
  | verifyBatch input workers =>
    refine List.forall_mem_cons.2 ⟨.path hfile, ?_⟩
    cases workers with
    | some workers => exact List.forall_mem_singleton.2 (.count workers)
    | none => exact List.forall_mem_nil _

/-! ## From what is found to the command -/

/-- Which command has been read depends on what each option finds, and on the operand. -/
theorem Scan.command_congr {scan scan' : Scan} (name : Name)
    (hlookup : ∀ opt, scan.found.lookup opt = scan'.found.lookup opt)
    (hoperand : scan.operand = scan'.operand) : scan.command name = scan'.command name := by
  cases name <;> simp only [Scan.command, Scan.count?, Scan.text, hlookup, hoperand]

theorem Scan.command_entries (command : Command) :
    (Scan.mk (entries command) none (operandOf command)).command (nameOf command) =
      .ok command := by
  cases command with
  | generate | address | checksum | recover | verify => rfl
  | sign key message record => cases record <;> rfl
  | verifyBatch input workers => cases workers <;> rfl

/-- **A command is what has been found of it**, in any order. -/
theorem Scan.command_of_perm (hperm : found.Perm (entries command)) :
    (Scan.mk found none (operandOf command)).command (nameOf command) = .ok command := by
  rw [← Scan.command_entries command]
  refine Scan.command_congr _ (fun opt => ?_) rfl
  exact (lookup_eq_of_perm (nodup_map_fst_entries command) hperm.symm).symm

/-! ## Reading what is spelled -/

theorem read_word (name : Name) (arguments : List String) :
    read (name.word :: arguments) =
      Scan.takeAll name false .empty (arguments.map String.toList) >>= fun scan =>
        scan.command name := by
  have hword : name.word ≠ "--" := by cases name <;> decide
  rw [read, ofWord?_word]
  · exact fun h _ => hword h
  · exact fun _ _ h _ => hword h

/-- Behind the two dashes an operand is taken as it is. -/
theorem takeAll_spelledOperand (command : Command) (found : List (Opt × Value)) :
    Scan.takeAll (nameOf command) false ⟨found, none, none⟩
        ((spelledOperand command).map String.toList) =
      .ok ⟨found, none, operandOf command⟩ := by
  cases command with
  | generate | address | sign | recover | verify | verifyBatch => rfl
  | checksum address =>
    have hdashes : "--".toList = ['-', '-'] := by decide
    have htake : Scan.takeOperand .checksum ⟨found, none, none⟩ address.toList =
        .ok ⟨found, none, some (String.ofList address.toList)⟩ := rfl
    rw [spelledOperand, List.map_cons, List.map_singleton, hdashes]
    change (Scan.takeOperand .checksum ⟨found, none, none⟩ address.toList >>= fun scan =>
      Scan.takeAll .checksum true scan []) = _
    rw [htake, String.ofList_toList]
    rfl

/-- Arguments that are the options of a command in any order are spelled from its entries in that
order. -/
theorem exists_entries {options : List String} (horder : options.Perm (spelledOptions command)) :
    ∃ found : List (Opt × Value),
      options = found.map spelledEntry ∧ found.Perm (entries command) := by
  rw [← map_spelledEntry_entries] at horder
  have hcomp := congrFun (congrFun (List.eq_map_comp_perm spelledEntry) options) (entries command)
  rwa [← hcomp] at horder

/-- **A command is read back from its spelling**, whatever its texts are and whatever the order of
its options is. The only text that cannot be spelled is an empty path. Where no count is given, one
key is made. -/
theorem read_spelled {command : Command} {options : List String} (hfile : NamesFile command)
    (horder : options.Perm (spelledOptions command)) :
    read (spelled command options) = .ok command ∧
      read [Name.generate.word] = .ok (.generate 1) := by
  refine ⟨?_, by rw [read_word]; rfl⟩
  obtain ⟨found, rfl, hperm⟩ := exists_entries horder
  have hentries : ∀ entry ∈ found,
      entry.1 ∈ (nameOf command).options ∧ entry.1.form.Takes entry.2 := by
    intro entry hentry
    have hmem := hperm.mem_iff.1 hentry
    exact ⟨(sublist_options command).subset (List.mem_map_of_mem hmem),
      takes_of_mem_entries hfile entry hmem⟩
  have hreverse : found.reverse.Perm (entries command) := (List.reverse_perm found).trans hperm
  have hnames : ((found.reverse ++ Scan.empty.found).map Prod.fst).Nodup := by
    rw [Scan.empty, List.append_nil]
    exact (hreverse.map Prod.fst).nodup_iff.2 (nodup_map_fst_entries command)
  rw [spelled, List.cons_append, read_word, List.map_append,
    Scan.takeAll_entries hentries hnames rfl, Scan.empty, List.append_nil, takeAll_spelledOperand]
  exact Scan.command_of_perm hreverse

/-- A file whose name looks like an option. -/
theorem read_spelled_dashes :
    NamesFile (.verifyBatch "--workers=1" (some 3)) ∧
      ["--workers=3", "--input=--workers=1"].Perm
        (spelledOptions (.verifyBatch "--workers=1" (some 3))) ∧
      read ["verify-batch", "--workers=3", "--input=--workers=1"] =
        .ok (.verifyBatch "--workers=1" (some 3)) := by
  have hfile : NamesFile (.verifyBatch "--workers=1" (some 3)) := by
    change "--workers=1" ≠ ""
    decide
  have horder : ["--workers=3", "--input=--workers=1"].Perm
      (spelledOptions (.verifyBatch "--workers=1" (some 3))) := by decide
  exact ⟨hfile, horder, (read_spelled hfile horder).1⟩

example : read ["sign", "--record", "--message=--record", "--key=="] =
    .ok (.sign "=" "--record" true) := by decide

end Attest.CommandLine
