import Attest.CommandLine.Options

/-!
# Spelling a command

How to write a command so that it can be read whatever its texts are: each option with its value
after an equals sign, and the operand after two dashes.
-/

namespace Attest.CommandLine

/-- An option with its value in one argument. -/
def spell (opt : Opt) (value : List Char) : String :=
  String.ofList ('-' :: '-' :: opt.long.toList ++ '=' :: value)

/-- A flag. -/
def spellFlag (opt : Opt) : String := String.ofList ('-' :: '-' :: opt.long.toList)

/-- The name of a command. -/
def nameOf : Command → Name
  | .generate _ => .generate
  | .address _ => .address
  | .checksum _ => .checksum
  | .sign _ _ _ => .sign
  | .recover _ _ => .recover
  | .verify _ _ _ => .verify
  | .verifyBatch _ _ => .verifyBatch

/-- The options of a command, each as one argument; they may be written in any order. -/
def spelledOptions : Command → List String
  | .generate count => [spell .count (Text.decimal count.toNat)]
  | .address key => [spell .key key.toList]
  | .checksum _ => []
  | .sign key message record =>
    [spell .key key.toList, spell .message message.toList] ++
      if record then [spellFlag .record] else []
  | .recover message signature =>
    [spell .message message.toList, spell .signature signature.toList]
  | .verify address message signature =>
    [spell .address address.toList, spell .message message.toList,
      spell .signature signature.toList]
  | .verifyBatch input workers =>
    spell .input input.toList ::
      match workers with
      | some workers => [spell .workers (Text.decimal workers.toNat)]
      | none => []

/-- The operand of a command, where it has one, after the two dashes that mark it. -/
def spelledOperand : Command → List String
  | .checksum address => ["--", address]
  | _ => []

/-- A command with its options in the order given. -/
def spelled (command : Command) (options : List String) : List String :=
  (nameOf command).word :: options ++ spelledOperand command

end Attest.CommandLine
