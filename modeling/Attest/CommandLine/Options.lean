import Attest.Command
import Attest.Text

/-!
# Command names and options

Every command has a name and options of its own. An option is written with two dashes and its long
name, or with one dash and a letter; it takes a text, a count or the path of a file, or nothing if
it is a flag. One command takes an operand, which is written without a name.
-/

namespace Attest.CommandLine

/-- The name of a command. -/
inductive Name where
  | generate
  | address
  | checksum
  | sign
  | recover
  | verify
  | verifyBatch
  deriving DecidableEq, Repr

/-- An option of some command. -/
inductive Opt where
  | count
  | key
  | message
  | record
  | signature
  | address
  | input
  | workers
  deriving DecidableEq, Repr

/-- All command names. -/
def Name.all : List Name := [generate, address, checksum, sign, recover, verify, verifyBatch]

/-- The word that names a command. -/
def Name.word : Name → String
  | generate => "generate"
  | address => "address"
  | checksum => "checksum"
  | sign => "sign"
  | recover => "recover"
  | verify => "verify"
  | verifyBatch => "verify-batch"

/-- The command that a word names. -/
def Name.ofWord? (word : String) : Option Name := all.find? fun name => name.word = word

/-- The options of a command. -/
def Name.options : Name → List Opt
  | generate => [.count]
  | address => [.key]
  | checksum => []
  | sign => [.key, .message, .record]
  | recover => [.message, .signature]
  | verify => [.address, .message, .signature]
  | verifyBatch => [.input, .workers]

/-- Whether a command takes an operand. -/
def Name.takesOperand : Name → Bool
  | checksum => true
  | _ => false

/-- The long name of an option. -/
def Opt.long : Opt → String
  | count => "count"
  | key => "key"
  | message => "message"
  | record => "record"
  | signature => "signature"
  | address => "address"
  | input => "input"
  | workers => "workers"

/-- The letter of an option. -/
def Opt.letter? : Opt → Option Char
  | count => some 'n'
  | key => some 'k'
  | message => some 'm'
  | record => none
  | signature => some 's'
  | address => some 'a'
  | input => some 'i'
  | workers => some 'w'

/-- What follows an option. -/
inductive Form where
  | flag
  | text
  | count
  | path
  deriving DecidableEq, Repr

/-- What follows each option. -/
def Opt.form : Opt → Form
  | count | workers => .count
  | key | message | signature | address => .text
  | record => .flag
  | input => .path

/-- What an argument asks for: an option of the command, or help. -/
inductive Request where
  | option (opt : Opt)
  | help
  deriving DecidableEq, Repr

/-- What a long name asks for. -/
def Name.requestOfLong? (name : Name) (long : List Char) : Option Request :=
  if long = "help".toList then some .help
  else (name.options.find? fun opt => opt.long.toList = long).map .option

/-- What a letter asks for. -/
def Name.requestOfLetter? (name : Name) (letter : Char) : Option Request :=
  if letter = 'h' then some .help
  else (name.options.find? fun opt => opt.letter? = some letter).map .option

end Attest.CommandLine
