import Attest.CommandLine.Options

/-!
# Reading a command line

Arguments are read from left to right. The value of an option may be part of the same argument,
after an equals sign or right after its letter, or be the next argument; that one is judged only
when the next option, an operand or the end is reached. Two dashes on their own make everything
after them an operand. The first problem met is the error.
-/

namespace Attest.CommandLine

/-- Why some arguments are no command. -/
inductive Error where
  /-- help is asked for -/
  | help
  /-- the version is asked for -/
  | version
  /-- no command is named -/
  | noCommand
  /-- a word that names no command -/
  | unknownCommand
  /-- an option or an operand that the command does not take -/
  | unknownArgument
  /-- an option without its value -/
  | missingValue
  /-- an empty path -/
  | emptyPath
  /-- a value for a flag -/
  | unwantedValue
  /-- an option that is given twice -/
  | repeated
  /-- a value that is no count -/
  | badCount
  /-- an option or an operand that has to be given -/
  | missingArgument
  deriving DecidableEq, Repr

/-- The exit code: asking for help or for the version is no failure. -/
def Error.exitCode : Error → UInt32
  | help | version => 0
  | _ => 2

/-- The error in words. -/
def Error.message : Error → String
  | help => "usage: COMMAND [OPTIONS], where COMMAND is one of " ++
      String.intercalate ", " (Name.all.map Name.word)
  | version => "0.1.0"
  | noCommand => "error: no command is given"
  | unknownCommand => "error: there is no such command"
  | unknownArgument => "error: an argument is not known"
  | missingValue => "error: an option has no value"
  | emptyPath => "error: a path is empty"
  | unwantedValue => "error: a flag has a value"
  | repeated => "error: an option is given twice"
  | badCount => "error: a value is no count"
  | missingArgument => "error: an argument is missing"

/-- The value of an option. -/
inductive Value where
  | flag
  | text (value : String)
  | count (value : UInt64)
  deriving DecidableEq, Repr

/-- A count: decimal digits that fit into 64 bits, with or without a plus sign in front. -/
def readCount? (chars : List Char) : Option UInt64 :=
  let digits := match chars with
    | '+' :: rest => rest
    | _ => chars
  if digits = [] ∨ !digits.all Char.isDigit then none
  else
    let value := digits.foldl (fun value c => value * 10 + (c.toNat - '0'.toNat)) 0
    if value < UInt64.size then some (UInt64.ofNat value) else none

/-- Reads the value of an option as its form asks. -/
def readValue (form : Form) (text : List Char) : Except Error Value :=
  match form with
  | .flag => .error .unwantedValue
  | .text => .ok (.text (String.ofList text))
  | .path => if text = [] then .error .emptyPath else .ok (.text (String.ofList text))
  | .count =>
    match readCount? text with
    | some value => .ok (.count value)
    | none => .error .badCount

/-- What has been read of a command's arguments. -/
structure Scan where
  /-- the options given, with their values -/
  found : List (Opt × Value)
  /-- an option that is not judged yet, with its value if that has been read -/
  pending : Option (Opt × Option (List Char))
  operand : Option String
  deriving DecidableEq, Repr

namespace Scan

/-- Nothing read yet. -/
def empty : Scan := ⟨[], none, none⟩

/-- Adds an option that is not there yet. -/
def add (scan : Scan) (opt : Opt) (value : Except Error Value) : Except Error Scan :=
  if (scan.found.lookup opt).isSome then .error .repeated
  else value.map fun value => { scan with found := (opt, value) :: scan.found }

/-- Judges the option that is pending. -/
def settle (scan : Scan) : Except Error Scan :=
  match scan.pending with
  | none => .ok scan
  | some (_, none) => .error .missingValue
  | some (opt, some text) => { scan with pending := none }.add opt (readValue opt.form text)

/-- Takes an option with the value that is part of the same argument, if there is one. -/
def takeOption (scan : Scan) (opt : Opt) (attached : Option (List Char)) : Except Error Scan := do
  let scan ← scan.settle
  match attached, opt.form with
  | none, .flag => scan.add opt (.ok .flag)
  | none, _ => pure { scan with pending := some (opt, none) }
  | some text, form => scan.add opt (readValue form text)

/-- Takes a request for an option or for help, with a value that is part of the same argument. -/
def takeRequest (scan : Scan) (request : Request) (attached : Option (List Char)) :
    Except Error Scan :=
  match request with
  | .option opt =>
    if opt.form = .flag ∧ attached.isSome then .error .unwantedValue
    else scan.takeOption opt attached
  | .help =>
    if attached.isSome then .error .unwantedValue
    else do
      let _ ← scan.settle
      .error .help

/-- Takes an argument with two dashes in front: a long name, and a value after an equals sign. -/
def takeLong (name : Name) (scan : Scan) (chars : List Char) : Except Error Scan :=
  let long := chars.takeWhile (· ≠ '=')
  let attached := (chars.dropWhile (· ≠ '=')).tail?
  match name.requestOfLong? long with
  | some request => scan.takeRequest request attached
  | none => .error .unknownArgument

/-- Takes the letters after one dash. What follows the letter of an option that is no flag is its
value, without an equals sign in front. -/
def takeLetters (name : Name) (scan : Scan) : List Char → Except Error Scan
  | [] => .ok scan
  | letter :: rest =>
    match name.requestOfLetter? letter with
    | none => .error .unknownArgument
    | some .help => scan.takeRequest .help none
    | some (.option opt) =>
      if opt.form = .flag then do
        let scan ← scan.takeOption opt none
        takeLetters name scan rest
      else
        match rest with
        | [] => scan.takeOption opt none
        | '=' :: value => scan.takeOption opt (some value)
        | value => scan.takeOption opt (some value)

/-- Takes an operand. -/
def takeOperand (name : Name) (scan : Scan) (chars : List Char) : Except Error Scan :=
  if name.takesOperand ∧ scan.operand = none then do
    let scan ← scan.settle
    pure { scan with operand := some (String.ofList chars) }
  else .error .unknownArgument

/-- Takes an argument that is no option: the value that is waited for, or else an operand. -/
def takeWord (name : Name) (scan : Scan) (chars : List Char) : Except Error Scan :=
  match scan.pending with
  | some (opt, none) => .ok { scan with pending := some (opt, some chars) }
  | _ => scan.takeOperand name chars

/-- Takes the arguments after the name of the command; after two dashes on their own, only
operands follow. -/
def takeAll (name : Name) : (onlyOperands : Bool) → Scan → List (List Char) → Except Error Scan
  | _, scan, [] => scan.settle
  | true, scan, argument :: rest => do
    let scan ← scan.takeOperand name argument
    takeAll name true scan rest
  | false, scan, argument :: rest =>
    match argument with
    | ['-', '-'] => takeAll name true scan rest
    | '-' :: '-' :: long => do
      let scan ← scan.takeLong name long
      takeAll name false scan rest
    | '-' :: letter :: letters => do
      let scan ← scan.takeLetters name (letter :: letters)
      takeAll name false scan rest
    | word => do
      let scan ← scan.takeWord name word
      takeAll name false scan rest

/-- The text of an option that has to be given. -/
def text (scan : Scan) (opt : Opt) : Except Error String :=
  match scan.found.lookup opt with
  | some (.text value) => .ok value
  | _ => .error .missingArgument

/-- The count of an option, if it is given. -/
def count? (scan : Scan) (opt : Opt) : Option UInt64 :=
  match scan.found.lookup opt with
  | some (.count value) => some value
  | _ => none

/-- The command that has been read; one key is made where no count is given. -/
def command (scan : Scan) : Name → Except Error Command
  | .generate => .ok (.generate ((scan.count? .count).getD 1))
  | .address => do
    let key ← scan.text .key
    pure (.address key)
  | .checksum =>
    match scan.operand with
    | some address => .ok (.checksum address)
    | none => .error .missingArgument
  | .sign => do
    let key ← scan.text .key
    let message ← scan.text .message
    pure (.sign key message (scan.found.lookup .record).isSome)
  | .recover => do
    let message ← scan.text .message
    let signature ← scan.text .signature
    pure (.recover message signature)
  | .verify => do
    let address ← scan.text .address
    let message ← scan.text .message
    let signature ← scan.text .signature
    pure (.verify address message signature)
  | .verifyBatch => do
    let input ← scan.text .input
    pure (.verifyBatch input (scan.count? .workers))

end Scan

/-- The error for the arguments after the word `help`: at most one command can be named, and help
has a topic of its own. -/
def helpTopic : List String → Error
  | [] => .help
  | [topic] =>
    if topic = "help" ∨ (Name.ofWord? topic).isSome then .help else .unknownCommand
  | _ => .unknownCommand

/-- The error for the first argument where no command can follow it, as it starts with a dash. -/
def leadingOption : List Char → Error
  | '-' :: '-' :: long =>
    let name := long.takeWhile (· ≠ '=')
    let attached := (long.dropWhile (· ≠ '=')).tail?
    if name ≠ "help".toList ∧ name ≠ "version".toList then .unknownArgument
    else if attached.isSome then .unwantedValue
    else if name = "help".toList then .help
    else .version
  | '-' :: 'h' :: _ => .help
  | '-' :: 'V' :: _ => .version
  | '-' :: _ :: _ => .unknownArgument
  | _ => .unknownCommand

/-- Reads the arguments of the program. -/
def read : List String → Except Error Command
  | [] => .error .noCommand
  | "--" :: [] => .error .noCommand
  | "--" :: word :: _ =>
    -- where an operand stands, a command is out of place
    if word = "help" ∨ (Name.ofWord? word).isSome then .error .unknownArgument
    else .error .unknownCommand
  | word :: arguments =>
    match Name.ofWord? word with
    | some name => do
      let scan ← Scan.takeAll name false .empty (arguments.map String.toList)
      scan.command name
    | none =>
      if word = "help" then .error (helpTopic arguments)
      else .error (leadingOption word.toList)

end Attest.CommandLine
