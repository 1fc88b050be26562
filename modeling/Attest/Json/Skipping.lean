import Attest.Json.Lexis

/-!
# Passing over a value

A value that nobody asked for has to be well formed, and no more: its numbers may be out of range,
its strings may hold halves of pairs, and it may be nested to any depth. So the open containers
are kept on a stack of their own.
-/

namespace Attest.Json

/-- A container that is still open. -/
inductive Container where
  | array
  | object
  deriving DecidableEq, Repr

/-- The character that closes a container. -/
def Container.closing : Container → Char
  | array => ']'
  | object => '\x7d'

/-- The container that a character opens. -/
def Container.ofOpening? (c : Char) : Option Container :=
  if c = '[' then some array else if c = '\x7b' then some object else none

/-- Passes over a value that is no container: a word, a number or a string. -/
def skipScalar : List Char → Except Fault (List Char)
  | [] => .error .truncated
  | c :: rest =>
    if c = 'n' then word ['u', 'l', 'l'] rest
    else if c = 't' then word ['r', 'u', 'e'] rest
    else if c = 'f' then word ['a', 'l', 's', 'e'] rest
    else if c = '"' then skipStringTail rest
    else if startsNumeral c then (numeral .malformed (c :: rest)).map Prod.snd
    else .error .malformed

/-- Passes over the name of a member and the colon after it. -/
def skipName (chars : List Char) : Except Fault (List Char) := do
  let rest ← punctuation '"' chars
  let rest ← skipStringTail rest
  punctuation ':' rest

/-- Passes over what stands before an item of a container: in an object, its name. -/
def skipLabel (container : Container) (chars : List Char) : Except Fault (List Char) :=
  match container with
  | .array => .ok chars
  | .object => skipName chars

/-- Where the reader stands. -/
inductive Place where
  /-- before a value -/
  | value
  /-- just inside a container, which may be empty -/
  | opened
  /-- after a value -/
  | ended
  deriving DecidableEq, Repr

/-- Goes on from a place until the outermost value has ended; every step but the one into a
container that is not empty takes a character, so twice the length of the text is steps enough. -/
def skipFrom : (steps : Nat) → Place → List Container → List Char → Except Fault (List Char)
  | 0, _, _, _ => .error .truncated
  | _ + 1, .ended, [], chars => .ok chars
  | steps + 1, .ended, container :: outer, chars =>
    match skipSpace chars with
    | [] => .error .truncated
    | c :: rest =>
      if c = ',' then
        match skipLabel container rest with
        | .error fault => .error fault
        | .ok rest => skipFrom steps .value (container :: outer) rest
      else if c = container.closing then skipFrom steps .ended outer rest
      else .error .malformed
  | _ + 1, .opened, [], _ => .error .malformed
  | steps + 1, .opened, container :: outer, chars =>
    match skipSpace chars with
    | [] => .error .truncated
    | c :: rest =>
      if c = container.closing then skipFrom steps .ended outer rest
      else
        match skipLabel container (c :: rest) with
        | .error fault => .error fault
        | .ok rest => skipFrom steps .value (container :: outer) rest
  | steps + 1, .value, outer, chars =>
    match skipSpace chars with
    | [] => .error .truncated
    | c :: rest =>
      match Container.ofOpening? c with
      | some container => skipFrom steps .opened (container :: outer) rest
      | none =>
        match skipScalar (c :: rest) with
        | .error fault => .error fault
        | .ok rest => skipFrom steps .ended outer rest

/-- Passes over one value of any kind. -/
def skipValue (chars : List Char) : Except Fault (List Char) :=
  skipFrom (2 * chars.length + 2) .value [] chars

end Attest.Json
