import Attest.Bytes

/-!
# Keccak-256

The sponge with a rate of 136 bytes over the 1600-bit permutation, and with the padding that
starts with the byte `0x01` (the first published padding, not the one standardised later as
SHA-3, which starts with `0x06`).

The state is five rows of five lanes of 64 bits. Both the rows and the lanes of a row lie in a
circle: after the last comes the first.
-/

namespace Attest.Keccak

/-- Five values in a circle. -/
structure Five (α : Type) where
  a : α
  b : α
  c : α
  d : α
  e : α

namespace Five

variable {α β : Type}

/-- Applies a function to each value. -/
def map (f : α → β) (x : Five α) : Five β := ⟨f x.a, f x.b, f x.c, f x.d, f x.e⟩

/-- Combines the values at the same places. -/
def zip (f : α → α → α) (x y : Five α) : Five α :=
  ⟨f x.a y.a, f x.b y.b, f x.c y.c, f x.d y.d, f x.e y.e⟩

/-- At each place the value that comes after it. -/
def next (x : Five α) : Five α := ⟨x.b, x.c, x.d, x.e, x.a⟩

/-- At each place the value that comes before it. -/
def previous (x : Five α) : Five α := ⟨x.e, x.a, x.b, x.c, x.d⟩

end Five

/-- Five lanes, one for each column. -/
abbrev Row := Five UInt64

/-- The five rows. -/
abbrev State := Five Row

/-- Adds two rows, bit by bit. -/
def Row.add (x y : Row) : Row := x.zip (· ^^^ ·) y

/-- Rotates a lane towards its high end, by at least one bit and fewer than 64. -/
def rotate (lane count : UInt64) : UInt64 := lane <<< count ||| lane >>> (64 - count)

/-- Adds to each lane the parities of the two columns beside its own. -/
def mixColumns (x : State) : State :=
  let parity := Row.add (Row.add (Row.add (Row.add x.a x.b) x.c) x.d) x.e
  let effect := Row.add parity.previous (parity.next.map (rotate · 1))
  x.map (Row.add · effect)

/-- Rotates every lane by its own count and moves it: of each diagonal of the old state one row is
made. The first lane stays as it is. -/
def moveLanes (x : State) : State where
  a := ⟨x.a.a, rotate x.b.b 44, rotate x.c.c 43, rotate x.d.d 21, rotate x.e.e 14⟩
  b := ⟨rotate x.a.d 28, rotate x.b.e 20, rotate x.c.a 3, rotate x.d.b 45, rotate x.e.c 61⟩
  c := ⟨rotate x.a.b 1, rotate x.b.c 6, rotate x.c.d 25, rotate x.d.e 8, rotate x.e.a 18⟩
  d := ⟨rotate x.a.e 27, rotate x.b.a 36, rotate x.c.b 10, rotate x.d.c 15, rotate x.e.d 56⟩
  e := ⟨rotate x.a.c 62, rotate x.b.d 55, rotate x.c.e 39, rotate x.d.a 41, rotate x.e.b 2⟩

/-- Combines each lane with the next two of its row; the only step that is not linear. -/
def mixRow (x : Row) : Row :=
  Row.add x (x.next.zip (fun first second => ~~~ first &&& second) x.next.next)

/-- Adds a constant to the first lane. -/
def addConstant (x : State) (constant : UInt64) : State :=
  { x with a := { x.a with a := x.a.a ^^^ constant } }

/-- One round: the three mixing steps, then the round's constant. -/
def round (x : State) (constant : UInt64) : State :=
  addConstant ((moveLanes (mixColumns x)).map mixRow) constant

/-- The constant that each round adds, in order of the rounds. -/
def roundConstants : List UInt64 :=
  [0x0000000000000001, 0x0000000000008082, 0x800000000000808A, 0x8000000080008000,
   0x000000000000808B, 0x0000000080000001, 0x8000000080008081, 0x8000000000008009,
   0x000000000000008A, 0x0000000000000088, 0x0000000080008009, 0x000000008000000A,
   0x000000008000808B, 0x800000000000008B, 0x8000000000008089, 0x8000000000008003,
   0x8000000000008002, 0x8000000000000080, 0x000000000000800A, 0x800000008000000A,
   0x8000000080008081, 0x8000000000008080, 0x0000000080000001, 0x8000000080008008]

/-- The permutation: one round for each round constant. -/
def permute (x : State) : State := roundConstants.foldl round x

/-! ## The sponge -/

/-- How many bytes each permutation takes in. -/
def rate : Nat := 136

/-- What follows a message of the given length: `0x01`, zeros, and `0x80` as the last byte of a
whole block. Where only one byte is missing, that byte is both ends at once. -/
def padding (length : Nat) : Bytes :=
  let missing := rate - length % rate
  if missing = 1 then [0x81] else 0x01 :: List.replicate (missing - 2) 0 ++ [0x80]

/-- The lane that the first eight bytes spell, the first byte being the least significant. Bytes
that are missing count as zero. -/
def laneOfBytes (bytes : Bytes) : UInt64 :=
  (bytes.take 8).foldr (fun byte lane => lane <<< 8 ||| byte.toUInt64) 0

/-- The row that the first forty bytes spell. -/
def rowOfBytes (bytes : Bytes) : Row :=
  ⟨laneOfBytes bytes, laneOfBytes (bytes.drop 8), laneOfBytes (bytes.drop 16),
    laneOfBytes (bytes.drop 24), laneOfBytes (bytes.drop 32)⟩

/-- The state that a block spells, with zeros after it. -/
def stateOfBytes (bytes : Bytes) : State :=
  ⟨rowOfBytes bytes, rowOfBytes (bytes.drop 40), rowOfBytes (bytes.drop 80),
    rowOfBytes (bytes.drop 120), rowOfBytes (bytes.drop 160)⟩

/-- Adds two states, bit by bit. -/
def State.add (x y : State) : State := x.zip Row.add y

/-- Takes in the given number of blocks, permuting after each. -/
def absorb : (blocks : Nat) → State → Bytes → State
  | 0, state, _ => state
  | blocks + 1, state, bytes =>
    absorb blocks (permute (State.add state (stateOfBytes (bytes.take rate)))) (bytes.drop rate)

/-- The eight bytes of a lane, the least significant first. -/
def bytesOfLane (lane : UInt64) : Bytes :=
  ([0, 8, 16, 24, 32, 40, 48, 56] : List UInt64).map fun shift => (lane >>> shift).toUInt8

/-- The first four lanes as bytes. -/
def squeeze (state : State) : Octets 32 :=
  let lanes := [state.a.a, state.a.b, state.a.c, state.a.d]
  ⟨(lanes.flatMap bytesOfLane).toArray, by simp [lanes, bytesOfLane]⟩

end Attest.Keccak

namespace Attest

open Keccak in
/-- The Keccak-256 digest of a message. -/
def keccak256 (message : Bytes) : Octets 32 :=
  let padded := message ++ padding message.length
  squeeze (absorb (padded.length / rate) (stateOfBytes []) padded)

end Attest
