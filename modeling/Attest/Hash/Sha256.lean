import Attest.Bytes

/-!
# SHA-256

The digest works on eight 32-bit words. Each 64-byte block is expanded to 64 words by a sliding
window over the last sixteen, and every expanded word drives one step of the compression.
-/

namespace Attest.Sha256

/-- The eight words that a block changes. -/
structure Words where
  a : UInt32
  b : UInt32
  c : UInt32
  d : UInt32
  e : UInt32
  f : UInt32
  g : UInt32
  h : UInt32

/-- Adds two groups of words, each modulo `2 ^ 32`. -/
def Words.add (x y : Words) : Words :=
  ⟨x.a + y.a, x.b + y.b, x.c + y.c, x.d + y.d, x.e + y.e, x.f + y.f, x.g + y.g, x.h + y.h⟩

/-- The words before the first block. -/
def initial : Words :=
  ⟨0x6a09e667, 0xbb67ae85, 0x3c6ef372, 0xa54ff53a, 0x510e527f, 0x9b05688c, 0x1f83d9ab, 0x5be0cd19⟩

/-- The constant of each step, in order. -/
def stepConstants : List UInt32 :=
  [0x428a2f98, 0x71374491, 0xb5c0fbcf, 0xe9b5dba5, 0x3956c25b, 0x59f111f1, 0x923f82a4, 0xab1c5ed5,
   0xd807aa98, 0x12835b01, 0x243185be, 0x550c7dc3, 0x72be5d74, 0x80deb1fe, 0x9bdc06a7, 0xc19bf174,
   0xe49b69c1, 0xefbe4786, 0x0fc19dc6, 0x240ca1cc, 0x2de92c6f, 0x4a7484aa, 0x5cb0a9dc, 0x76f988da,
   0x983e5152, 0xa831c66d, 0xb00327c8, 0xbf597fc7, 0xc6e00bf3, 0xd5a79147, 0x06ca6351, 0x14292967,
   0x27b70a85, 0x2e1b2138, 0x4d2c6dfc, 0x53380d13, 0x650a7354, 0x766a0abb, 0x81c2c92e, 0x92722c85,
   0xa2bfe8a1, 0xa81a664b, 0xc24b8b70, 0xc76c51a3, 0xd192e819, 0xd6990624, 0xf40e3585, 0x106aa070,
   0x19a4c116, 0x1e376c08, 0x2748774c, 0x34b0bcb5, 0x391c0cb3, 0x4ed8aa4a, 0x5b9cca4f, 0x682e6ff3,
   0x748f82ee, 0x78a5636f, 0x84c87814, 0x8cc70208, 0x90befffa, 0xa4506ceb, 0xbef9a3f7, 0xc67178f2]

/-- Rotates a word towards its low end. -/
def rotate (word count : UInt32) : UInt32 := word >>> count ||| word <<< (32 - count)

/-- Four values in a queue, the oldest first. -/
structure Four (α : Type) where
  a : α
  b : α
  c : α
  d : α

/-- The oldest value leaves and a new one joins. -/
def Four.push {α : Type} (x : Four α) (fresh : α) : Four α := ⟨x.b, x.c, x.d, fresh⟩

/-- Sixteen words of the expanded block, the oldest first, in four queues one behind the other. -/
abbrev Window := Four (Four UInt32)

/-- The next sixteen words of the expanded block: the oldest leaves and a combination of four of
them joins. -/
def slide (x : Window) : Window :=
  let early := x.a.b
  let late := x.d.c
  let fresh := x.a.a + (rotate early 7 ^^^ rotate early 18 ^^^ early >>> 3) + x.c.b +
    (rotate late 17 ^^^ rotate late 19 ^^^ late >>> 10)
  ⟨x.a.push x.b.a, x.b.push x.c.a, x.c.push x.d.a, x.d.push fresh⟩

/-- One step of the compression, driven by a constant and a word of the expanded block. -/
def step (x : Words) (constant word : UInt32) : Words :=
  let choice := (x.e &&& x.f) ^^^ (~~~ x.e &&& x.g)
  let majority := (x.a &&& x.b) ^^^ (x.a &&& x.c) ^^^ (x.b &&& x.c)
  let gain := x.h + (rotate x.e 6 ^^^ rotate x.e 11 ^^^ rotate x.e 25) + choice + constant + word
  ⟨gain + (rotate x.a 2 ^^^ rotate x.a 13 ^^^ rotate x.a 22) + majority,
    x.a, x.b, x.c, x.d + gain, x.e, x.f, x.g⟩

/-- The big-endian word in the first four bytes. -/
def wordOfBytes (bytes : Bytes) : UInt32 :=
  (bytes.take 4).foldl (fun word byte => word <<< 8 ||| byte.toUInt32) 0

/-- The four big-endian words in the first sixteen bytes. -/
def queueOfBytes (bytes : Bytes) : Four UInt32 :=
  ⟨wordOfBytes bytes, wordOfBytes (bytes.drop 4), wordOfBytes (bytes.drop 8),
    wordOfBytes (bytes.drop 12)⟩

/-- The sixteen words of a block. -/
def windowOfBytes (bytes : Bytes) : Window :=
  ⟨queueOfBytes bytes, queueOfBytes (bytes.drop 16), queueOfBytes (bytes.drop 32),
    queueOfBytes (bytes.drop 48)⟩

/-- Takes in one block. -/
def compress (words : Words) (block : Bytes) : Words :=
  let finish := stepConstants.foldl
    (fun (x, window) constant => (step x constant window.a.a, slide window))
    (words, windowOfBytes block)
  words.add finish.1

/-- What follows a message of the given length: `0x80`, zeros, and the length in bits as eight
bytes that end a whole block. -/
def padding (length : Nat) : Bytes :=
  0x80 :: List.replicate ((119 - length % 64) % 64) 0 ++ Bytes.ofNat 8 (8 * length)

/-- Takes in the given number of blocks. -/
def absorb : (blocks : Nat) → Words → Bytes → Words
  | 0, words, _ => words
  | blocks + 1, words, bytes => absorb blocks (compress words (bytes.take 64)) (bytes.drop 64)

/-- The four bytes of a word, the most significant first. -/
def bytesOfWord (word : UInt32) : Bytes :=
  ([24, 16, 8, 0] : List UInt32).map fun shift => (word >>> shift).toUInt8

/-- The words as bytes. -/
def Words.toOctets (x : Words) : Octets 32 :=
  let words := [x.a, x.b, x.c, x.d, x.e, x.f, x.g, x.h]
  ⟨(words.flatMap bytesOfWord).toArray, by simp [words, bytesOfWord]⟩

end Attest.Sha256

namespace Attest

open Sha256 in
/-- The SHA-256 digest of a message. -/
def sha256 (message : Bytes) : Octets 32 :=
  let padded := message ++ padding message.length
  (absorb (padded.length / 64) initial padded).toOctets

end Attest
