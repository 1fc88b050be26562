/-!
# Bytes and the numbers they spell

Messages, keys, digests and signatures are runs of bytes. A run of any length is a list
(`Bytes`); a run whose length is part of its meaning, such as a 32-byte digest, is a vector
(`Octets n`). Numbers are written big-endian: `Bytes.toNat` reads a run as a number and
`Bytes.ofNat` writes a number in a given width.

The main statement says that reading inverts writing within the width: `Bytes.toNat_ofNat`.
-/

namespace Attest

/-- A run of bytes of any length. -/
abbrev Bytes := List UInt8

/-- A run of exactly `n` bytes. -/
abbrev Octets (n : Nat) := Vector UInt8 n

namespace Bytes

/-- The number that the bytes spell, the first byte being the most significant. -/
def toNat (bytes : Bytes) : Nat :=
  bytes.foldl (fun total byte => total * 256 + byte.toNat) 0

/-- The `width` least significant bytes of a number, the most significant first. -/
def ofNat : (width value : Nat) → Bytes
  | 0, _ => []
  | width + 1, value => ofNat width (value / 256) ++ [UInt8.ofNat value]

@[simp] theorem toNat_nil : toNat [] = 0 := rfl

@[simp] theorem toNat_concat (bytes : Bytes) (byte : UInt8) :
    toNat (bytes ++ [byte]) = toNat bytes * 256 + byte.toNat := by
  simp [toNat, List.foldl_append]

@[simp] theorem length_ofNat (width value : Nat) : (ofNat width value).length = width := by
  induction width generalizing value with
  | zero => rfl
  | succ width ih => simp [ofNat, ih]

/-- Writing in `width` bytes and reading back keeps the number modulo that power of 256. -/
theorem toNat_ofNat (width value : Nat) :
    toNat (ofNat width value) = value % Nat.pow 256 width := by
  induction width generalizing value with
  | zero => simp [ofNat, Nat.mod_one]
  | succ width ih =>
    have hsplit : value % Nat.pow 256 (width + 1) =
        value % 256 + 256 * (value / 256 % Nat.pow 256 width) := by
      rw [show Nat.pow 256 (width + 1) = 256 * Nat.pow 256 width from Nat.mul_comm .., Nat.mod_mul]
    rw [ofNat, toNat_concat, ih, UInt8.toNat_ofNat', hsplit]
    omega

end Bytes

namespace Octets

variable {n : Nat}

/-- The run as a list. -/
def toBytes (octets : Octets n) : Bytes := octets.toList

/-- A list as a run of `n` bytes, if it has that length. -/
def ofBytes? (n : Nat) (bytes : Bytes) : Option (Octets n) :=
  if h : bytes.length = n then some ⟨bytes.toArray, by simpa using h⟩ else none

/-- The number that the run spells, the first byte being the most significant. -/
def toNat (octets : Octets n) : Nat := Bytes.toNat octets.toBytes

/-- A number written in exactly `n` bytes, most significant first; higher bytes are dropped. -/
def ofNat (n value : Nat) : Octets n := ⟨(Bytes.ofNat n value).toArray, by simp⟩

@[simp] theorem length_toBytes (octets : Octets n) : octets.toBytes.length = n := by
  simp [toBytes]

@[simp] theorem toBytes_ofNat (n value : Nat) : (ofNat n value).toBytes = Bytes.ofNat n value := by
  simp [toBytes, ofNat, Vector.toList]

/-- A list of the right length is accepted, and the run holds exactly that list. -/
theorem ofBytes?_eq_some_iff {bytes : Bytes} {octets : Octets n} :
    ofBytes? n bytes = some octets ↔ bytes = octets.toBytes := by
  unfold ofBytes? toBytes
  constructor
  · intro h
    split at h
    · cases h
      simp [Vector.toList]
    · cases h
  · rintro rfl
    simp [Vector.toList]

/-- A list is refused exactly when its length is not `n`. -/
theorem ofBytes?_eq_none_iff {bytes : Bytes} :
    ofBytes? n bytes = none ↔ bytes.length ≠ n := by
  simp [ofBytes?]

end Octets

end Attest
