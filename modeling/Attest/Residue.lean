import Attest.Doubling

/-!
# Powers and inverses of residues

Residues modulo `m` are the elements of `Fin m`. Exponents have at most 256 bits. Inverses are
taken by raising to the power `m - 2`, which is right for a prime modulus; the inverse of zero is
then zero.
-/

namespace Attest.Residue

variable {m : Nat}

/-- The power of a residue, for an exponent of at most 256 bits. -/
def power (a : Fin m) (exponent : Nat) : Fin m :=
  repeated (· * ·) ⟨1 % m, Nat.mod_lt 1 a.pos⟩ a 256 exponent

/-- The inverse of a residue modulo a prime. -/
def inverse (a : Fin m) : Fin m := power a (m - 2)

end Attest.Residue
