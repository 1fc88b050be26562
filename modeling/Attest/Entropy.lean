import Attest.Curve.Scalar
import Attest.Bytes

/-!
# Drawing secrets

Random bytes come in blocks of 32. A block is a secret if the number it spells is a scalar other
than zero; all other blocks are passed over, so that every scalar is equally likely.
-/

namespace Attest

/-- The random blocks that are still to be handed out. -/
abbrev Entropy := List (Octets 32)

/-- Whether a block can be a secret. -/
def isSecret (block : Octets 32) : Bool := (Curve.Scalar.ofNat? block.toNat).isSome

/-- The first block that can be a secret, and the blocks after it; none, with all blocks handed
out, if there is no such block. -/
def Entropy.draw : Entropy → Option (Octets 32) × Entropy
  | [] => (none, [])
  | block :: rest => if isSecret block then (some block, rest) else Entropy.draw rest

end Attest
