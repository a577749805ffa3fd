/-
  WalletLogin.Encoding.Bits — bit strings cut into groups of another width: bytes
  into the five or six bits that one character stands for, and back.
-/

namespace WalletLogin.Encoding.Bits

/-- The low `w` bits of `n`, most significant first. -/
def ofNat : Nat → Nat → List Bool
  | 0, _ => []
  | w + 1, n => n.testBit w :: ofNat w n

def toNat (b : List Bool) : Nat := b.foldl (fun n x => n * 2 + x.toNat) 0

def spread (w : Nat) (ns : List Nat) : List Bool := ns.flatMap (ofNat w)

/-- The first `k` groups of `w` bits. -/
def groups (w : Nat) : Nat → List Bool → List Nat
  | 0, _ => []
  | k + 1, bits => toNat (bits.take w) :: groups w k (bits.drop w)

/-- The whole groups of `w` bits, and the bits left over. -/
def gather (w : Nat) (bits : List Bool) : List Nat × List Bool :=
  let k := bits.length / w
  (groups w k bits, bits.drop (k * w))

/-- Groups of `w` bits in which zero bits fill up the last one. -/
def gatherPadded (w : Nat) (bits : List Bool) : List Nat :=
  (gather w (bits ++ List.replicate ((w - bits.length % w) % w) false)).1

end WalletLogin.Encoding.Bits
