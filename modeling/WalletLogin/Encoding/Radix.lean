/-
  WalletLogin.Encoding.Radix — positional digits, most significant first.

  Zero has no digits, so a digit list written by `digits` never starts with a zero.
-/

namespace WalletLogin.Encoding.Radix

def digitsFuel (base : Nat) : Nat → Nat → List Nat → List Nat
  | 0, _, acc => acc
  | fuel + 1, n, acc => if n = 0 then acc else digitsFuel base fuel (n / base) (n % base :: acc)

/-- Each division by a base of two or more takes at least one bit, so the bit length
bounds the number of digits. -/
def digits (base n : Nat) : List Nat := digitsFuel base (n.log2 + 1) n []

/-- The low `width` digits, zeros in front included. -/
def lowDigits (base : Nat) : Nat → Nat → List Nat
  | 0, _ => []
  | w + 1, n => lowDigits base w (n / base) ++ [n % base]

def value (base : Nat) (ds : List Nat) : Nat := ds.foldl (fun n d => n * base + d) 0

end WalletLogin.Encoding.Radix
