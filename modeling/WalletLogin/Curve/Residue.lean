/-
  WalletLogin.Curve.Residue — arithmetic modulo a number, on representatives below it.
-/

namespace WalletLogin.Curve.Residue

def sub (m a b : Nat) : Nat := (a + (m - b % m)) % m

def powFuel (m : Nat) : Nat → Nat → Nat → Nat → Nat
  | 0, _, _, acc => acc
  | fuel + 1, b, e, acc =>
    powFuel m fuel (b * b % m) (e / 2) (if e % 2 = 1 then acc * b % m else acc)

def pow (m b e : Nat) : Nat := powFuel m (e.log2 + 1) (b % m) e (1 % m)

/-- The inverse modulo a prime; zero for zero. -/
def inverse (m a : Nat) : Nat := pow m a (m - 2)

end WalletLogin.Curve.Residue
