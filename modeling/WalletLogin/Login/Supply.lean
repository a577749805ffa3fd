/-
  WalletLogin.Login.Supply — where nonces and user ids come from: nonces that were
  laid out beforehand, and after them the numbers of a counter in hexadecimal; user ids
  from a counter of their own.
-/

import WalletLogin.Encoding.Hex

namespace WalletLogin.Login

structure Supply where
  /-- The nonces laid out, next first. -/
  nonces : List String
  nonceCount : Nat
  userCount : Nat
  deriving DecidableEq, Repr

namespace Supply

/-- The number of random bytes of a nonce. -/
def nonceWidth : Nat := 32

def widthOf (n : Int) : Nat := if n ≤ 0 then nonceWidth else n.toNat

/-- The least number of hexadecimal digits that `n` needs. -/
def hexSize (n : Nat) : Nat := n.log2 / 4 + 1

def hexText (bytes n : Nat) : String :=
  String.ofList (Text.Quoted.hexDigits (max (2 * bytes) (hexSize n)) n)

def nextNonce (s : Supply) (bytes : Nat) : String :=
  match s.nonces with
  | n :: _ => n
  | [] => hexText bytes (s.nonceCount + 1)

def takeNonce (s : Supply) : Supply :=
  match s.nonces with
  | _ :: r => { s with nonces := r }
  | [] => { s with nonceCount := s.nonceCount + 1 }

def nextUser (s : Supply) : String := "00000000-0000-4000-8000-" ++ hexText 6 (s.userCount + 1)

def takeUser (s : Supply) : Supply := { s with userCount := s.userCount + 1 }

end Supply

end WalletLogin.Login
