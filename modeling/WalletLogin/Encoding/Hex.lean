/-
  WalletLogin.Encoding.Hex — two hexadecimal digits a byte. Reading takes both letter
  cases and nothing but digits; a leading 0x or 0X is for `unmarked` to take off.
-/

import WalletLogin.Bytes
import WalletLogin.Text.Quoted

namespace WalletLogin.Encoding.Hex

def value? (c : Char) : Option Nat :=
  if '0' ≤ c ∧ c ≤ '9' then some (c.toNat - 48)
  else if 'a' ≤ c ∧ c ≤ 'f' then some (c.toNat - 87)
  else if 'A' ≤ c ∧ c ≤ 'F' then some (c.toNat - 55)
  else none

def isDigit (c : Char) : Bool := (value? c).isSome

def encode (b : Bytes) : List Char := b.flatMap fun x => Text.Quoted.hexDigits 2 x.toNat

def decode? : List Char → Option Bytes
  | [] => some []
  | [_] => none
  | a :: b :: r => do return UInt8.ofNat (16 * (← value? a) + (← value? b)) :: (← decode? r)

/-- The text behind a leading 0x or 0X. -/
def unmarked : List Char → List Char
  | '0' :: 'x' :: r => r
  | '0' :: 'X' :: r => r
  | s => s

def decodeMarked? (s : List Char) : Option Bytes := decode? (unmarked s)

def text (b : Bytes) : String := String.ofList (encode b)

end WalletLogin.Encoding.Hex
