/-
  WalletLogin.Encoding.Base58 — bytes as a number in base 58, with one leading 1 for
  each leading zero byte.

  Reading drops blanks at the end and then names the first character, left to right
  and after the leading ones, that is no digit.
-/

import WalletLogin.Bytes
import WalletLogin.Encoding.Radix
import WalletLogin.Text.Blank

namespace WalletLogin.Encoding.Base58

inductive Fault where
  | notAscii
  | foreign (c : Char)
  deriving DecidableEq, Repr

def alphabet : List Char := "123456789ABCDEFGHJKLMNPQRSTUVWXYZabcdefghijkmnopqrstuvwxyz".toList

def char (n : Nat) : Char := alphabet.getD n '1'

def value? (c : Char) : Option Nat := alphabet.idxOf? c

/-- The bytes of digits without blanks around them. -/
def decodeDigits (s : List Char) : Except Fault Bytes := do
  let ones := s.takeWhile (· = '1')
  let ds ← (s.dropWhile (· = '1')).mapM fun c =>
    match value? c with
    | some d => .ok d
    | none => .error (.foreign c)
  return List.replicate ones.length 0 ++ (Radix.digits 256 (Radix.value 58 ds)).map UInt8.ofNat

def decode (s : List Char) : Except Fault Bytes :=
  let s := Text.Blank.trimRight s
  if s.all (·.toNat < 128) then decodeDigits s else .error .notAscii

def encode (b : Bytes) : List Char :=
  let zeros := b.takeWhile (· = 0)
  List.replicate zeros.length '1' ++ (Radix.digits 58 (Bytes.toBigEndian b)).map char

end WalletLogin.Encoding.Base58
