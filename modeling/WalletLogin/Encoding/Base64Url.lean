/-
  WalletLogin.Encoding.Base64Url — the segments of a token: bytes in the alphabet that
  is safe in addresses of pages, written without padding.

  Reading takes canonical texts only: the bits that the last character has beyond the
  last byte are zero. Padding signs are taken when they make the length a multiple of
  four as padding does, or stand after whole groups of four.
-/

import WalletLogin.Encoding.Base64

namespace WalletLogin.Encoding.Base64Url

def value? (c : Char) : Option Nat :=
  if c = '-' then some 62
  else if c = '_' then some 63
  else if c = '+' ∨ c = '/' then none
  else Base64.value? c

def char (n : Nat) : Char := if n = 62 then '-' else if n = 63 then '_' else Base64.char n

def isDigit (c : Char) : Bool := (value? c).isSome

def spare (ns : List Nat) : List Bool := (Bits.gather 8 (Bits.spread 6 ns)).2

/-- Whether `pad` padding signs may follow `n` characters; none is always enough,
unless one character is over. -/
def padded (n pad : Nat) : Bool :=
  if pad = 0 then n % 4 ≠ 1 else (n + pad) % 4 = 0 && Base64.padded n pad

def decode? (s : List Char) : Option Bytes :=
  let body := s.takeWhile isDigit
  let pad := s.dropWhile isDigit
  let ns := body.filterMap value?
  if pad.all (· = '=') && padded body.length pad.length && (spare ns).all (· = false) then
    some (Base64.bytesOf ns)
  else none

def encode (b : Bytes) : List Char := (Base64.sextets b).map char

end WalletLogin.Encoding.Base64Url
