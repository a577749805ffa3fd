/-
  WalletLogin.Bytes — byte strings as lists, and the numbers they spell in either
  byte order.

  `ofBigEndian width n` and `ofLittleEndian width n` keep the low `width` bytes of
  `n`, so they are inverse to reading exactly below `256 ^ width`.
-/

import WalletLogin.Encoding.Radix

namespace WalletLogin

open Encoding

abbrev Bytes := List UInt8

namespace Bytes

def toBigEndian (b : Bytes) : Nat := b.foldl (fun n x => n * 256 + x.toNat) 0

def toLittleEndian : Bytes → Nat
  | [] => 0
  | x :: r => x.toNat + 256 * toLittleEndian r

def ofBigEndian (width n : Nat) : Bytes := (Radix.lowDigits 256 width n).map UInt8.ofNat

def ofLittleEndian : Nat → Nat → Bytes
  | 0, _ => []
  | w + 1, n => UInt8.ofNat n :: ofLittleEndian w (n / 256)

def ofText (s : String) : Bytes := s.toUTF8.data.toList

/-- The text of which the bytes are the UTF-8 form; overlong forms, surrogates and
code points past U+10FFFF have none. -/
def toText? (b : Bytes) : Option String := String.fromUTF8? ⟨b.toArray⟩

def blocksFuel (size : Nat) : Nat → Bytes → List Bytes
  | 0, _ => []
  | fuel + 1, b => if b.isEmpty then [] else b.take size :: blocksFuel size fuel (b.drop size)

/-- The bytes cut into blocks of `size`, of which the last may be shorter. -/
def blocks (size : Nat) (b : Bytes) : List Bytes := blocksFuel size b.length b

end Bytes

end WalletLogin
