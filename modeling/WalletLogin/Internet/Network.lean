/-
  WalletLogin.Internet.Network — networks: the hosts whose first bits are those of one
  of them. The number of these bits is given as a number, or by its digits, or for
  hosts of 32 bits by a text with these bits or all the others set.
-/

import WalletLogin.Internet.Host

namespace WalletLogin.Internet

open Decimal

structure Network where
  family : Family
  host : Nat
  length : Nat
  deriving DecidableEq, Repr

namespace Network

/-- The number of leading ones of a mask of 32 bits that has no other ones. -/
def onesOf? (mask : Nat) : Option Nat :=
  (List.range 33).find? fun n => mask = Family.short.size - Nat.pow 2 (32 - n)

/-- Of a mask or of its opposite. -/
def maskLength? (mask : Nat) : Option Nat :=
  (onesOf? mask).or (onesOf? (Family.short.size - 1 - mask))

def digitsLength? (f : Family) (s : List Char) : Option Nat :=
  if !s.isEmpty && s.all Entry.isDigit && Entry.number s ≤ f.bits then some (Entry.number s) else none

def length? (f : Family) : Given → Option Nat
  | .number n => if 0 ≤ n ∧ n ≤ f.bits then some n.toNat else none
  | .bytes b => digitsLength? f (b.map fun x => Char.ofNat x.toNat)
  | .text s =>
    match f with
    | .short => (digitsLength? f s).or ((Host.ofShortText? s).bind maskLength?)
    | .long => digitsLength? f s

def make? (f : Family) (host mask : Given) : Option Network := do
  let n ← Host.number? f host
  let len ← length? f mask
  let rest := Nat.pow 2 (f.bits - len)
  return ⟨f, n / rest * rest, len⟩

/-- The short family is tried first. Bytes that are no length end the search when the
host was a short one. -/
def ofGiven? (host mask : Given) : Option Network :=
  let isFault := match mask with
    | .bytes b => !b.isEmpty && (Host.number? .short host).isSome
    | _ => false
  (make? .short host mask).or (if isFault then none else make? .long host mask)

def hostBytes (n : Network) : Bytes := Bytes.ofBigEndian n.family.bytes n.host

end Network

end WalletLogin.Internet
