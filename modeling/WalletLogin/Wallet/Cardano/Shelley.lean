/-
  WalletLogin.Wallet.Cardano.Shelley — addresses as a header byte and one or two
  parts, and their canonical text.

  The header's high half tells which parts follow and whether each is the hash of a key
  or of a script; its low half is the network. A stake part may instead point at a
  certificate, by three numbers of seven bits a byte.
-/

import WalletLogin.Encoding.Bech32
import WalletLogin.Encoding.Radix

namespace WalletLogin.Wallet.Cardano

open Encoding

inductive Network where
  | test
  | main
  deriving DecidableEq, Repr

structure Credential where
  isScript : Bool
  hash : Bytes
  deriving DecidableEq, Repr

structure Pointer where
  slot : Nat
  transaction : Nat
  certificate : Nat
  deriving DecidableEq, Repr

inductive Parts where
  | base (payment stake : Credential)
  | pointer (payment : Credential) (stake : Pointer)
  | payment (payment : Credential)
  | stake (stake : Credential)
  deriving DecidableEq, Repr

structure Shelley where
  network : Network
  parts : Parts
  deriving DecidableEq, Repr

def hashLength : Nat := 28

def Network.code : Network → Nat
  | .test => 0
  | .main => 1

def Network.ofCode? : Nat → Option Network
  | 0 => some .test
  | 1 => some .main
  | _ => none

namespace Pointer

def markAll (ds : List Nat) : Bytes := ds.map fun d => UInt8.ofNat (128 + d)

/-- A number in groups of seven bits, all but the last marked by the top bit. -/
def writeNumber (n : Nat) : Bytes := markAll (Radix.digits 128 (n / 128)) ++ [UInt8.ofNat (n % 128)]

/-- The numbers that end in `b`; one that does not end is dropped. -/
def numbers (acc : Nat) : Bytes → List Nat
  | [] => []
  | x :: r =>
    let n := acc * 128 + x.toNat % 128
    if x.toNat < 128 then n :: numbers 0 r else numbers n r

def write (p : Pointer) : Bytes :=
  writeNumber p.slot ++ writeNumber p.transaction ++ writeNumber p.certificate

def read? (b : Bytes) : Option Pointer :=
  match numbers 0 b with
  | [s, t, c] => some ⟨s, t, c⟩
  | _ => none

end Pointer

namespace Shelley

def hash? (isScript : Bool) (b : Bytes) : Option Credential :=
  if b.length = hashLength then some ⟨isScript, b⟩ else none

/-- The parts that a header's high half announces. -/
def parts? (type : Nat) (b : Bytes) : Option Parts :=
  match type with
  | 0 => both false false
  | 1 => both true false
  | 2 => both false true
  | 3 => both true true
  | 4 => pointing false
  | 5 => pointing true
  | 6 => (hash? false b).map .payment
  | 7 => (hash? true b).map .payment
  | 14 => (hash? false b).map .stake
  | 15 => (hash? true b).map .stake
  | _ => none
where
  both (p s : Bool) : Option Parts := do
    return .base (← hash? p (b.take hashLength)) (← hash? s (b.drop hashLength))
  pointing (p : Bool) : Option Parts := do
    return .pointer (← hash? p (b.take hashLength)) (← Pointer.read? (b.drop hashLength))

def ofBytes? : Bytes → Option Shelley
  | [] => none
  | h :: r => do return ⟨← Network.ofCode? (h.toNat % 16), ← parts? (h.toNat / 16) r⟩

def type : Parts → Nat
  | .base p s => (if p.isScript then 1 else 0) + (if s.isScript then 2 else 0)
  | .pointer p _ => if p.isScript then 5 else 4
  | .payment p => if p.isScript then 7 else 6
  | .stake s => if s.isScript then 15 else 14

def payload : Parts → Bytes
  | .base p s => p.hash ++ s.hash
  | .pointer p s => p.hash ++ s.write
  | .payment p => p.hash
  | .stake s => s.hash

def toBytes (a : Shelley) : Bytes := UInt8.ofNat (16 * type a.parts + a.network.code) :: payload a.parts

def readable (a : Shelley) : List Char :=
  let name := match a.parts with
    | .stake _ => "stake"
    | _ => "addr"
  let network := match a.network with
    | .test => "_test"
    | .main => ""
  (name ++ network).toList

def text (a : Shelley) : List Char := Bech32.encode .plain a.readable a.toBytes

/-- The canonical text; an address whose text would be too long has none. -/
def text? (a : Shelley) : Option (List Char) :=
  if a.text.length ≤ Bech32.maxLength then some a.text else none

/-- The hash that a login has to match. -/
def paymentHash? (a : Shelley) : Option Bytes :=
  match a.parts with
  | .base p _ => some p.hash
  | .pointer p _ => some p.hash
  | .payment p => some p.hash
  | .stake _ => none

end Shelley

end WalletLogin.Wallet.Cardano
