/-
  WalletLogin.Wallet.Solana — addresses that are public keys in base 58.

  The canonical text of an address is the text of its 32 bytes. A signature comes in
  base 58, hexadecimal or base 64. A public key beside the address is optional, and if
  it is there it has to be the address.
-/

import WalletLogin.Encoding.Base58
import WalletLogin.Encoding.Lenient
import WalletLogin.Curve.Ed25519

namespace WalletLogin.Wallet.Solana

open Encoding

inductive Fault where
  | text (f : Base58.Fault)
  | wrongLength
  deriving DecidableEq, Repr

def keyLength : Nat := 32

def signatureLength : Nat := 64

def normalize (s : List Char) : Except Fault (List Char) :=
  match Base58.decode s with
  | .error f => .error (.text f)
  | .ok key => if key.length = keyLength then .ok (Base58.encode key) else .error .wrongLength

/-- The base 58 reading when it has the length of a signature, and any other reading
else. -/
def signatureBytes? (s : List Char) : Option Bytes :=
  let s := Text.Blank.trim s
  match Base58.decode s with
  | .ok b => if b.length = signatureLength then some b else Lenient.decode? s
  | .error _ => Lenient.decode? s

/-- Whether a public key is absent, blank, or a text of the address. -/
def admitsKey (address : List Char) (publicKey : Option (List Char)) : Bool :=
  match publicKey with
  | none => true
  | some k =>
    k.all Text.Blank.isBlank ||
      match normalize k with
      | .ok a => a = address
      | .error _ => false

def verify (address : List Char) (m : Bytes) (signature : List Char) (publicKey : Option (List Char)) :
    Bool :=
  match Base58.decode address, signatureBytes? signature with
  | .ok key, some b => admitsKey address publicKey && Curve.Ed25519.verify key m b
  | _, _ => false

end WalletLogin.Wallet.Solana
