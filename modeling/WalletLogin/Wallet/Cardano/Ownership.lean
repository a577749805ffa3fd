/-
  WalletLogin.Wallet.Cardano.Ownership — a cardano login: a signature under a key that the
  client names, whose hash has to be the payment part of the address.

  Wallets hand out the key bare or wrapped as a byte string of 32 bytes.
-/

import WalletLogin.Wallet.Cardano.Address
import WalletLogin.Encoding.Lenient
import WalletLogin.Curve.Ed25519
import WalletLogin.Hash.Blake2b

namespace WalletLogin.Wallet.Cardano.Ownership

open Encoding

/-- The key without its wrapping. -/
def unwrap (b : Bytes) : Bytes :=
  match b with
  | 0x58 :: 0x20 :: key => if key.length = 32 then key else b
  | _ => b

def publicKey? (s : List Char) : Option Bytes := (Lenient.decode? s).map unwrap

def keyHash (key : Bytes) : Bytes := Hash.Blake2b.digest hashLength key

def isPaymentKey (address : List Char) (key : Bytes) : Bool :=
  match Address.ofText? address with
  | some a => a.paymentHash? = some (keyHash key)
  | none => false

def verify (address : List Char) (m : Bytes) (signature : List Char) (publicKey : Option (List Char)) :
    Bool :=
  match publicKey with
  | none => false
  | some k =>
    !k.all Text.Blank.isBlank &&
      match publicKey? k, Lenient.decode? signature with
      | some key, some b => Curve.Ed25519.verify key m b && isPaymentKey address key
      | _, _ => false

end WalletLogin.Wallet.Cardano.Ownership
