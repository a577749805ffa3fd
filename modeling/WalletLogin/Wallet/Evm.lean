/-
  WalletLogin.Wallet.Evm — addresses of twenty bytes, and signatures from which the
  signer's key is recovered.

  An address is forty hexadecimal digits, marked with 0x or not, in any letter case;
  its canonical text is marked and in lower case. A signature is r, s and a recovery
  byte over the hash of the message behind a fixed line that counts its bytes.
-/

import WalletLogin.Encoding.Hex
import WalletLogin.Decimal.Digit
import WalletLogin.Curve.Secp256k1
import WalletLogin.Hash.Keccak
import WalletLogin.Text.Blank
import WalletLogin.Text.Case

namespace WalletLogin.Wallet.Evm

open Encoding Text

def mark : List Char := ['0', 'x']

def normalize? (s : List Char) : Option (List Char) :=
  let digits := Hex.unmarked s
  if digits.length = 40 && digits.all Hex.isDigit then some (mark ++ Case.lower digits) else none

def banner : Bytes := 0x19 :: Bytes.ofText "Ethereum Signed Message:\n"

/-- What is signed for a message. -/
def preimage (m : Bytes) : Bytes :=
  banner ++ (Decimal.Digit.renderNat m.length).map (fun c => UInt8.ofNat c.toNat) ++ m

/-- The signature's bytes; an odd digit count gets a zero in front. -/
def signatureBytes? (s : List Char) : Option Bytes :=
  let s := Blank.trim s
  let digits := Hex.unmarked s
  Hex.decode? (if s.length % 2 = 1 then '0' :: digits else digits)

/-- Whether the recovery byte stands for an odd ordinate. -/
def isOdd? (v : Nat) : Option Bool :=
  if v = 0 ∨ v = 27 then some false
  else if v = 1 ∨ v = 28 then some true
  else if 35 ≤ v then some ((v - 35) % 2 = 1)
  else none

/-- The address that made a signature of 65 bytes over bytes. -/
def signer? (signed signature : Bytes) : Option (List Char) := do
  if signature.length ≠ 65 then none
  let r := Bytes.toBigEndian (signature.take 32)
  let s := Bytes.toBigEndian ((signature.drop 32).take 32)
  let odd ← isOdd? (Bytes.toBigEndian (signature.drop 64))
  let h := Bytes.toBigEndian (Hash.Keccak.keccak256 signed)
  let key ← Curve.Secp256k1.recover? h r s odd
  return mark ++ Hex.encode ((Hash.Keccak.keccak256 (Curve.Secp256k1.encode key)).drop 12)

def verify (address : List Char) (signed : Bytes) (signature : List Char) : Bool :=
  match signatureBytes? signature with
  | some b => signer? signed b = some address
  | none => false

end WalletLogin.Wallet.Evm
