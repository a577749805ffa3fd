/-
  WalletLogin.Wallet.Scheme — what every kind of wallet offers: the canonical text of
  an address, and the check that a signature over a message was made by an address.

  An address is trimmed before it is read. A signature or key that cannot be read is
  treated as a wrong one.
-/

import WalletLogin.Wallet.Kind
import WalletLogin.Wallet.Evm
import WalletLogin.Wallet.Solana
import WalletLogin.Wallet.Cardano.Ownership

namespace WalletLogin.Wallet

open Text

inductive AddressFault where
  | required
  | notHexAddress
  | notKey (f : Solana.Fault)
  | undecodable
  deriving DecidableEq, Repr

/-- The canonical text of a trimmed address; only a cardano address may have none. -/
def Kind.canonical (k : Kind) (s : List Char) : Except AddressFault (Option (List Char)) :=
  match k with
  | .evm =>
    match Evm.normalize? s with
    | some a => .ok (some a)
    | none => .error .notHexAddress
  | .solana =>
    match Solana.normalize s with
    | .ok a => .ok (some a)
    | .error f => .error (.notKey f)
  | .cardano =>
    match Cardano.Address.ofText? s with
    | some a => .ok a.text?
    | none => .error .undecodable

def Kind.normalize (k : Kind) (raw : Option String) : Except AddressFault (Option String) :=
  let s := Blank.trim (raw.getD "").toList
  if s.isEmpty then .error .required else (k.canonical s).map (·.map String.ofList)

/-- The bytes over which a wallet of this kind signs a text. -/
def Kind.signed (k : Kind) (text : String) : Bytes :=
  match k with
  | .evm => Evm.preimage (Bytes.ofText text)
  | .solana => Bytes.ofText text
  | .cardano => Bytes.ofText text

/-- Whether `address`, in its canonical text, made the signature over the bytes. -/
def Kind.accepts (k : Kind) (address : String) (signed : Bytes) (signature : String) (publicKey : Option String) : Bool :=
  let a := address.toList
  let s := signature.toList
  let key := publicKey.map String.toList
  match k with
  | .evm => Evm.verify a signed s
  | .solana => Solana.verify a signed s key
  | .cardano => Cardano.Ownership.verify a signed s key

/-- Whether `address`, in its canonical text, made the signature over the message. -/
def Kind.verify (k : Kind) (address message signature : String) (publicKey : Option String) : Bool :=
  k.accepts address (k.signed message) signature publicKey

end WalletLogin.Wallet
