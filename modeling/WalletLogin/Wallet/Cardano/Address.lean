/-
  WalletLogin.Wallet.Cardano.Address — cardano addresses of either era, from their
  texts and to them.

  A text with a Byron beginning is base 58; any other is bech32 if it can be, and base
  58 of a Byron address if not. Bytes from bech32 may be an address of either era: the
  eras have no header in common.
-/

import WalletLogin.Wallet.Cardano.Shelley
import WalletLogin.Wallet.Cardano.Byron

namespace WalletLogin.Wallet.Cardano

open Encoding

inductive Address where
  | shelley (a : Shelley)
  | byron (a : Byron)

namespace Address

def byronBeginnings : List (List Char) := ["Ae2td".toList, "Ddz".toList]

def ofByronText? (s : List Char) : Option Address :=
  match Base58.decode s with
  | .ok b => (Byron.ofBytes? b).map .byron
  | .error _ => none

def ofBytes? (b : Bytes) : Option Address :=
  ((Byron.ofBytes? b).map .byron).or ((Shelley.ofBytes? b).map .shelley)

def ofText? (s : List Char) : Option Address :=
  if byronBeginnings.any (·.isPrefixOf s) then ofByronText? s
  else
    match Bech32.decode? s with
    | some (_, b) => ofBytes? b
    | none => ofByronText? s

def text? : Address → Option (List Char)
  | .shelley a => a.text?
  | .byron a => a.text?

def paymentHash? : Address → Option Bytes
  | .shelley a => a.paymentHash?
  | .byron _ => none

end Address

end WalletLogin.Wallet.Cardano
