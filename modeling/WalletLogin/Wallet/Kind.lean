/-
  WalletLogin.Wallet.Kind — the kinds of wallet that can log in, and the reading of a
  kind from a client's text: blanks at the ends and letter case do not matter.
-/

import WalletLogin.Text.Blank
import WalletLogin.Text.Case

namespace WalletLogin.Wallet

open Text

inductive Kind where
  | evm
  | solana
  | cardano
  deriving DecidableEq, Repr

namespace Kind

def all : List Kind := [.evm, .solana, .cardano]

def name : Kind → String
  | .evm => "evm"
  | .solana => "solana"
  | .cardano => "cardano"

def ofName? (s : String) : Option Kind := all.find? fun k => k.name = s

def read? (raw : String) : Option Kind :=
  ofName? (String.ofList (Case.lower (Blank.trim raw.toList)))

end Kind

end WalletLogin.Wallet
