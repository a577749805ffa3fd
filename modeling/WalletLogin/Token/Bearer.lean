/-
  WalletLogin.Token.Bearer — the token in an authorization header. It stands behind
  the word bearer, in any letter case, and a space, or alone.
-/

import WalletLogin.Text.Blank
import WalletLogin.Text.Case

namespace WalletLogin.Token.Bearer

open Text

inductive Fault where
  | missing
  | empty
  deriving DecidableEq, Repr

def word : List Char := "bearer ".toList

def afterWord (s : List Char) : List Char :=
  if word.isPrefixOf (Case.lower s) then Blank.trim (s.drop word.length) else s

def extract (header : Option String) : Except Fault String :=
  let h := header.getD ""
  if h = "" then .error .missing
  else
    let token := afterWord (Blank.trim h.toList)
    if token.isEmpty then .error .empty else .ok (String.ofList token)

end WalletLogin.Token.Bearer
