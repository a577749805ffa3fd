/-
  WalletLogin.Login.Nonces — one-time challenges: a nonce is stored for an owner and a
  lifetime, and spent once, by its owner, before it expires.

  Spending is one conditional statement, so of several attempts one finds the row.
-/

import WalletLogin.Login.Procedure

namespace WalletLogin.Login.Nonces

open Ledger Procedure

/-- The row that the commit writes. Without an owner it breaks a constraint. -/
def insert (o : Option Owner) (nonce : String) (now expires : Int) : Change :=
  Store.fitting [now, expires] fun t =>
    Store.constrained (o.bind fun o => t.addNonce? ⟨nonce, o, now, expires, none⟩)

def create (nonce : String) (subject : Subject) (now ttl : Int) : Procedure Unit := do
  modify fun s => { s with drewNonce := true }
  guarded (Store.commitWith (insert subject.owner? nonce now (now + ttl)))

/-- The row of a nonce, read again after its commit. -/
def reread (nonce : String) : Procedure NonceRow := unguarded (Store.reload fun t => t.findNonce? nonce)

/-- Spends the nonce in the draft; whether a row was there. -/
def execute (o : Option Owner) (nonce : Option String) (now : Int) : Store Bool := do
  Store.meet .execute
  Store.needTables
  if !fits now then Store.fail .tooWide
  match o, nonce with
  | some o, some n => do
    let t := (← get).draft
    modify fun s => { s with draft := t.spend o n now }
    return t.spendable o n now = 1
  | _, _ => return false

def spend (o : Option Owner) (nonce : Option String) (now : Int) : Store Bool := do
  let hit ← execute o nonce now
  Store.commit
  return hit

def consume (subject : Subject) (nonce : Option String) (now : Int) : Procedure Unit := do
  if !(← guarded (spend subject.owner? nonce now)) then refuse .nonce

end WalletLogin.Login.Nonces
