/-
  WalletLogin.Login.Procedure — storage work inside a call, and how its breakdowns
  surface.
-/

import WalletLogin.Login.Refusal

namespace WalletLogin.Login

open Ledger

abbrev Procedure (α : Type) := ExceptT Failure (StateM Session) α

/-- The wallet kind and address that a call names; either may be absent. -/
structure Subject where
  walletType : Option String
  address : Option String
  deriving DecidableEq, Repr

def Subject.owner? (s : Subject) : Option Owner := do return ⟨← s.walletType, ← s.address⟩

namespace Procedure

def refuse {α : Type} (r : Refusal) : Procedure α := throw (.refused r)

/-- Runs storage work; a breakdown goes to `handler`. -/
def attempt {α : Type} (work : Store α) (handler : Breakdown → Procedure α) : Procedure α := fun s =>
  match work s with
  | (.ok a, s) => (.ok a, s)
  | (.error b, s) => handler b s

def rollback : Procedure Unit := modify Session.rollback

def raise {α : Type} : Breakdown → Procedure α
  | .fault f => throw (.storageBroke f)
  | .tooWide => throw .numberTooWide
  | .orphan => throw .orphanWallet

/-- Rolls back; a fault of the storage is a refusal. -/
def surface {α : Type} (b : Breakdown) : Procedure α := do
  rollback
  match b with
  | .fault _ => refuse .storage
  | b => raise b

def guarded {α : Type} (work : Store α) : Procedure α := attempt work surface

/-- Storage work that stands outside every guard. -/
def unguarded {α : Type} (work : Store α) : Procedure α := attempt work raise

end Procedure

end WalletLogin.Login
