/-
  WalletLogin.Login.Run — calls on the stored tables, one after the other.

  A call opens a session on the tables, and what it left stored is what the next call
  finds; a draft that was not committed is lost.
-/

import WalletLogin.Login.Service

namespace WalletLogin.Login

open Ledger

inductive Call where
  | issue (walletType address : Option String) (deadline : Option Int)
  | login (request : Request) (deadline : Option Int)
  | profile (userId : Option String)
  deriving DecidableEq, Repr

inductive Answer where
  | challenge (c : Challenge)
  | result (r : Result)
  | profile (p : Option Users.Profile)
  deriving DecidableEq, Repr

structure Outcome (α : Type) where
  answer : Except Failure α
  tables : Tables
  drewNonce : Bool
  drewUser : Bool

/-- Runs a call's work on the tables. -/
def perform {α : Type} (work : Procedure α) (faults : Faults) (t : Tables) : Outcome α :=
  let (answer, s) := work (Session.opened t faults)
  ⟨answer, s.stored, s.drewNonce, s.drewUser⟩

def serve (cfg : Config) (env : Conditions) : Call → Procedure Answer
  | .issue w a d => .challenge <$> issue cfg env w a d
  | .login r d => .result <$> login cfg env r d
  | .profile u => .profile <$> Users.profile u

/-- A call with the configuration and the conditions that it meets. -/
structure Event where
  config : Config
  conditions : Conditions
  call : Call

def Event.outcome (e : Event) (t : Tables) : Outcome Answer :=
  perform (serve e.config e.conditions e.call) e.conditions.faults t

/-- The answers of a run and the tables that it leaves. -/
def run : List Event → Tables → List (Except Failure Answer) × Tables
  | [], t => ([], t)
  | e :: r, t =>
    let o := e.outcome t
    let (answers, t) := run r o.tables
    (o.answer :: answers, t)

end WalletLogin.Login
