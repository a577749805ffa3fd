/-
  WalletLogin.Login.Script — a list of steps in one world: calls of the service, single
  operations on its stores, and looks at the tables and the clock.
-/

import WalletLogin.Login.World

namespace WalletLogin.Login.Script

open Ledger

inductive Task where
  | call (c : Call)
  | createNonce (s : Subject) (ttl : Int)
  | consumeNonce (s : Subject) (nonce : Option String)
  | upsert (s : Subject) (publicKey role : Option String)
  | dump
  | wait
  deriving DecidableEq, Repr

structure Step where
  /-- Milliseconds by which the clock moves before the step. -/
  advance : Int
  mono : List Int
  faults : Faults
  task : Task

inductive Reply where
  | answer (a : Answer)
  | nonce (r : NonceRow)
  | consumed
  | account (a : Users.Account)
  | tables (t : Option Tables)
  | clock (ms : Int)
  deriving DecidableEq, Repr

def dump (w : World) : Option Tables := if w.hasTables then some (sorted w.tables) else none

def work (cfg : Config) (env : Conditions) (w : World) : Task → Procedure Reply
  | .call c => .answer <$> serve cfg env c
  | .createNonce s ttl => do
    Nonces.create env.nonce s (env.wall 0) ttl
    return .nonce (← Nonces.reread env.nonce)
  | .consumeNonce s n => do
    Nonces.consume s n (env.wall 0)
    return .consumed
  | .upsert s key role => .account <$> Users.upsert s key role env.userId (env.wall 0)
  | .dump => return .tables (dump w)
  | .wait => return .clock w.clock

def step (cfg : Config) (w : World) (s : Step) : Except Failure Reply × World :=
  let w := w.advance s.advance
  let env := w.conditions (reading s.mono) s.faults
  w.perform env (work cfg env w s.task)

def run (cfg : Config) : List Step → World → List (Except Failure Reply) × World
  | [], w => ([], w)
  | s :: r, w =>
    let (reply, w) := step cfg w s
    let (replies, w) := run cfg r w
    (reply :: replies, w)

end WalletLogin.Login.Script
