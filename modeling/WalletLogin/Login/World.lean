/-
  WalletLogin.Login.World — the service's surroundings between calls: the stored
  tables, the wall clock in milliseconds, and the supply of nonces and user ids.

  During a call the wall clock stands still. The monotonic clock shows the readings
  laid out for the call, and the last of them from then on.
-/

import WalletLogin.Login.Run
import WalletLogin.Login.Supply

namespace WalletLogin.Login

open Ledger

structure World where
  tables : Tables
  /-- Without tables every statement fails. -/
  hasTables : Bool
  clock : Int
  supply : Supply
  deriving DecidableEq, Repr

/-- The monotonic clock's reading number `k`. -/
def reading (readings : List Int) (k : Nat) : Int :=
  match readings with
  | [] => 0
  | a :: r => (a :: r).getD k ((a :: r).getLast (List.cons_ne_nil a r))

namespace World

/-- Seconds since the epoch, cut off toward zero. -/
def second (w : World) : Int := Int.tdiv w.clock 1000

def advance (w : World) (ms : Int) : World := { w with clock := w.clock + ms }

def conditions (w : World) (mono : Nat → Int) (faults : Faults) : Conditions where
  wall _ := w.second
  mono := mono
  nonce := w.supply.nextNonce Supply.nonceWidth
  userId := w.supply.nextUser
  faults := { faults with missing := !w.hasTables }

def after {α : Type} (w : World) (o : Outcome α) : World :=
  let supply := if o.drewNonce then w.supply.takeNonce else w.supply
  { w with tables := o.tables, supply := if o.drewUser then supply.takeUser else supply }

def perform {α : Type} (w : World) (env : Conditions) (work : Procedure α) : Except Failure α × World :=
  let o := Login.perform work env.faults w.tables
  (o.answer, w.after o)

end World

/-- The rows in the order of their keys. -/
def sorted (t : Tables) : Tables where
  nonces := t.nonces.mergeSort fun a b => a.nonce ≤ b.nonce
  users := t.users.mergeSort fun a b => a.id ≤ b.id
  wallets := t.wallets.mergeSort fun a b => a.id ≤ b.id

end WalletLogin.Login
