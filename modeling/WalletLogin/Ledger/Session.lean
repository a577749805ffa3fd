/-
  WalletLogin.Ledger.Session — statements, commits and their faults.

  A session works on a draft of the stored tables. Work that is added to it is pending
  until a flush writes it to the draft, at the latest the flush that a commit begins
  with; a commit then stores the draft. A rollback takes the stored tables as the draft
  again and drops what is pending. Without one, work that a fault left pending would be
  written by the next commit.

  Each kind of step has a plan of the faults it meets, first to last; past the end of
  the plan nothing fails. A fault strikes before the step has any effect. With the
  tables missing every statement fails.
-/

import WalletLogin.Ledger.Tables

namespace WalletLogin.Ledger

inductive Fault where
  | operational
  | integrity
  deriving DecidableEq, Repr

/-- What a look-up of a wallet meets; a stale one sees no row. -/
inductive Lookup where
  | sound
  | stale
  | fails (f : Fault)
  deriving DecidableEq, Repr

/-- The kinds of steps at which storage can fail, look-ups of wallets apart: the
loading of a wallet's user, the writing of pending work, a commit before that writing
and behind it, a conditional statement, a query, and the reading again of a row after a
commit. -/
inductive Point where
  | load
  | flush
  | commit
  | seal
  | execute
  | query
  | reload
  deriving DecidableEq, Repr

structure Faults where
  finds : List Lookup := []
  plan : Point → List (Option Fault) := fun _ => []
  missing : Bool := false

namespace Faults

def next (f : Faults) (p : Point) : Option Fault := (f.plan p).head?.join

/-- What is left of the plan behind a step. -/
def past (f : Faults) (p : Point) : Faults :=
  { f with plan := fun q => if q = p then (f.plan q).tail else f.plan q }

def nextFind (f : Faults) : Lookup := f.finds.head?.getD .sound

def pastFind (f : Faults) : Faults := { f with finds := f.finds.tail }

end Faults

/-- Why storage work stopped. Only faults are failures of the storage itself. -/
inductive Breakdown where
  | fault (f : Fault)
  /-- A number does not fit the 64 bits of a column. -/
  | tooWide
  /-- The user of a wallet row is not there. -/
  | orphan
  deriving DecidableEq, Repr

/-- What a statement makes of the draft. -/
abbrev Change := Tables → Except Breakdown Tables

/-- Work that waits for a flush. -/
structure Work where
  change : Change
  /-- Whether its writing draws a user id. -/
  drawsUser : Bool

structure Session where
  stored : Tables
  draft : Tables
  /-- The work that no flush has written, first to last. -/
  pending : List Work
  faults : Faults
  /-- Whether the nonce laid out for this call was drawn. -/
  drewNonce : Bool
  /-- Whether the user id laid out for this call was drawn. -/
  drewUser : Bool

abbrev Store (α : Type) := ExceptT Breakdown (StateM Session) α

namespace Session

def opened (t : Tables) (faults : Faults) : Session := ⟨t, t, [], faults, false, false⟩

def rollback (s : Session) : Session := { s with draft := s.stored, pending := [] }

end Session

namespace Store

def fail {α : Type} (b : Breakdown) : Store α := throw b

/-- Meets the fault that is planned for a step. -/
def meet (p : Point) : Store Unit := do
  let f := (← get).faults
  modify fun s => { s with faults := f.past p }
  match f.next p with
  | some x => fail (.fault x)
  | none => return

/-- Fails when the tables are missing. -/
def needTables : Store Unit := do
  if (← get).faults.missing then fail (.fault .operational)

/-- An insertion that a constraint forbids is an integrity fault. -/
def constrained : Option Tables → Except Breakdown Tables
  | some t => .ok t
  | none => .error (.fault .integrity)

/-- A change that writes the given numbers. Too wide a number fails before any constraint
is looked at. -/
def fitting (numbers : List Int) (change : Change) : Change := fun t =>
  if numbers.all fits then change t else .error .tooWide

/-- Lays work aside for the next flush. -/
def add (work : Work) : Store Unit := modify fun s => { s with pending := s.pending ++ [work] }

/-- Writes work to the draft. -/
def write (work : Work) : Store Unit := do
  modify fun s => { s with drewUser := s.drewUser || work.drawsUser }
  needTables
  let s ← get
  match work.change s.draft with
  | .ok t => set { s with draft := t }
  | .error b => fail b

def writeAll : List Work → Store Unit
  | [] => return
  | work :: rest => do
    write work
    writeAll rest

/-- Writes what is pending; with nothing pending it meets no fault. -/
def flush : Store Unit := do
  match (← get).pending with
  | [] => return
  | works =>
    meet .flush
    writeAll works
    modify fun s => { s with pending := [] }

def commit : Store Unit := do
  meet .commit
  flush
  meet .seal
  modify fun s => { s with stored := s.draft }

/-- A commit of one more change. -/
def commitWith (change : Change) : Store Unit := do
  add ⟨change, false⟩
  commit

def findWallet (o : Option Owner) : Store (Option WalletRow) := do
  let f := (← get).faults
  modify fun s => { s with faults := f.pastFind }
  match f.nextFind with
  | .fails x => fail (.fault x)
  | .stale => return none
  | .sound =>
    needTables
    return o.bind (← get).draft.findWallet?

/-- The user that a wallet row names. -/
def loadUser (w : WalletRow) : Store UserRow := do
  meet .load
  needTables
  match (← get).draft.findUser? w.userId with
  | some u => return u
  | none => fail .orphan

/-- A row as it stands after a commit. -/
def reload {α : Type} (row : Tables → Option α) : Store α := do
  meet .reload
  needTables
  match row (← get).draft with
  | some a => return a
  | none => fail (.fault .operational)

def query {α : Type} (rows : Tables → α) : Store α := do
  meet .query
  needTables
  return rows (← get).draft

end Store

end WalletLogin.Ledger
