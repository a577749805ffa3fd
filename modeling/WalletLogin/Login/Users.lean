/-
  WalletLogin.Login.Users — the user behind a wallet: found by the wallet's owner, or
  made together with the wallet row on the first login.

  When a constraint shows that another login made the wallet first, the work is rolled
  back and that login's wallet is used.
-/

import WalletLogin.Login.Procedure
import WalletLogin.Text.Blank

namespace WalletLogin.Login.Users

open Ledger Procedure

def defaultRole : String := "contributor"

/-- A key without blanks at its ends; the empty text is no key. -/
def trimKey : Option String → Option String
  | none => none
  | some "" => none
  | some k => some (Text.Blank.strip k)

structure Account where
  user : UserRow
  wallet : WalletRow
  deriving DecidableEq, Repr

/-- Both rows, read again after their commit. -/
def reread (walletId : Nat) (userId : String) : Store Account := do
  let wallet ← Store.reload fun t => t.walletById? walletId
  let user ← Store.reload fun t => t.findUser? userId
  return ⟨user, wallet⟩

def touch (w : WalletRow) (key : Option String) (now : Int) : Store Account := do
  let _ ← Store.loadUser w
  Store.commitWith (Store.fitting [now] fun t => .ok (t.touch w key now))
  reread w.id w.userId

def insertUser (u : UserRow) : Change :=
  Store.fitting [u.createdAt, u.lastLoginAt] fun t => Store.constrained (t.addUser? u)

/-- The wallet row that the commit writes. Without an owner it breaks a constraint. -/
def insertWallet (o : Option Owner) (id : Nat) (key : Option String) (userId : String) (now : Int) :
    Change := fun t =>
  Store.constrained (o.bind fun o => t.addWallet? ⟨id, userId, o, key, now, now⟩)

def make (o : Option Owner) (key : Option String) (role userId : String) (now : Int) : Store Account := do
  -- the user row is written first, so that the wallet row can name it
  Store.add ⟨insertUser ⟨userId, role, now, now⟩, true⟩
  Store.flush
  let id := (← get).draft.nextWalletId
  Store.commitWith (insertWallet o id key userId now)
  reread id userId

def findOrMake (o : Option Owner) (key : Option String) (role userId : String) (now : Int) :
    Store Account := do
  match ← Store.findWallet o with
  | some w => touch w key now
  | none => make o key role userId now

/-- The account of the login that came first. -/
def findAgain (o : Option Owner) (key : Option String) (now : Int) : Store (Option Account) := do
  match ← Store.findWallet o with
  | some w => some <$> touch w key now
  | none => return none

def upsert (subject : Subject) (publicKey : Option String) (role : Option String) (userId : String)
    (now : Int) : Procedure Account :=
  let o := subject.owner?
  let key := trimKey publicKey
  attempt (findOrMake o key (role.getD defaultRole) userId now) fun b =>
    if b = .fault .integrity then do
      rollback
      match ← guarded (findAgain o key now) with
      | some a => return a
      | none => refuse (.unresolved subject.walletType subject.address)
    else surface b

structure Profile where
  user : UserRow
  wallets : List WalletRow
  deriving DecidableEq, Repr

def profile (userId : Option String) : Procedure (Option Profile) :=
  guarded do
    match ← Store.query fun t => userId.bind t.findUser? with
    | some u => return some ⟨u, ← Store.query fun t => t.walletsOf u.id⟩
    | none => return none

end WalletLogin.Login.Users
