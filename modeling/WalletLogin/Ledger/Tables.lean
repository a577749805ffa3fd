/-
  WalletLogin.Ledger.Tables — the three tables of the service and what a statement
  does to them.

  A nonce is stored once. An owner, that is a wallet kind and an address, has at most
  one wallet row, and every wallet row names the user it belongs to. Nothing is ever
  deleted. An insertion that a constraint forbids gives no tables.
-/

namespace WalletLogin.Ledger

structure Owner where
  walletType : String
  address : String
  deriving DecidableEq, Repr

structure NonceRow where
  nonce : String
  owner : Owner
  createdAt : Int
  expiresAt : Int
  consumedAt : Option Int
  deriving DecidableEq, Repr

structure UserRow where
  id : String
  role : String
  createdAt : Int
  lastLoginAt : Int
  deriving DecidableEq, Repr

structure WalletRow where
  id : Nat
  userId : String
  owner : Owner
  publicKey : Option String
  createdAt : Int
  lastLoginAt : Int
  deriving DecidableEq, Repr

/-- Whether a number fits a column of 64 bits. -/
def fits (n : Int) : Bool := -0x8000000000000000 ≤ n && n < 0x8000000000000000

structure Tables where
  nonces : List NonceRow
  users : List UserRow
  wallets : List WalletRow
  deriving DecidableEq, Repr

namespace NonceRow

/-- Whether the row can be redeemed by an owner at the second `now`. -/
def isLive (r : NonceRow) (o : Owner) (now : Int) : Bool :=
  r.owner = o && r.consumedAt.isNone && now < r.expiresAt

end NonceRow

namespace Tables

def empty : Tables := ⟨[], [], []⟩

def findNonce? (t : Tables) (nonce : String) : Option NonceRow := t.nonces.find? (·.nonce = nonce)

def findUser? (t : Tables) (id : String) : Option UserRow := t.users.find? (·.id = id)

def findWallet? (t : Tables) (o : Owner) : Option WalletRow := t.wallets.find? (·.owner = o)

def walletById? (t : Tables) (id : Nat) : Option WalletRow := t.wallets.find? (·.id = id)

def addNonce? (t : Tables) (r : NonceRow) : Option Tables :=
  if (t.findNonce? r.nonce).isSome then none else some { t with nonces := t.nonces ++ [r] }

/-- Marks the nonce consumed where it is live. -/
def spend (t : Tables) (o : Owner) (nonce : String) (now : Int) : Tables :=
  { t with nonces := t.nonces.map fun r =>
      if r.nonce = nonce ∧ r.isLive o now then { r with consumedAt := some now } else r }

/-- The number of rows that `spend` marks. -/
def spendable (t : Tables) (o : Owner) (nonce : String) (now : Int) : Nat :=
  t.nonces.countP fun r => r.nonce = nonce ∧ r.isLive o now

def addUser? (t : Tables) (u : UserRow) : Option Tables :=
  if (t.findUser? u.id).isSome then none else some { t with users := t.users ++ [u] }

def nextWalletId (t : Tables) : Nat := (t.wallets.map (·.id)).foldl max 0 + 1

def addWallet? (t : Tables) (w : WalletRow) : Option Tables :=
  if (t.findWallet? w.owner).isSome then none else some { t with wallets := t.wallets ++ [w] }

/-- A login of a known wallet; only a key that is not empty replaces the stored one. -/
def touchWallet (w : WalletRow) (key : Option String) (now : Int) : WalletRow :=
  { w with lastLoginAt := now,
           publicKey := if key.getD "" = "" then w.publicKey else key }

def touch (t : Tables) (w : WalletRow) (key : Option String) (now : Int) : Tables :=
  { t with
    users := t.users.map fun u => if u.id = w.userId then { u with lastLoginAt := now } else u
    wallets := t.wallets.map fun v => if v.id = w.id then touchWallet v key now else v }

def walletsOf (t : Tables) (userId : String) : List WalletRow :=
  (t.wallets.filter (·.userId = userId)).mergeSort fun a b => a.id ≤ b.id

end Tables

end WalletLogin.Ledger
