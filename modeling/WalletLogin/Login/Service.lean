/-
  WalletLogin.Login.Service — the two calls of a login.

  A challenge: the wallet is identified, a nonce is stored for it, and the message to
  sign is returned. A login: the wallet is identified, nonce and signature have to be
  there, the signature is checked over either message of the nonce, the nonce is
  spent, the user is found or made, and a token is issued. The signature comes before
  the nonce, so a wrong one spends nothing.
-/

import WalletLogin.Login.Nonces
import WalletLogin.Login.Users
import WalletLogin.Wallet.Message

namespace WalletLogin.Login

open Ledger Procedure Wallet

structure Config where
  secret : String
  algorithm : String
  nonceTtl : Int
  tokenTtl : Int
  defaultRole : Option String
  deriving DecidableEq, Repr

/-- What a call finds outside: readings of the wall clock in seconds and of the
monotonic clock, in the order in which they are taken, the nonce and the user id that
would be drawn, and the faults of the storage. -/
structure Conditions where
  wall : Nat → Int
  mono : Nat → Int
  nonce : String
  userId : String
  faults : Faults

structure Challenge where
  nonce : String
  message : String
  expiresAt : Int
  deriving DecidableEq, Repr

structure Request where
  walletType : Option String
  address : Option String
  nonce : Option String
  signature : Option String
  publicKey : Option String
  deriving DecidableEq, Repr

structure Result where
  token : String
  user : UserRow
  wallet : WalletRow
  deriving DecidableEq, Repr

/-- The kind of wallet and the canonical address, which a cardano wallet may lack. -/
def identify (walletType address : Option String) : Except Refusal (Kind × Option String) :=
  match Kind.read? (walletType.getD "") with
  | none => .error (.walletType walletType)
  | some k =>
    match k.normalize address with
    | .ok a => .ok (k, a)
    | .error f => .error (.address k f)

def lift {α : Type} : Except Refusal α → Procedure α
  | .ok a => return a
  | .error r => refuse r

def checkDeadline (deadline : Option Int) (reading : Int) : Procedure Unit :=
  match deadline with
  | some d => if d ≤ reading then refuse .deadline else return
  | none => return

/-- Whether the wallet signed either message of the nonce. -/
def isSigned (k : Kind) (address : Option String) (nonce signature : String) (key : Option String) : Bool :=
  match address with
  | some a => (Message.candidates nonce).any fun m => k.verify a m signature key
  | none => false

def trimmed (s : Option String) : String := Text.Blank.strip (s.getD "")

def subject (k : Kind) (address : Option String) : Subject := ⟨some k.name, address⟩

def issue (cfg : Config) (env : Conditions) (walletType address : Option String) (deadline : Option Int) :
    Procedure Challenge := do
  let (k, a) ← lift (identify walletType address)
  checkDeadline deadline (env.mono 0)
  Nonces.create env.nonce (subject k a) (env.wall 0) cfg.nonceTtl
  let row ← Nonces.reread env.nonce
  return ⟨row.nonce, Message.current row.nonce, row.expiresAt⟩

def claims (cfg : Config) (u : UserRow) (w : WalletRow) (now : Int) : Token.Claims :=
  .granted (.text u.id) (some u.role) (some w.owner.walletType) (some w.owner.address) cfg.tokenTtl now

def sign (cfg : Config) (c : Token.Claims) : Except Refusal String :=
  match Token.Issue.issue cfg.secret cfg.algorithm c with
  | .ok t => .ok t
  | .error f => .error (.signing f)

def login (cfg : Config) (env : Conditions) (r : Request) (deadline : Option Int) : Procedure Result := do
  if cfg.secret = "" then refuse .notConfigured
  let (k, a) ← lift (identify r.walletType r.address)
  let nonce := trimmed r.nonce
  let signature := trimmed r.signature
  if nonce = "" ∨ signature = "" then refuse .missingCredentials
  if !isSigned k a nonce signature r.publicKey then refuse .signature
  checkDeadline deadline (env.mono 0)
  Nonces.consume (subject k a) (some nonce) (env.wall 0)
  checkDeadline deadline (env.mono 1)
  let account ← Users.upsert (subject k a) r.publicKey cfg.defaultRole env.userId (env.wall 1)
  let token ← lift (sign cfg (claims cfg account.user account.wallet (env.wall 2)))
  return ⟨token, account.user, account.wallet⟩

end WalletLogin.Login
