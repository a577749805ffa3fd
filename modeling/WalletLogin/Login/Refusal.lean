/-
  WalletLogin.Login.Refusal — why a request is refused, with the label, the status and
  the words that a client sees.

  First come faults of the request, then those of the credentials, then those of the
  service itself. A cause whose words belong to a lower layer has none here.
-/

import WalletLogin.Ledger.Session
import WalletLogin.Text.Quoted
import WalletLogin.Token.Issue
import WalletLogin.Wallet.Scheme

namespace WalletLogin.Login

inductive Refusal where
  | walletType (raw : Option String)
  | address (k : Wallet.Kind) (f : Wallet.AddressFault)
  | missingCredentials
  | signature
  | nonce
  | storage
  /-- No wallet row was found after another login was seen to have made it. -/
  | unresolved (walletType address : Option String)
  | signing (f : Token.SigningFault)
  | notConfigured
  | deadline
  deriving DecidableEq, Repr

namespace Refusal

def code : Refusal → String
  | .walletType _ => "invalid_wallet_type"
  | .address .. => "invalid_address"
  | .missingCredentials => "missing_nonce_or_signature"
  | .signature => "invalid_signature"
  | .nonce => "invalid_or_expired_nonce"
  | .storage => "storage_error"
  | .unresolved .. => "storage_error"
  | .signing _ => "token_issue_failed"
  | .notConfigured => "jwt_not_configured"
  | .deadline => "deadline_exceeded"

def status : Refusal → Nat
  | .walletType _ => 400
  | .address .. => 400
  | .missingCredentials => 400
  | .signature => 401
  | .nonce => 401
  | .storage => 503
  | .unresolved .. => 503
  | .signing _ => 503
  | .notConfigured => 503
  | .deadline => 504

/-- A text in quotes, and a word for none. -/
def quoted : Option String → String
  | none => "None"
  | some s => Text.Quoted.quote s

def plain : Option String → String
  | none => "None"
  | some s => s

def addressMessage? (k : Wallet.Kind) (f : Wallet.AddressFault) : Option String :=
  let behind (s : String) := some ("invalid " ++ k.name ++ " address: " ++ s)
  match f with
  | .required => some "address is required"
  | .notHexAddress => behind "not a 20-byte hex address"
  | .notKey (.text .notAscii) => none
  | .notKey (.text (.foreign c)) => behind ("Invalid character " ++ Text.Quoted.quote (String.ofList [c]))
  | .notKey .wrongLength => behind "solana address must decode to 32 bytes"
  | .undecodable => none

def message? : Refusal → Option String
  | .walletType raw => some ("unsupported wallet type: " ++ quoted raw)
  | .address k f => addressMessage? k f
  | .storage => none
  | .unresolved w a => some ("wallet identity " ++ plain w ++ ":" ++ plain a ++ " could not be resolved")
  | .signing f => some f.message
  | r => some r.code

end Refusal

/-- How a call fails: by a refusal, or by something that no guard turned into one. -/
inductive Failure where
  | refused (r : Refusal)
  | storageBroke (f : Ledger.Fault)
  | numberTooWide
  | orphanWallet
  deriving DecidableEq, Repr

end WalletLogin.Login
