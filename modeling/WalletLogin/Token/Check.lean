/-
  WalletLogin.Token.Check — the claims of a token, when it was signed with the secret
  and is in force.

  The header has to name the algorithm asked for; a key name in it has to be text, and
  the only extension it may call critical is the one for unencoded content, which has
  to be left off. Then the claims are looked at: times of issue and of first use not
  after the clock, expiry after it, no audience, texts as subject and token name. A
  token past its expiry is told apart from other invalid ones, and so is one that
  lacks a required claim.

  The check is not made for lists and objects that nest too deep to be read: in the header
  of any token, and in the content of a signed one, they break it off, and the token is not
  rejected.
-/

import WalletLogin.Encoding.Base64Url
import WalletLogin.Json.Whole
import WalletLogin.Token.Claims
import WalletLogin.Token.Issue
import WalletLogin.Token.Secret

namespace WalletLogin.Token

open Encoding

inductive Rejection where
  | missing
  | expired
  | invalid
  | incomplete
  deriving DecidableEq, Repr

def Rejection.message : Rejection → String
  | .missing => "Missing token"
  | .expired => "Token expired"
  | .invalid => "Invalid token"
  | .incomplete => "Invalid token payload"

namespace Check

/-- How a check ends without claims. -/
inductive Fault where
  | rejected (r : Rejection)
  /-- A text in the token nests too deep to be read. -/
  | tooDeep
  deriving DecidableEq, Repr

/-- What stands before the first point, between it and the last, and behind the
last. -/
structure Segments where
  header : List Char
  content : List Char
  signature : List Char
  /-- What the signature is over. -/
  signed : List Char
  deriving DecidableEq, Repr

def segments? (token : List Char) : Option Segments :=
  let r := token.reverse
  let signed := ((r.dropWhile (· ≠ '.')).drop 1).reverse
  let content := (signed.dropWhile (· ≠ '.')).drop 1
  if '.' ∈ signed then
    some ⟨signed.takeWhile (· ≠ '.'), content, (r.takeWhile (· ≠ '.')).reverse, signed⟩
  else none

/-- What there is; a token in which it is missing is invalid. -/
def found {α : Type} : Option α → Except Fault α
  | some a => .ok a
  | none => .error (.rejected .invalid)

/-- A token of which something does not hold is invalid. -/
def demand (holds : Bool) : Except Fault Unit :=
  if holds then .ok () else .error (.rejected .invalid)

def object (b : Bytes) : Except Fault (List (String × Json)) :=
  match Json.Reader.readBytes b with
  | .ok (.object fields) => .ok fields
  | .error .tooDeep => .error .tooDeep
  | _ => .error (.rejected .invalid)

def isText : Json → Bool
  | .text _ => true
  | _ => false

/-- Absent, or of the kind asked for. -/
def optional (p : Json → Bool) (key : String) (fields : List (String × Json)) : Bool :=
  match Json.find? key fields with
  | none => true
  | some v => p v

def isExtension (header : List (String × Json)) : Json → Bool
  | .text s => s = "b64" && (Json.find? s header).isSome
  | _ => false

def isCritical (header : List (String × Json)) : Json → Bool
  | .list xs => !xs.isEmpty && xs.all (isExtension header)
  | _ => false

def isNotFalse : Json → Bool
  | .bool false => false
  | _ => true

def headerAdmits (algorithm : String) (header : List (String × Json)) : Bool :=
  optional isText "kid" header && optional (isCritical header) "crit" header &&
    optional isNotFalse "b64" header &&
    match Json.find? "alg" header with
    | some (.text s) => s = algorithm
    | _ => false

/-- What the secret signed, in a token that it signed. -/
def signedContent (token secret algorithm : String) : Except Fault Bytes := do
  let s ← found (segments? token.toList)
  let header ← object (← found (Base64Url.decode? s.header))
  let content ← found (Base64Url.decode? s.content)
  let signature ← found (Base64Url.decode? s.signature)
  demand (headerAdmits algorithm header)
  let a ← found (Secret.prepare secret algorithm).toOption
  demand (a.sign (Bytes.ofText secret) (Issue.asciiBytes s.signed) = signature)
  return content

/-- The claims of a token that the secret signed. -/
def authentic (token secret algorithm : String) : Except Fault (List (String × Json)) := do
  object (← signedContent token secret algorithm)

/-- Whether a time claim, if there is one, is a number that `p` holds of. -/
def timed (p : Int → Bool) (key : String) (claims : List (String × Json)) : Bool :=
  match Json.find? key claims with
  | none => true
  | some v =>
    match v.whole? with
    | some n => p n
    | none => false

/-- Whether the clock, in milliseconds, has come to a second. -/
def isReached (clock second : Int) : Bool := second * 1000 ≤ clock

def isUntimely (clock : Int) (claims : List (String × Json)) : Bool :=
  !(timed (isReached clock) "iat" claims && timed (isReached clock) "nbf" claims &&
    timed (fun _ => true) "exp" claims)

def isExpired (clock : Int) (claims : List (String × Json)) : Bool :=
  !timed (fun second => !isReached clock second) "exp" claims

def isIllFormed (claims : List (String × Json)) : Bool :=
  !(optional (!·.isTruthy) "aud" claims && optional isText "sub" claims && optional isText "jti" claims)

def lacksClaim (claims : List (String × Json)) : Bool :=
  Claims.required.any fun k => (Json.find? k claims).isNone

/-- Judges the claims of an authentic token; the clock is in milliseconds. -/
def judge (clock : Int) (claims : List (String × Json)) : Except Fault (List (String × Json)) :=
  if isUntimely clock claims then .error (.rejected .invalid)
  else if isExpired clock claims then .error (.rejected .expired)
  else if isIllFormed claims then .error (.rejected .invalid)
  else if lacksClaim claims then .error (.rejected .incomplete)
  else .ok claims

def check (token secret algorithm : String) (clock : Int) : Except Fault (List (String × Json)) :=
  if token = "" then .error (.rejected .missing)
  else
    match authentic token secret algorithm with
    | .error f => .error f
    | .ok claims => judge clock claims

end Check

end WalletLogin.Token
