/-
  WalletLogin.Token.Secret — which secrets and algorithm names can sign.

  The empty text is refused, and so is a text that looks like a key of another kind: one
  with the two borders of a key or certificate block under one known label, one that
  starts with the name of a key format, and a JSON text in which some object has a key
  type.
-/

import WalletLogin.Json.Reader
import WalletLogin.Token.Algorithm

namespace WalletLogin.Token

inductive SecretFault where
  | unsupported
  | secretWithoutAlgorithm
  | empty
  | asymmetricKey
  | keyObject
  deriving DecidableEq, Repr

namespace Secret

def labels : List (List Char) := [
  "CERTIFICATE".toList, "TRUSTED CERTIFICATE".toList, "PRIVATE KEY".toList, "PUBLIC KEY".toList,
  "ENCRYPTED PRIVATE KEY".toList, "OPENSSH PRIVATE KEY".toList, "DSA PRIVATE KEY".toList,
  "RSA PRIVATE KEY".toList, "RSA PUBLIC KEY".toList, "EC PRIVATE KEY".toList, "DH PARAMETERS".toList,
  "NEW CERTIFICATE REQUEST".toList, "CERTIFICATE REQUEST".toList, "SSH2 PUBLIC KEY".toList,
  "SSH2 ENCRYPTED PRIVATE KEY".toList, "X509 CRL".toList]

def keyFormats : List (List Char) := [
  "ssh-ed25519".toList, "ssh-rsa".toList, "ssh-dss".toList, "ecdsa-sha2-nistp256".toList,
  "ecdsa-sha2-nistp384".toList, "ecdsa-sha2-nistp521".toList]

def dashes : List Char := ['-', '-', '-', '-']

def behind? (word s : List Char) : Option (List Char) :=
  if word.isPrefixOf s then some (s.drop word.length) else none

def behindFill? : List Char → Option (List Char)
  | c :: r => if c = '-' ∨ c = ' ' then some r else none
  | [] => none

/-- What follows a border that stands at the front. -/
def behindBorder? (word label s : List Char) : Option (List Char) := do
  let r ← behind? dashes s
  let r ← behindFill? r
  let r ← behind? (word ++ ' ' :: label) r
  let r ← behindFill? r
  behind? dashes r

/-- What follows the first border of the text. -/
def afterBorder? (word label : List Char) : List Char → Option (List Char)
  | [] => none
  | c :: r => (behindBorder? word label (c :: r)).or (afterBorder? word label r)

def hasBlock (label s : List Char) : Bool :=
  match afterBorder? "BEGIN".toList label s with
  | some r => (afterBorder? "END".toList label r).isSome
  | none => false

def isAsymmetric (s : List Char) : Bool :=
  labels.any (hasBlock · s) || keyFormats.any (·.isPrefixOf s)

mutual

def hasKeyType : Json → Bool
  | .object fs => memberHasKeyType fs
  | .list xs => elementHasKeyType xs
  | _ => false

def elementHasKeyType : List Json → Bool
  | [] => false
  | v :: r => hasKeyType v || elementHasKeyType r

def memberHasKeyType : List (String × Json) → Bool
  | [] => false
  | (k, v) :: r => k = "kty" || hasKeyType v || memberHasKeyType r

end

/-- Whether the secret is a JSON text with a key type in it. A text that nests too deep to
be read counts as none. -/
def isKeyObject (secret : String) : Bool :=
  match Json.Reader.readBytes (Bytes.ofText secret) with
  | .ok j => hasKeyType j
  | .error _ => false

/-- The algorithm of a name, when the secret can be used with it. -/
def prepare (secret algorithm : String) : Except SecretFault Algorithm :=
  match Algorithm.ofName? algorithm with
  | none => .error (if algorithm = "none" then .secretWithoutAlgorithm else .unsupported)
  | some a =>
    if secret = "" then .error .empty
    else if isAsymmetric secret.toList then .error .asymmetricKey
    else if isKeyObject secret then .error .keyObject
    else .ok a

end Secret

end WalletLogin.Token
