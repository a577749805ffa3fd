/-
  WalletLogin.Token.Issue — the text of a token: header, claims and signature, each in
  the alphabet safe for addresses, with points between.
-/

import WalletLogin.Encoding.Base64Url
import WalletLogin.Json.Writer
import WalletLogin.Token.Claims
import WalletLogin.Token.Secret

namespace WalletLogin.Token

open Encoding

inductive SigningFault where
  | noSecret
  | tooManyDigits
  | secret (f : SecretFault)
  deriving DecidableEq, Repr

def SigningFault.message : SigningFault → String
  -- the empty secret is told of before it is prepared
  | .noSecret | .secret .empty => "signing secret is not configured"
  | .tooManyDigits =>
    "failed to sign token: Exceeds the limit (4300 digits) for integer string conversion; " ++
      "use sys.set_int_max_str_digits() to increase the limit"
  | .secret .unsupported => "failed to sign token: Algorithm not supported"
  | .secret .secretWithoutAlgorithm =>
    "failed to sign token: When alg = \"none\", key value must be None."
  | .secret .asymmetricKey =>
    "failed to sign token: The specified key is an asymmetric key or x509 certificate and should not " ++
      "be used as an HMAC secret."
  | .secret .keyObject =>
    "failed to sign token: The specified key looks like a JWK and should not be used directly as an " ++
      "HMAC secret. Load it via PyJWK / HMACAlgorithm.from_jwk first."

namespace Issue

def header (a : Algorithm) : Json := .object [("alg", .text a.name), ("typ", .text "JWT")]

def segment (j : Json) : List Char := Base64Url.encode (Bytes.ofText (Json.Writer.write j))

def signingInput (a : Algorithm) (c : Claims) : List Char :=
  segment (header a) ++ '.' :: segment c.toJson

def asciiBytes (s : List Char) : Bytes := Bytes.ofText (String.ofList s)

def token (a : Algorithm) (secret : String) (c : Claims) : String :=
  let input := signingInput a c
  String.ofList (input ++ '.' :: Base64Url.encode (a.sign (Bytes.ofText secret) (asciiBytes input)))

def fits (n : Int) : Bool := (Decimal.Digit.digits n.natAbs).length ≤ Decimal.Digit.digitLimit

def issue (secret algorithm : String) (c : Claims) : Except SigningFault String :=
  if secret = "" then .error .noSecret
  else if !(fits c.issuedAt && fits c.expiresAt) then .error .tooManyDigits
  else
    match Secret.prepare secret algorithm with
    | .error f => .error (.secret f)
    | .ok a => .ok (token a secret c)

end Issue

end WalletLogin.Token
