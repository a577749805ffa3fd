/-
  WalletLogin.Web.Caller — the claims of the caller of a protected route, from the
  authorization header. Without a secret nobody is let in. A check that breaks off is a
  fault of the service.
-/

import WalletLogin.Token.Bearer
import WalletLogin.Token.Check
import WalletLogin.Web.Settings

namespace WalletLogin.Web

open Token

inductive CallerFault where
  | notConfigured
  | header (f : Bearer.Fault)
  | token (f : Check.Fault)
  deriving DecidableEq, Repr

namespace CallerFault

def status : CallerFault → Nat
  | .notConfigured => 503
  | .token .tooDeep => 500
  | _ => 401

def detail : CallerFault → String
  | .notConfigured => "jwt_not_configured"
  | .header .missing => "Authorization header missing"
  | .header .empty => "Invalid authorization header"
  | .token (.rejected r) => r.message
  | .token .tooDeep => "Internal Server Error"

end CallerFault

def caller (settings : Settings) (authorization : Option String) (clock : Int) :
    Except CallerFault (List (String × Json)) :=
  if settings.secret = "" then .error .notConfigured
  else
    match Bearer.extract authorization with
    | .error f => .error (.header f)
    | .ok token =>
      match Check.check token settings.secret settings.algorithm clock with
      | .error f => .error (.token f)
      | .ok claims => .ok claims

end WalletLogin.Web
