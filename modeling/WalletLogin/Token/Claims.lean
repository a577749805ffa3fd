/-
  WalletLogin.Token.Claims — what a token says: the user, the role, the wallet that
  logged in, and the seconds of issue and expiry.
-/

import WalletLogin.Json.Display

namespace WalletLogin.Token

structure Claims where
  user : String
  role : Option String
  walletType : Option String
  address : Option String
  issuedAt : Int
  expiresAt : Int
  deriving DecidableEq, Repr

namespace Claims

/-- The claims of a user from a second on, for a number of seconds. The user is named by
the text that stands for the id. -/
def granted (user : Json) (role walletType address : Option String) (ttl now : Int) : Claims :=
  ⟨Json.Display.display user, role, walletType, address, now, now + ttl⟩

def toJson (c : Claims) : Json := .object [
  ("sub", .text c.user), ("role", Json.ofOption .text c.role),
  ("wallet_type", Json.ofOption .text c.walletType), ("address", Json.ofOption .text c.address),
  ("iat", .int c.issuedAt), ("exp", .int c.expiresAt)]

/-- The claims without which a token is of no use. -/
def required : List String := ["sub", "role", "wallet_type", "address"]

end Claims

end WalletLogin.Token
