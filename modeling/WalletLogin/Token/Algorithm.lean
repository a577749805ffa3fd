/-
  WalletLogin.Token.Algorithm — the keyed hashes that sign tokens.
-/

import WalletLogin.Hash.Hmac
import WalletLogin.Hash.Sha2

namespace WalletLogin.Token

open Hash

inductive Algorithm where
  | hs256
  | hs384
  | hs512
  deriving DecidableEq, Repr

namespace Algorithm

def all : List Algorithm := [.hs256, .hs384, .hs512]

def name : Algorithm → String
  | .hs256 => "HS256"
  | .hs384 => "HS384"
  | .hs512 => "HS512"

def ofName? (s : String) : Option Algorithm := all.find? fun a => a.name = s

def sign : Algorithm → Bytes → Bytes → Bytes
  | .hs256 => Hmac.hmac Sha2.sha256 64
  | .hs384 => Hmac.hmac Sha2.sha384 128
  | .hs512 => Hmac.hmac Sha2.sha512 128

end Algorithm

end WalletLogin.Token
