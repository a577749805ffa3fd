/-
  WalletLogin.Web.Model — the shapes of requests and responses.

  Requests are read strictly, responses from their parts converting or from the
  attributes of a row.
-/

import WalletLogin.Web.Shape

namespace WalletLogin.Web

inductive Model where
  | nonceRequest
  | verifyRequest
  | nonceResponse
  | userResponse
  | walletResponse
  | authResponse
  | meResponse
  | healthCheck
  deriving DecidableEq, Repr

namespace Model

def text (name : String) : String × Shape × Option Json := (name, .text, some (.text ""))

def userFields : List (String × Shape × Option Json) := [text "id", text "role"]

def walletFields : List (String × Shape × Option Json) := [text "wallet_type", text "address"]

def fields : Model → List (String × Shape × Option Json)
  | .nonceRequest => walletFields
  | .verifyRequest =>
    walletFields ++ [text "nonce", text "signature", ("public_key", .optionalText, some .null)]
  | .nonceResponse => [text "nonce", text "message", ("expires_at", .whole, some (.int 0))]
  | .userResponse => userFields
  | .walletResponse => walletFields
  | .authResponse => [("token", .text, none), ("token_type", .text, some (.text "bearer")),
      ("user", .record userFields, none), ("wallet", .record walletFields, none)]
  | .meResponse => userFields ++ [("wallets", .listOf (.record walletFields), some (.list []))]
  | .healthCheck => [("status", .text, some (.text "oke"))]

def shape (m : Model) : Shape := .record m.fields

def read (m : Model) (r : Reading) (j : Json) : Except Misfit Json := m.shape.read r none j

end Model

end WalletLogin.Web
