/-
  WalletLogin.Proofs.Web.Responses — responses whose parts fit their model.

  A part that is of its field's shape is taken as it is, in every way of reading.

  Proved:
  - `read_walletJson`: a wallet is read as it is.
  - `profileResponse_some`: the response to a profile has the user and all its wallets.
-/

import WalletLogin.Proofs.Web.Shapes
import WalletLogin.Web.Site

namespace WalletLogin.Web

open Login Ledger

theorem read_walletJson (r : Reading) (w : WalletRow) :
    Shape.read r none (.record Model.walletFields) (walletJson w) = .ok (walletJson w) := by
  rw [walletJson, Shape.read_record fun _ => rfl]
  simp [Shape.readFields, Model.walletFields, Model.text, Json.find?, Shape.nested, Except.map]

theorem profileResponse_some (p : Users.Profile) : profileResponse (some p) =
    ⟨200, .object [("id", .text p.user.id), ("role", .text p.user.role), ("wallets", .list (p.wallets.map walletJson))]⟩ := by
  have hwallets : ∀ j ∈ p.wallets.map walletJson,
      Shape.read (Shape.inside .rows) none (.record Model.walletFields) j = .ok j := by
    intro j hj
    obtain ⟨w, -, rfl⟩ := List.mem_map.mp hj
    exact read_walletJson _ w
  have hread : Model.read .meResponse .rows (.object [("id", .text p.user.id), ("role", .text p.user.role),
      ("wallets", .list (p.wallets.map walletJson))]) = .ok (.object [("id", .text p.user.id), ("role", .text p.user.role),
      ("wallets", .list (p.wallets.map walletJson))]) := by
    rw [Model.read, Model.shape, Shape.read_record fun hc => by cases hc]
    simp [Shape.readFields, Except.map, Model.fields, Model.userFields, Model.text, Json.find?, Shape.nested,
      Shape.read_listOf hwallets]
  rw [profileResponse, Response.made, hread]

end WalletLogin.Web
