/-
  WalletLogin.Proofs.Ledger.Accounts — users and the wallets they log in with.

  A login of an owner settles its account (`Settles`): a known wallet and its user are
  touched, and an unknown owner gets a user and a wallet row together. Both rows carry
  the same times, so that one tells of the other.

  Proved, for tables whose accounts are in order (`Accounts`: keys differ, every wallet
  has its user with the same times, every user has a wallet and no second one):
  - `Settles.accounts`: settling keeps them in order.
  - `Settles.again`: settling an account a second time, with the same key and at the same
    second, changes nothing.
  - `Settles.found`, `Settles.wallets_frame`, `Settles.users_frame`: afterwards the owner
    has a wallet and a user that logged in now, and all other rows are as they were.
  - `Settles.retains`: no row is lost, and none changes in who it is (`Lasts`).
-/

import WalletLogin.Proofs.Ledger.Rows

namespace WalletLogin.Ledger

/-- The user row as a login of the user `id` leaves it. -/
def UserRow.seen (id : String) (now : Int) (u : UserRow) : UserRow :=
  if u.id = id then { u with lastLoginAt := now } else u

/-- The wallet row as a login with the wallet `id` leaves it. -/
def WalletRow.seen (id : Nat) (key : Option String) (now : Int) (w : WalletRow) : WalletRow :=
  if w.id = id then Tables.touchWallet w key now else w

@[simp] theorem UserRow.seen_id (id : String) (now : Int) (u : UserRow) : (u.seen id now).id = u.id := by
  unfold UserRow.seen; split <;> rfl

@[simp] theorem UserRow.seen_createdAt (id : String) (now : Int) (u : UserRow) :
    (u.seen id now).createdAt = u.createdAt := by
  unfold UserRow.seen; split <;> rfl

theorem UserRow.seen_seen (id : String) (now : Int) (u : UserRow) : (u.seen id now).seen id now = u.seen id now := by
  unfold UserRow.seen; split <;> simp_all

theorem UserRow.seen_of_ne {id : String} {u : UserRow} (h : u.id ≠ id) (now : Int) : u.seen id now = u := if_neg h

@[simp] theorem WalletRow.seen_id (id : Nat) (key : Option String) (now : Int) (w : WalletRow) :
    (w.seen id key now).id = w.id := by
  unfold WalletRow.seen; split <;> rfl

@[simp] theorem WalletRow.seen_userId (id : Nat) (key : Option String) (now : Int) (w : WalletRow) :
    (w.seen id key now).userId = w.userId := by
  unfold WalletRow.seen; split <;> rfl

@[simp] theorem WalletRow.seen_owner (id : Nat) (key : Option String) (now : Int) (w : WalletRow) :
    (w.seen id key now).owner = w.owner := by
  unfold WalletRow.seen; split <;> rfl

@[simp] theorem WalletRow.seen_createdAt (id : Nat) (key : Option String) (now : Int) (w : WalletRow) :
    (w.seen id key now).createdAt = w.createdAt := by
  unfold WalletRow.seen; split <;> rfl

theorem WalletRow.seen_seen (id : Nat) (key : Option String) (now : Int) (w : WalletRow) :
    (w.seen id key now).seen id key now = w.seen id key now := by
  by_cases h : w.id = id
  · simp only [WalletRow.seen, if_pos h, Tables.touchWallet]
    split <;> rfl
  · simp only [WalletRow.seen, if_neg h]

theorem WalletRow.seen_of_ne {id : Nat} {w : WalletRow} (h : w.id ≠ id) (key : Option String) (now : Int) :
    w.seen id key now = w := if_neg h

theorem WalletRow.seen_self (w : WalletRow) (key : Option String) (now : Int) :
    (w.seen w.id key now).lastLoginAt = now := by
  simp [WalletRow.seen, Tables.touchWallet]

theorem UserRow.seen_self (u : UserRow) (now : Int) : (u.seen u.id now).lastLoginAt = now := by
  simp [UserRow.seen]

namespace Tables

/-- The accounts are in order. -/
structure Accounts (t : Tables) : Prop where
  userIds : (t.users.map UserRow.id).Nodup
  walletIds : (t.wallets.map WalletRow.id).Nodup
  owners : (t.wallets.map WalletRow.owner).Nodup
  /-- No user has two wallets. -/
  holders : (t.wallets.map WalletRow.userId).Nodup
  hasUser : ∀ w ∈ t.wallets, ∃ u ∈ t.users, u.id = w.userId ∧ u.createdAt = w.createdAt ∧ u.lastLoginAt = w.lastLoginAt
  hasWallet : ∀ u ∈ t.users, ∃ w ∈ t.wallets, w.userId = u.id

theorem accounts_empty : Accounts empty where
  userIds := List.nodup_nil
  walletIds := List.nodup_nil
  owners := List.nodup_nil
  holders := List.nodup_nil
  hasUser w hw := by cases hw
  hasWallet u hu := by cases hu

theorem mem_of_findWallet? {t : Tables} {o : Owner} {w : WalletRow} (h : t.findWallet? o = some w) :
    w ∈ t.wallets ∧ w.owner = o :=
  ⟨List.mem_of_find?_eq_some h, by simpa using List.find?_some h⟩

theorem findWallet?_eq_none_iff {t : Tables} {o : Owner} : t.findWallet? o = none ↔ ∀ w ∈ t.wallets, w.owner ≠ o :=
  find?_eq_none_iff_forall WalletRow.owner

theorem findUser?_eq_none_iff {t : Tables} {id : String} : t.findUser? id = none ↔ ∀ u ∈ t.users, u.id ≠ id :=
  find?_eq_none_iff_forall UserRow.id

section Accounts

variable {t : Tables} (h : t.Accounts)
include h

theorem Accounts.findWallet?_iff {o : Owner} {w : WalletRow} : t.findWallet? o = some w ↔ w ∈ t.wallets ∧ w.owner = o :=
  find?_eq_some_iff_mem WalletRow.owner h.owners

theorem Accounts.findUser?_iff {id : String} {u : UserRow} : t.findUser? id = some u ↔ u ∈ t.users ∧ u.id = id :=
  find?_eq_some_iff_mem UserRow.id h.userIds

theorem Accounts.walletById?_iff {id : Nat} {w : WalletRow} : t.walletById? id = some w ↔ w ∈ t.wallets ∧ w.id = id :=
  find?_eq_some_iff_mem WalletRow.id h.walletIds

theorem Accounts.user_of_wallet {w : WalletRow} (hw : w ∈ t.wallets) :
    ∃ u, t.findUser? w.userId = some u ∧ u.createdAt = w.createdAt ∧ u.lastLoginAt = w.lastLoginAt := by
  obtain ⟨u, hu, hid, hc, hl⟩ := h.hasUser w hw
  exact ⟨u, h.findUser?_iff.mpr ⟨hu, hid⟩, hc, hl⟩

/-- A wallet that is found has its row, and a user. -/
theorem Accounts.rows_of_findWallet? {o : Owner} {w : WalletRow} (hw : t.findWallet? o = some w) :
    t.walletById? w.id = some w ∧ ∃ u, t.findUser? w.userId = some u := by
  have hmem := (h.findWallet?_iff.mp hw).1
  obtain ⟨u, hu, -⟩ := h.user_of_wallet hmem
  exact ⟨h.walletById?_iff.mpr ⟨hmem, rfl⟩, u, hu⟩

/-- The wallet of a user is the only one. -/
theorem Accounts.walletsOf {w : WalletRow} (hw : w ∈ t.wallets) : t.walletsOf w.userId = [w] := by
  rw [Tables.walletsOf, filter_eq_singleton WalletRow.userId h.holders hw, List.mergeSort_singleton]

end Accounts

/-- Nonces are not part of an account. -/
theorem Accounts.spend {t : Tables} (h : t.Accounts) (o : Owner) (nonce : String) (now : Int) :
    (t.spend o nonce now).Accounts := ⟨h.userIds, h.walletIds, h.owners, h.holders, h.hasUser, h.hasWallet⟩

theorem Accounts.withNonce {t : Tables} (h : t.Accounts) (r : NonceRow) : (t.withNonce r).Accounts :=
  ⟨h.userIds, h.walletIds, h.owners, h.holders, h.hasUser, h.hasWallet⟩

/-! ## Touching a known wallet -/

theorem touch_users (t : Tables) (w : WalletRow) (key : Option String) (now : Int) :
    (t.touch w key now).users = t.users.map (UserRow.seen w.userId now) := rfl

theorem touch_wallets (t : Tables) (w : WalletRow) (key : Option String) (now : Int) :
    (t.touch w key now).wallets = t.wallets.map (WalletRow.seen w.id key now) := rfl

theorem mem_touch_users {t : Tables} {w : WalletRow} {key : Option String} {now : Int} {u' : UserRow} :
    u' ∈ (t.touch w key now).users ↔ ∃ u ∈ t.users, u.seen w.userId now = u' := by
  rw [touch_users, List.mem_map]

theorem mem_touch_wallets {t : Tables} {w : WalletRow} {key : Option String} {now : Int} {v' : WalletRow} :
    v' ∈ (t.touch w key now).wallets ↔ ∃ v ∈ t.wallets, v.seen w.id key now = v' := by
  rw [touch_wallets, List.mem_map]

/-- A field that a login does not write. -/
theorem map_touch_wallets {κ : Type} (field : WalletRow → κ) (t : Tables) (w : WalletRow) (key : Option String) (now : Int)
    (hf : ∀ v : WalletRow, field (v.seen w.id key now) = field v) :
    (t.touch w key now).wallets.map field = t.wallets.map field := by
  rw [touch_wallets, List.map_map]
  exact List.map_congr_left fun v _ => hf v

theorem findWallet?_touch (t : Tables) (w : WalletRow) (key : Option String) (now : Int) (o : Owner) :
    (t.touch w key now).findWallet? o = (t.findWallet? o).map (WalletRow.seen w.id key now) := by
  have hp : (fun v : WalletRow => decide (v.owner = o)) ∘ WalletRow.seen w.id key now = fun v => decide (v.owner = o) := by
    funext v
    simp
  rw [findWallet?, touch_wallets, List.find?_map, hp, findWallet?]

theorem Accounts.touch {t : Tables} (h : t.Accounts) {w : WalletRow} (hw : w ∈ t.wallets) (key : Option String) (now : Int) :
    (t.touch w key now).Accounts where
  userIds := by
    have hk : (t.touch w key now).users.map UserRow.id = t.users.map UserRow.id := by
      rw [touch_users, List.map_map]
      exact List.map_congr_left fun (u : UserRow) _ => u.seen_id w.userId now
    exact hk ▸ h.userIds
  walletIds := (map_touch_wallets WalletRow.id t w key now fun v => v.seen_id w.id key now) ▸ h.walletIds
  owners := (map_touch_wallets WalletRow.owner t w key now fun v => v.seen_owner w.id key now) ▸ h.owners
  holders := (map_touch_wallets WalletRow.userId t w key now fun v => v.seen_userId w.id key now) ▸ h.holders
  hasUser v' hv' := by
    obtain ⟨v, hv, rfl⟩ := mem_touch_wallets.mp hv'
    obtain ⟨u, hu, hid, hc, hl⟩ := h.hasUser v hv
    refine ⟨_, mem_touch_users.mpr ⟨u, hu, rfl⟩, by simpa using hid, by simpa using hc, ?_⟩
    -- a wallet is touched exactly when its user is
    by_cases he : v.id = w.id
    · have hvw : v = w := List.inj_on_of_nodup_map h.walletIds hv hw he
      rw [← he, v.seen_self, ← hvw, ← hid, u.seen_self]
    · have hne : u.id ≠ w.userId := fun hu' => he <| congrArg WalletRow.id <|
        List.inj_on_of_nodup_map h.holders hv hw (hid.symm.trans hu')
      rw [WalletRow.seen_of_ne he, UserRow.seen_of_ne hne, hl]
  hasWallet u' hu' := by
    obtain ⟨u, hu, rfl⟩ := mem_touch_users.mp hu'
    obtain ⟨v, hv, hid⟩ := h.hasWallet u hu
    exact ⟨_, mem_touch_wallets.mpr ⟨v, hv, rfl⟩, by simpa using hid⟩

theorem touch_touch (t : Tables) (w : WalletRow) (key : Option String) (now : Int) :
    (t.touch w key now).touch (w.seen w.id key now) key now = t.touch w key now := by
  have hu : ((t.touch w key now).touch (w.seen w.id key now) key now).users = (t.touch w key now).users := by
    rw [touch_users, touch_users, List.map_map, WalletRow.seen_userId]
    exact List.map_congr_left fun u _ => u.seen_seen w.userId now
  have hw : ((t.touch w key now).touch (w.seen w.id key now) key now).wallets = (t.touch w key now).wallets := by
    rw [touch_wallets, touch_wallets, List.map_map, WalletRow.seen_id]
    exact List.map_congr_left fun v _ => v.seen_seen w.id key now
  exact congrArg₂ (Tables.mk t.nonces) hu hw

/-! ## A first login -/

/-- The tables with one more user and one more wallet. -/
def withAccount (t : Tables) (u : UserRow) (w : WalletRow) : Tables :=
  { t with users := t.users ++ [u], wallets := t.wallets ++ [w] }

theorem mem_withAccount_users {t : Tables} {u u' : UserRow} {w : WalletRow} :
    u' ∈ (t.withAccount u w).users ↔ u' ∈ t.users ∨ u' = u := by
  simp [withAccount]

theorem mem_withAccount_wallets {t : Tables} {u : UserRow} {w w' : WalletRow} :
    w' ∈ (t.withAccount u w).wallets ↔ w' ∈ t.wallets ∨ w' = w := by
  simp [withAccount]

theorem findWallet?_withAccount {t : Tables} {o : Owner} (ho : t.findWallet? o = none) (u : UserRow) {id : Nat}
    {userId : String} {key : Option String} {now : Int} :
    (t.withAccount u ⟨id, userId, o, key, now, now⟩).findWallet? o = some ⟨id, userId, o, key, now, now⟩ := by
  rw [findWallet?] at ho
  simp [withAccount, findWallet?, ho]

theorem addUser?_eq_some_iff {t t' : Tables} {u : UserRow} :
    t.addUser? u = some t' ↔ t.findUser? u.id = none ∧ t' = { t with users := t.users ++ [u] } := by
  unfold addUser?
  cases h : t.findUser? u.id with
  | none => simp [eq_comm]
  | some u' => simp

theorem addUser?_eq_none_iff {t : Tables} {u : UserRow} : t.addUser? u = none ↔ t.findUser? u.id ≠ none := by
  unfold addUser?
  cases t.findUser? u.id <;> simp

theorem addWallet?_eq_some_iff {t t' : Tables} {w : WalletRow} :
    t.addWallet? w = some t' ↔ t.findWallet? w.owner = none ∧ t' = { t with wallets := t.wallets ++ [w] } := by
  unfold addWallet?
  cases h : t.findWallet? w.owner with
  | none => simp [eq_comm]
  | some w' => simp

theorem addWallet?_eq_none_iff {t : Tables} {w : WalletRow} : t.addWallet? w = none ↔ t.findWallet? w.owner ≠ none := by
  unfold addWallet?
  cases t.findWallet? w.owner <;> simp

theorem le_foldl_max (l : List Nat) (m : Nat) : m ≤ l.foldl max m ∧ ∀ n ∈ l, n ≤ l.foldl max m := by
  induction l generalizing m with
  | nil => exact ⟨Nat.le_refl m, fun n hn => by cases hn⟩
  | cons k l ih =>
    obtain ⟨h₁, h₂⟩ := ih (max m k)
    refine ⟨by simp only [List.foldl_cons]; omega, fun n hn => ?_⟩
    rcases List.mem_cons.mp hn with rfl | hn
    · simp only [List.foldl_cons]; omega
    · exact h₂ n hn

theorem id_lt_nextWalletId {t : Tables} {w : WalletRow} (hw : w ∈ t.wallets) : w.id < t.nextWalletId := by
  have := (le_foldl_max (t.wallets.map (·.id)) 0).2 w.id (List.mem_map.mpr ⟨w, hw, rfl⟩)
  unfold nextWalletId
  omega

theorem Accounts.withAccount {t : Tables} (h : t.Accounts) {u : UserRow} {w : WalletRow} (hu : t.findUser? u.id = none)
    (ho : t.findWallet? w.owner = none) (hi : w.id = t.nextWalletId) (hn : w.userId = u.id) (hc : u.createdAt = w.createdAt)
    (hl : u.lastLoginAt = w.lastLoginAt) : (t.withAccount u w).Accounts where
  userIds := nodup_map_append UserRow.id h.userIds (findUser?_eq_none_iff.mp hu)
  walletIds := nodup_map_append WalletRow.id h.walletIds fun v hv => by
    rw [hi]
    exact Nat.ne_of_lt (id_lt_nextWalletId hv)
  owners := nodup_map_append WalletRow.owner h.owners (findWallet?_eq_none_iff.mp ho)
  holders := nodup_map_append WalletRow.userId h.holders fun v hv he => by
    -- a wallet that named the new user would have it among the old ones
    obtain ⟨u', hu', hid, -⟩ := h.hasUser v hv
    exact findUser?_eq_none_iff.mp hu u' hu' (hid.trans (he.trans hn))
  hasUser v hv := by
    rcases mem_withAccount_wallets.mp hv with hv | rfl
    · obtain ⟨u', hu', h'⟩ := h.hasUser v hv
      exact ⟨u', mem_withAccount_users.mpr (Or.inl hu'), h'⟩
    · exact ⟨u, mem_withAccount_users.mpr (Or.inr rfl), hn.symm, hc, hl⟩
  hasWallet u' hu' := by
    rcases mem_withAccount_users.mp hu' with hu' | rfl
    · obtain ⟨v, hv, hid⟩ := h.hasWallet u' hu'
      exact ⟨v, mem_withAccount_wallets.mpr (Or.inl hv), hid⟩
    · exact ⟨w, mem_withAccount_wallets.mpr (Or.inr rfl), hn⟩

/-! ## Settling -/

/-- What a login of `o` stores of users and wallets. -/
inductive Settles (o : Owner) (key : Option String) (role userId : String) (now : Int) (t : Tables) : Tables → Prop
  | known (w : WalletRow) : t.findWallet? o = some w → Settles o key role userId now t (t.touch w key now)
  | first : t.findWallet? o = none → t.findUser? userId = none → Settles o key role userId now t
      (t.withAccount ⟨userId, role, now, now⟩ ⟨t.nextWalletId, userId, o, key, now, now⟩)

section Settles

variable {o : Owner} {key : Option String} {role userId : String} {now : Int} {t t' : Tables}

theorem Settles.nonces (h : Settles o key role userId now t t') : t'.nonces = t.nonces := by
  cases h <;> rfl

theorem Settles.eq_touch (h : Settles o key role userId now t t') {w : WalletRow} (hw : t.findWallet? o = some w) :
    t' = t.touch w key now := by
  cases h with
  | known v hv =>
    obtain rfl : w = v := Option.some.inj (hw.symm.trans hv)
    rfl
  | first ho _ =>
    rw [ho] at hw
    cases hw

theorem Settles.eq_withAccount (h : Settles o key role userId now t t') (hw : t.findWallet? o = none) :
    t' = t.withAccount ⟨userId, role, now, now⟩ ⟨t.nextWalletId, userId, o, key, now, now⟩ := by
  cases h with
  | known v hv =>
    rw [hw] at hv
    cases hv
  | first _ _ => rfl

theorem Settles.accounts (h : Settles o key role userId now t t') (ha : t.Accounts) : t'.Accounts := by
  cases h with
  | known w hw => exact ha.touch (mem_of_findWallet? hw).1 key now
  | first ho hu => exact ha.withAccount hu ho rfl rfl rfl rfl

/-- The owner's wallet and its user, who logged in now. -/
theorem Settles.found (h : Settles o key role userId now t t') (ha : t.Accounts) :
    ∃ w u, t'.findWallet? o = some w ∧ t'.findUser? w.userId = some u ∧ w.lastLoginAt = now ∧ u.lastLoginAt = now := by
  have ha' := h.accounts ha
  obtain ⟨w, hw, hl⟩ : ∃ w, t'.findWallet? o = some w ∧ w.lastLoginAt = now := by
    cases h with
    | known w hw =>
      refine ⟨w.seen w.id key now, ?_, w.seen_self key now⟩
      rw [findWallet?_touch, hw, Option.map_some]
    | first ho hu => exact ⟨_, findWallet?_withAccount ho _, rfl⟩
  obtain ⟨u, hu, -, hul⟩ := ha'.user_of_wallet (mem_of_findWallet? hw).1
  exact ⟨w, u, hw, hu, hl, hul.trans hl⟩

/-- To touch a settled account at the same second, with the same key, changes nothing. -/
theorem Settles.again (h : Settles o key role userId now t t') {w : WalletRow} (hw : t'.findWallet? o = some w) :
    t'.touch w key now = t' := by
  cases h with
  | known v hv =>
    rw [findWallet?_touch, hv] at hw
    obtain rfl : v.seen v.id key now = w := Option.some.inj hw
    exact touch_touch t v key now
  | first hno hu =>
    rw [findWallet?_withAccount hno] at hw
    obtain rfl : WalletRow.mk t.nextWalletId userId o key now now = w := Option.some.inj hw
    have hus : (t.withAccount ⟨userId, role, now, now⟩ ⟨t.nextWalletId, userId, o, key, now, now⟩).users.map
        (UserRow.seen userId now) = t.users ++ [⟨userId, role, now, now⟩] := by
      have hid : t.users.map (UserRow.seen userId now) = t.users :=
        (List.map_congr_left fun u hum => UserRow.seen_of_ne (findUser?_eq_none_iff.mp hu u hum) now).trans
          (List.map_id' t.users)
      simp [withAccount, hid, UserRow.seen]
    have hws : (t.withAccount ⟨userId, role, now, now⟩ ⟨t.nextWalletId, userId, o, key, now, now⟩).wallets.map
        (WalletRow.seen t.nextWalletId key now) = t.wallets ++ [⟨t.nextWalletId, userId, o, key, now, now⟩] := by
      have hid : t.wallets.map (WalletRow.seen t.nextWalletId key now) = t.wallets :=
        (List.map_congr_left fun v hvm => WalletRow.seen_of_ne (Nat.ne_of_lt (id_lt_nextWalletId hvm)) key now).trans
          (List.map_id' t.wallets)
      simp [withAccount, hid, WalletRow.seen, touchWallet]
    exact congrArg₂ (Tables.mk t.nonces) hus hws

/-- Other owners' wallets stay as they are. -/
theorem Settles.wallets_frame (h : Settles o key role userId now t t') (ha : t.Accounts) {v : WalletRow} (hv : v.owner ≠ o) :
    v ∈ t'.wallets ↔ v ∈ t.wallets := by
  cases h with
  | known w hw =>
    obtain ⟨hm, ho⟩ := mem_of_findWallet? hw
    have hne : ∀ x ∈ t.wallets, x.owner ≠ o → x.id ≠ w.id := fun x hx hxo hxi =>
      hxo (List.inj_on_of_nodup_map ha.walletIds hx hm hxi ▸ ho)
    rw [mem_touch_wallets]
    constructor
    · rintro ⟨x, hx, rfl⟩
      rw [WalletRow.seen_owner] at hv
      rwa [WalletRow.seen_of_ne (hne x hx hv)]
    · exact fun hvm => ⟨v, hvm, WalletRow.seen_of_ne (hne v hvm hv) key now⟩
  | first ho hu =>
    rw [mem_withAccount_wallets]
    exact or_iff_left fun he => hv (he ▸ rfl)

/-- Users of other owners stay as they are. -/
theorem Settles.users_frame (h : Settles o key role userId now t t') {w : WalletRow} (hw : t'.findWallet? o = some w)
    {u : UserRow} (hu : u.id ≠ w.userId) : u ∈ t'.users ↔ u ∈ t.users := by
  cases h with
  | known v hv =>
    rw [findWallet?_touch, hv] at hw
    obtain rfl : v.seen v.id key now = w := Option.some.inj hw
    rw [WalletRow.seen_userId] at hu
    rw [mem_touch_users]
    constructor
    · rintro ⟨x, hx, rfl⟩
      rw [UserRow.seen_id] at hu
      rwa [UserRow.seen_of_ne hu]
    · exact fun hum => ⟨u, hum, UserRow.seen_of_ne hu now⟩
  | first hno hid =>
    rw [findWallet?_withAccount hno] at hw
    obtain rfl : WalletRow.mk t.nextWalletId userId o key now now = w := Option.some.inj hw
    rw [mem_withAccount_users]
    exact or_iff_left fun hue => hu (by rw [hue])

end Settles

end Tables

/-! ## What lasts -/

/-- `u'` is `u` after any logins. -/
structure UserRow.Lasts (u u' : UserRow) : Prop where
  id : u'.id = u.id
  role : u'.role = u.role
  createdAt : u'.createdAt = u.createdAt

/-- `w'` is `w` after any logins. -/
structure WalletRow.Lasts (w w' : WalletRow) : Prop where
  id : w'.id = w.id
  userId : w'.userId = w.userId
  owner : w'.owner = w.owner
  createdAt : w'.createdAt = w.createdAt

theorem UserRow.lasts_seen (id : String) (now : Int) (u : UserRow) : u.Lasts (u.seen id now) := by
  refine ⟨u.seen_id id now, ?_, u.seen_createdAt id now⟩
  unfold UserRow.seen
  split <;> rfl

theorem WalletRow.lasts_seen (id : Nat) (key : Option String) (now : Int) (w : WalletRow) :
    w.Lasts (w.seen id key now) :=
  ⟨w.seen_id id key now, w.seen_userId id key now, w.seen_owner id key now, w.seen_createdAt id key now⟩

namespace Tables

/-- Every user and every wallet of `t` is still there in `t'`, as who it was. -/
structure Retains (t t' : Tables) : Prop where
  users : ∀ u ∈ t.users, ∃ u' ∈ t'.users, u.Lasts u'
  wallets : ∀ w ∈ t.wallets, ∃ w' ∈ t'.wallets, w.Lasts w'

theorem retains_of_eq {t t' : Tables} (hu : t'.users = t.users) (hw : t'.wallets = t.wallets) : Retains t t' where
  users u h := ⟨u, hu ▸ h, rfl, rfl, rfl⟩
  wallets w h := ⟨w, hw ▸ h, rfl, rfl, rfl, rfl⟩

theorem Retains.refl (t : Tables) : Retains t t := retains_of_eq rfl rfl

theorem Retains.trans {t₁ t₂ t₃ : Tables} (h : Retains t₁ t₂) (h' : Retains t₂ t₃) : Retains t₁ t₃ where
  users u hu := by
    obtain ⟨u₂, hu₂, h₂⟩ := h.users u hu
    obtain ⟨u₃, hu₃, h₃⟩ := h'.users u₂ hu₂
    exact ⟨u₃, hu₃, h₃.id.trans h₂.id, h₃.role.trans h₂.role, h₃.createdAt.trans h₂.createdAt⟩
  wallets w hw := by
    obtain ⟨w₂, hw₂, h₂⟩ := h.wallets w hw
    obtain ⟨w₃, hw₃, h₃⟩ := h'.wallets w₂ hw₂
    exact ⟨w₃, hw₃, h₃.id.trans h₂.id, h₃.userId.trans h₂.userId, h₃.owner.trans h₂.owner,
      h₃.createdAt.trans h₂.createdAt⟩

theorem Settles.retains {o : Owner} {key : Option String} {role userId : String} {now : Int} {t t' : Tables}
    (h : Settles o key role userId now t t') : Retains t t' := by
  cases h with
  | known w hw =>
    constructor
    · intro u hu
      exact ⟨_, mem_touch_users.mpr ⟨u, hu, rfl⟩, u.lasts_seen w.userId now⟩
    · intro v hv
      exact ⟨_, mem_touch_wallets.mpr ⟨v, hv, rfl⟩, v.lasts_seen w.id key now⟩
  | first ho hu =>
    constructor
    · intro u hum
      exact ⟨u, mem_withAccount_users.mpr (Or.inl hum), rfl, rfl, rfl⟩
    · intro v hv
      exact ⟨v, mem_withAccount_wallets.mpr (Or.inl hv), rfl, rfl, rfl, rfl⟩

end Tables

end WalletLogin.Ledger
