/-
  WalletLogin.Proofs.Ledger.View — what one owner can see of the tables.

  An owner sees its nonce rows, its wallet row and that wallet's user. The number of a
  wallet row is not part of the view: it counts the wallets of all owners. Two tables are
  the same for an owner (`SameFor`) when it sees the same of both.

  Proved:
  - `sameFor_withNonce`, `sameFor_spend`, `sameFor_settles`: what other owners do to the
    tables is not seen, where the accounts are in order.
  - `SameFor.withNonce`, `SameFor.spend`, `SameFor.settles`: what an owner does to two
    tables that are the same for it leaves them so.
-/

import WalletLogin.Proofs.Ledger.Accounts

namespace WalletLogin.Ledger

/-- The row without its number. -/
def WalletRow.unnumbered (w : WalletRow) : WalletRow := { w with id := 0 }

theorem WalletRow.unnumbered_seen (w : WalletRow) (key : Option String) (now : Int) :
    (w.seen w.id key now).unnumbered = Tables.touchWallet w.unnumbered key now := by
  simp [seen, Tables.touchWallet, unnumbered]

namespace Tables

structure SameFor (o : Owner) (t t' : Tables) : Prop where
  nonces : t.nonces.filter (·.owner = o) = t'.nonces.filter (·.owner = o)
  wallet : (t.findWallet? o).map WalletRow.unnumbered = (t'.findWallet? o).map WalletRow.unnumbered
  user : ∀ w, t.findWallet? o = some w → t.findUser? w.userId = t'.findUser? w.userId

section SameFor

variable {o : Owner} {t t' t'' : Tables} {n : String} {now : Int}

theorem SameFor.refl (o : Owner) (t : Tables) : SameFor o t t := ⟨rfl, rfl, fun _ _ => rfl⟩

/-- The two wallet rows, where there is one. -/
theorem SameFor.wallets (h : SameFor o t t') {w : WalletRow} (hw : t.findWallet? o = some w) :
    ∃ w', t'.findWallet? o = some w' ∧ w'.unnumbered = w.unnumbered := by
  have hwallet := h.wallet
  rw [hw] at hwallet
  obtain ⟨w', hw', he⟩ := Option.map_eq_some_iff.mp hwallet.symm
  exact ⟨w', hw', he⟩

theorem SameFor.no_wallet (h : SameFor o t t') (hw : t.findWallet? o = none) : t'.findWallet? o = none := by
  have hwallet := h.wallet
  rw [hw] at hwallet
  exact Option.map_eq_none_iff.mp hwallet.symm

theorem userId_of_unnumbered {w w' : WalletRow} (h : w'.unnumbered = w.unnumbered) : w'.userId = w.userId := by
  show w'.unnumbered.userId = w.unnumbered.userId
  rw [h]

theorem owner_of_unnumbered {w w' : WalletRow} (h : w'.unnumbered = w.unnumbered) : w'.owner = w.owner := by
  show w'.unnumbered.owner = w.unnumbered.owner
  rw [h]

theorem SameFor.symm (h : SameFor o t t') : SameFor o t' t where
  nonces := h.nonces.symm
  wallet := h.wallet.symm
  user w' hw' := by
    cases hw : t.findWallet? o with
    | none => cases (h.no_wallet hw).symm.trans hw'
    | some w =>
      obtain ⟨v, hv, he⟩ := h.wallets hw
      cases hv.symm.trans hw'
      rw [userId_of_unnumbered he]
      exact (h.user w hw).symm

theorem SameFor.trans (h : SameFor o t t') (h' : SameFor o t' t'') : SameFor o t t'' where
  nonces := h.nonces.trans h'.nonces
  wallet := h.wallet.trans h'.wallet
  user w hw := by
    obtain ⟨w', hw', he⟩ := h.wallets hw
    have huser := h'.user w' hw'
    rw [userId_of_unnumbered he] at huser
    exact (h.user w hw).trans huser

/-! ## What others do -/

theorem sameFor_withNonce {r : NonceRow} (hr : r.owner ≠ o) (t : Tables) : SameFor o t (t.withNonce r) where
  nonces := by simp [hr]
  wallet := rfl
  user _ _ := rfl

theorem marked_of_owner_ne {r : NonceRow} {o : Owner} (hr : r.owner ≠ o) (n : String) (now : Int) :
    r.marked o n now = r := if_neg fun h => hr (NonceRow.isLive_iff.mp h.2).1

theorem filter_spend (t : Tables) (o o' : Owner) (n : String) (now : Int) :
    (t.spend o' n now).nonces.filter (·.owner = o) = (t.nonces.filter (·.owner = o)).map (NonceRow.marked o' n now) := by
  have hp : (fun r : NonceRow => decide (r.owner = o)) ∘ NonceRow.marked o' n now = fun r => decide (r.owner = o) := by
    funext r
    simp
  rw [spend_nonces, List.filter_map, hp]

theorem sameFor_spend {o' : Owner} (hne : o' ≠ o) (t : Tables) (n : String) (now : Int) : SameFor o t (t.spend o' n now) where
  nonces := by
    have hid : ∀ r ∈ t.nonces.filter (·.owner = o), r.marked o' n now = r := fun r hr => by
      refine marked_of_owner_ne (fun he => hne ?_) n now
      rw [← he]
      simpa using (List.mem_filter.mp hr).2
    rw [filter_spend, List.map_congr_left hid, List.map_id']
  wallet := rfl
  user _ _ := rfl

/-- The settling of another owner's account. -/
theorem sameFor_settles {o' : Owner} {key : Option String} {role userId : String} (ha : t.Accounts) (hne : o' ≠ o)
    (hs : Settles o' key role userId now t t') : SameFor o t t' := by
  have ha' := hs.accounts ha
  have hwallet : t.findWallet? o = t'.findWallet? o := Option.ext fun w => by
    rw [ha.findWallet?_iff, ha'.findWallet?_iff]
    constructor
    · intro h
      exact ⟨(hs.wallets_frame ha (h.2 ▸ Ne.symm hne)).mpr h.1, h.2⟩
    · intro h
      exact ⟨(hs.wallets_frame ha (h.2 ▸ Ne.symm hne)).mp h.1, h.2⟩
  refine ⟨by rw [hs.nonces], by rw [hwallet], fun w hw => Option.ext fun u => ?_⟩
  obtain ⟨w', u', hw', -⟩ := hs.found ha
  rw [hwallet] at hw
  obtain ⟨hm, hown⟩ := mem_of_findWallet? hw
  obtain ⟨hm', hown'⟩ := mem_of_findWallet? hw'
  -- two owners' wallets name two users
  have huser : w.userId ≠ w'.userId := fun he => hne <| by
    rw [← hown, ← hown', List.inj_on_of_nodup_map ha'.holders hm hm' he]
  rw [ha.findUser?_iff, ha'.findUser?_iff]
  constructor
  · intro h
    exact ⟨(hs.users_frame hw' (h.2 ▸ huser)).mpr h.1, h.2⟩
  · intro h
    exact ⟨(hs.users_frame hw' (h.2 ▸ huser)).mp h.1, h.2⟩

/-! ## What the owner does -/

theorem SameFor.withNonce (h : SameFor o t t') (r : NonceRow) : SameFor o (t.withNonce r) (t'.withNonce r) where
  nonces := by rw [withNonce_nonces, withNonce_nonces, List.filter_append, List.filter_append, h.nonces]
  wallet := h.wallet
  user := h.user

theorem redeemable_iff_filter : t.Redeemable o n now ↔
    ∃ r ∈ t.nonces.filter (·.owner = o), r.nonce = n ∧ r.isLive o now = true := by
  constructor
  · intro h
    obtain ⟨r, hr, hn, hl⟩ := h
    exact ⟨r, List.mem_filter.mpr ⟨hr, by simpa using (NonceRow.isLive_iff.mp hl).1⟩, hn, hl⟩
  · intro h
    obtain ⟨r, hr, hn, hl⟩ := h
    exact ⟨r, (List.mem_filter.mp hr).1, hn, hl⟩

theorem SameFor.redeemable_iff (h : SameFor o t t') : t.Redeemable o n now ↔ t'.Redeemable o n now := by
  rw [redeemable_iff_filter, redeemable_iff_filter, h.nonces]

theorem SameFor.spend (h : SameFor o t t') (n : String) (now : Int) : SameFor o (t.spend o n now) (t'.spend o n now) where
  nonces := by rw [filter_spend, filter_spend, h.nonces]
  wallet := h.wallet
  user := h.user

theorem findUser?_touch (t : Tables) (w : WalletRow) (key : Option String) (now : Int) (id : String) :
    (t.touch w key now).findUser? id = (t.findUser? id).map (UserRow.seen w.userId now) := by
  have hp : (fun u : UserRow => decide (u.id = id)) ∘ UserRow.seen w.userId now = fun u => decide (u.id = id) := by
    funext u
    simp
  rw [findUser?, touch_users, List.find?_map, hp, findUser?]

theorem findUser?_withAccount {u : UserRow} (hu : t.findUser? u.id = none) (w : WalletRow) :
    (t.withAccount u w).findUser? u.id = some u := by
  rw [findUser?] at hu
  simp [withAccount, findUser?, hu]

theorem SameFor.settles {key : Option String} {role userId : String} {t₁ t₁' : Tables} (h : SameFor o t t')
    (hs : Settles o key role userId now t t₁) (hs' : Settles o key role userId now t' t₁') : SameFor o t₁ t₁' := by
  have hnonces : t₁.nonces.filter (·.owner = o) = t₁'.nonces.filter (·.owner = o) := by
    rw [hs.nonces, hs'.nonces, h.nonces]
  cases hs with
  | known w hw =>
    obtain ⟨w', hw', he⟩ := h.wallets hw
    have huser := userId_of_unnumbered he
    obtain rfl := hs'.eq_touch hw'
    refine ⟨hnonces, ?_, fun v hv => ?_⟩
    · rw [findWallet?_touch, findWallet?_touch, hw, hw']
      simp only [Option.map_some, WalletRow.unnumbered_seen, he]
    · rw [findWallet?_touch, hw] at hv
      obtain rfl : w.seen w.id key now = v := Option.some.inj hv
      rw [WalletRow.seen_userId, findUser?_touch, findUser?_touch, huser, h.user w hw]
  | first hw hu =>
    have hw' := h.no_wallet hw
    cases hs' with
    | known w' hk => cases hw'.symm.trans hk
    | first _ hu' =>
      refine ⟨hnonces, ?_, fun v hv => ?_⟩
      · rw [findWallet?_withAccount hw, findWallet?_withAccount hw']
        rfl
      · rw [findWallet?_withAccount hw] at hv
        obtain rfl := Option.some.inj hv
        have huser := findUser?_withAccount (u := ⟨userId, role, now, now⟩) hu ⟨t.nextWalletId, userId, o, key, now, now⟩
        have huser' := findUser?_withAccount (u := ⟨userId, role, now, now⟩) hu' ⟨t'.nextWalletId, userId, o, key, now, now⟩
        exact huser.trans huser'.symm

end SameFor

end Tables

end WalletLogin.Ledger
