/-
  WalletLogin.Proofs.Login.Settling — finding or making the account of an owner.

  The work can stop before its commit or behind it, when the rows are read again. So a
  failure leaves the tables as they were, or with the account settled (`Settled`). After
  a constraint fault the work starts over with a second look-up; as settling an account
  again changes nothing, the second start settles it as the first one would have.

  Proved:
  - `upsert_ends`: a success settles the account, on any tables. Where the accounts are in
    order it returns the account's two rows, and a failure has one of the causes in
    `Prevented` and is never a wallet without its user.
-/

import WalletLogin.Proofs.Ledger.Accounts
import WalletLogin.Proofs.Login.Procedure

namespace WalletLogin.Login.Users

open Ledger Procedure

/-- The account is the owner's, as the tables show it. -/
structure Holds (t : Tables) (o : Owner) (a : Account) : Prop where
  wallet : t.findWallet? o = some a.wallet
  user : t.findUser? a.wallet.userId = some a.user

theorem Holds.unique {t : Tables} {o : Owner} {a b : Account} (ha : Holds t o a) (hb : Holds t o b) : a = b := by
  have hw : a.wallet = b.wallet := Option.some.inj (ha.wallet.symm.trans hb.wallet)
  have hu : a.user = b.user := Option.some.inj (ha.user.symm.trans (hw ▸ hb.user))
  cases a
  cases b
  cases hw
  cases hu
  rfl

/-- What work on the account of `o` left: nothing new, or the account settled. -/
def Settled (o : Option Owner) (key : Option String) (role userId : String) (now : Int) (t t' : Tables) : Prop :=
  t' = t ∨ ∃ o', o = some o' ∧ Tables.Settles o' key role userId now t t'

/-- Why no account can be settled, where nothing is planned to fail under `q`. -/
def Prevented (q : Prop) (o : Option Owner) (userId : String) (now : Int) (t : Tables) : Prop :=
  ¬ q ∨ fits now = false ∨ o = none ∨ t.findUser? userId ≠ none

section

variable {o : Option Owner} {key : Option String} {role userId : String} {now : Int} {t t' : Tables}

theorem Settled.accounts (h : Settled o key role userId now t t') (ha : t.Accounts) : t'.Accounts := by
  rcases h with rfl | ⟨o', -, h⟩
  · exact ha
  · exact h.accounts ha

/-- A second start settles the account, whatever the first one left. -/
theorem Settled.touch (h : Settled o key role userId now t t') {o' : Owner} (ho : o = some o')
    {w : WalletRow} (hw : t'.findWallet? o' = some w) : Tables.Settles o' key role userId now t (t'.touch w key now) := by
  rcases h with rfl | ⟨o₁, ho₁, h⟩
  · exact .known w hw
  · obtain rfl : o₁ = o' := Option.some.inj (ho₁.symm.trans ho)
    rw [h.again hw]
    exact h

end

section Ends

variable {q : Prop} {t d : Tables} {s : Session}

theorem reread_ends (h : s.At q t d) (walletId : Nat) (userId : String) :
    Ends (reread walletId userId) s
      (fun a s' => s'.At q t d ∧ d.walletById? walletId = some a.wallet ∧ d.findUser? userId = some a.user)
      (fun b s' => s'.At q t d ∧ b.IsFault ∧ (¬ q ∨ d.walletById? walletId = none ∨ d.findUser? userId = none)) := by
  simp only [reread, ends_bind, ends_pure]
  refine (Store.reload_ends h _).mono (fun w s₁ h₁ => ?_) (fun b _ hb => ⟨hb.1, hb.2.1, hb.2.2.imp_right Or.inl⟩)
  exact (Store.reload_ends h₁.1 _).mono (fun u s₂ h₂ => ⟨h₂.1, h₁.2, h₂.2⟩)
    (fun b _ hb => ⟨hb.1, hb.2.1, hb.2.2.imp_right Or.inr⟩)

/-- The rows of a settled account are there to be read again. -/
theorem reread_held_ends (h : s.At q t t) {o : Owner} {w : WalletRow} (hw : t.findWallet? o = some w) :
    Ends (reread w.id w.userId) s (fun a s' => s'.At q t t ∧ (t.Accounts → Holds t o a))
      (fun b s' => s'.At q t t ∧ b.IsFault ∧ (t.Accounts → ¬ q)) := by
  refine (reread_ends h w.id w.userId).mono (fun a s' h' => ⟨h'.1, fun ha => ?_⟩)
    (fun b s' h' => ⟨h'.1, h'.2.1, fun ha => ?_⟩)
  · obtain rfl : w = a.wallet := Option.some.inj ((ha.rows_of_findWallet? hw).1.symm.trans h'.2.1)
    exact ⟨hw, h'.2.2⟩
  · obtain ⟨hwallet, u, hu⟩ := ha.rows_of_findWallet? hw
    simpa [hwallet, hu] using h'.2.2

/-- A login of a known wallet touches it and its user, or stops before or behind that. -/
theorem touch_ends (h : s.At q t t) {o : Owner} {w : WalletRow} (hw : t.findWallet? o = some w) (key : Option String)
    (now : Int) :
    Ends (touch w key now) s
      (fun a s' => s'.At q (t.touch w key now) (t.touch w key now) ∧ (t.Accounts → Holds (t.touch w key now) o a))
      (fun b s' => (t.Accounts → b.IsFault ∧ ¬ q ∨ b = .tooWide ∧ fits now = false) ∧
        ∃ t', (t' = t ∨ t' = t.touch w key now) ∧ s'.Over q t') := by
  have hm := (Tables.mem_of_findWallet? hw).1
  have hw' : (t.touch w key now).findWallet? o = some (w.seen w.id key now) := by
    rw [Tables.findWallet?_touch, hw, Option.map_some]
  simp only [touch, ends_bind]
  refine (Store.loadUser_ends h w).mono (fun _ s₁ h₁ => ?_)
    (fun b _ hb => ⟨fun ha => Or.inl ?_, t, Or.inl rfl, hb.1.toOver⟩)
  · refine (Store.commitWith_ends h₁.1 _).mono (fun _ s₂ h₂ => ?_) (fun b _ hb => ⟨fun _ => ?_, t, Or.inl rfl, hb.1⟩)
    · obtain ⟨d, hd, h₂⟩ := h₂
      obtain ⟨-, hd⟩ := Store.fitting_eq_ok_iff.mp hd
      cases hd
      have hr := reread_held_ends h₂ hw'
      rw [WalletRow.seen_id, WalletRow.seen_userId] at hr
      exact hr.mono (fun _ _ h₃ => ⟨h₃.1, fun ha => h₃.2 (ha.touch hm key now)⟩)
        (fun b _ hb => ⟨fun ha => Or.inl ⟨hb.2.1, hb.2.2 (ha.touch hm key now)⟩, _, Or.inr rfl, hb.1.toOver⟩)
    · rcases hb.2 with hf | hf
      · exact Or.inl hf
      · exact Or.inr (by simpa [and_comm] using hf)
  · obtain ⟨u, hu, -⟩ := ha.user_of_wallet hm
    simpa [hu] using hb.2

theorem insertWallet_eq_ok_iff {o : Option Owner} {id : Nat} {key : Option String} {userId : String} {now : Int}
    {t' : Tables} : insertWallet o id key userId now t = .ok t' ↔ ∃ o', o = some o' ∧ t.findWallet? o' = none ∧
      t' = { t with wallets := t.wallets ++ [⟨id, userId, o', key, now, now⟩] } := by
  cases o <;> simp [insertWallet, Tables.addWallet?_eq_some_iff]

theorem insertWallet_eq_error_iff {o : Option Owner} {id : Nat} {key : Option String} {userId : String} {now : Int}
    {b : Breakdown} : insertWallet o id key userId now t = .error b ↔
      (∀ o', o = some o' → t.findWallet? o' ≠ none) ∧ b = .fault .integrity := by
  cases o <;> simp [insertWallet, Tables.addWallet?_eq_none_iff]

/-- The wallet row that is written behind its user's row settles the account. -/
theorem settles_of_insertWallet {o : Option Owner} {key : Option String} {role userId : String} {now : Int} {t' : Tables}
    (hu : t.findUser? userId = none)
    (h : insertWallet o t.nextWalletId key userId now { t with users := t.users ++ [⟨userId, role, now, now⟩] } = .ok t') :
    ∃ o', o = some o' ∧ Tables.Settles o' key role userId now t t' ∧
      t'.findWallet? o' = some ⟨t.nextWalletId, userId, o', key, now, now⟩ := by
  obtain ⟨o', rfl, hw, rfl⟩ := insertWallet_eq_ok_iff.mp h
  exact ⟨o', rfl, .first hw hu, Tables.findWallet?_withAccount (t := t) hw ⟨userId, role, now, now⟩⟩

theorem insertUser_eq_ok_iff {u : UserRow} {t' : Tables} : insertUser u t = .ok t' ↔
    (fits u.createdAt = true ∧ fits u.lastLoginAt = true) ∧ t.findUser? u.id = none ∧
      t' = { t with users := t.users ++ [u] } := by
  simp [insertUser, Tables.addUser?_eq_some_iff]

theorem insertUser_eq_error_iff {u : UserRow} {b : Breakdown} : insertUser u t = .error b ↔
    ¬ (fits u.createdAt = true ∧ fits u.lastLoginAt = true) ∧ b = .tooWide ∨
      (fits u.createdAt = true ∧ fits u.lastLoginAt = true) ∧ t.findUser? u.id ≠ none ∧ b = .fault .integrity := by
  simp [insertUser, Tables.addUser?_eq_none_iff]

/-- Writes the user row to the draft, where its id is free. -/
theorem flushUser_ends {role userId : String} {now : Int}
    (h : s.Stands q t t [⟨insertUser ⟨userId, role, now, now⟩, true⟩]) :
    Ends Store.flush s
      (fun _ s' => t.findUser? userId = none ∧ s'.At q t { t with users := t.users ++ [⟨userId, role, now, now⟩] })
      (fun b s' => s'.Over q t ∧ b ≠ .orphan ∧ (¬ q ∨ fits now = false ∨ t.findUser? userId ≠ none)) := by
  refine (Store.flush_ends h).mono (fun _ s₁ h₁ => ?_) (fun b s₁ h₁ => ⟨h₁.1, ?_⟩)
  · obtain ⟨d, hd, h₁⟩ := h₁
    obtain ⟨-, hu, rfl⟩ := insertUser_eq_ok_iff.mp hd
    exact ⟨hu, h₁⟩
  · rcases h₁.2 with ⟨hf, hq⟩ | hf
    · exact ⟨hf.ne_orphan, Or.inl hq⟩
    · rcases insertUser_eq_error_iff.mp hf with ⟨hw, rfl⟩ | ⟨-, hu, rfl⟩
      · exact ⟨by simp, Or.inr (Or.inl (by simpa using hw))⟩
      · exact ⟨by simp, Or.inr (Or.inr hu)⟩

/-- A first login stores both rows together, or neither. -/
theorem make_ends (h : s.At q t t) (o : Option Owner) (key : Option String) (role userId : String) (now : Int) :
    Ends (make o key role userId now) s
      (fun a s' => ∃ o' t', o = some o' ∧ Tables.Settles o' key role userId now t t' ∧ s'.At q t' t' ∧
        (t.Accounts → Holds t' o' a))
      (fun b s' => (t.Accounts → b ≠ .orphan ∧ (Prevented q o userId now t ∨ ∃ o', o = some o' ∧ t.findWallet? o' ≠ none)) ∧
        ∃ t', Settled o key role userId now t t' ∧ s'.Over q t') := by
  simp only [make, ends_bind, ends_get]
  refine (Store.add_ends h _ _).mono (fun _ s₀ h₀ => ?_) (fun _ _ hb => hb)
  refine (flushUser_ends h₀).mono (fun _ s₁ h₁ => ?_) (fun b s₁ h₁ => ?_)
  · obtain ⟨hu, h₁⟩ := h₁
    rw [h₁.draft]
    refine (Store.commitWith_ends h₁ _).mono (fun _ s₂ h₂ => ?_) (fun b s₂ h₂ => ?_)
    · obtain ⟨d, hd, h₂⟩ := h₂
      obtain ⟨o', rfl, hs, hf⟩ := settles_of_insertWallet hu hd
      exact (reread_held_ends h₂ hf).mono (fun a s₃ h₃ => ⟨o', _, rfl, hs, h₃.1, fun ha => h₃.2 (hs.accounts ha)⟩)
        (fun b s₃ h₃ => ⟨fun ha => ⟨h₃.2.1.ne_orphan, Or.inl (Or.inl (h₃.2.2 (hs.accounts ha)))⟩, _,
          Or.inr ⟨o', rfl, hs⟩, h₃.1.toOver⟩)
    · refine ⟨fun _ => ⟨?_, ?_⟩, t, Or.inl rfl, h₂.1⟩
      · rcases h₂.2 with ⟨hf, -⟩ | hf
        · exact hf.ne_orphan
        · simp [(insertWallet_eq_error_iff.mp hf).2]
      · rcases h₂.2 with ⟨-, hq⟩ | hf
        · exact Or.inl (Or.inl hq)
        · have hw := (insertWallet_eq_error_iff.mp hf).1
          cases o with
          | none => exact Or.inl (Or.inr (Or.inr (Or.inl rfl)))
          | some o' => exact Or.inr ⟨o', rfl, hw o' rfl⟩
  · refine ⟨fun _ => ⟨h₁.2.1, Or.inl ?_⟩, t, Or.inl rfl, h₁.1⟩
    rcases h₁.2.2 with hq | hf | hu
    · exact Or.inl hq
    · exact Or.inr (Or.inl hf)
    · exact Or.inr (Or.inr (Or.inr hu))

/-- The first start. Its look-up can miss the wallet only where a fault is planned. -/
theorem findOrMake_ends (h : s.At q t t) (o : Option Owner) (key : Option String) (role userId : String) (now : Int) :
    Ends (findOrMake o key role userId now) s
      (fun a s' => ∃ o' t', o = some o' ∧ Tables.Settles o' key role userId now t t' ∧ s'.At q t' t' ∧
        (t.Accounts → Holds t' o' a))
      (fun b s' => (t.Accounts → b ≠ .orphan ∧ Prevented q o userId now t) ∧
        ∃ t', Settled o key role userId now t t' ∧ s'.Over q t') := by
  simp only [findOrMake, ends_bind]
  refine (Store.findWallet_ends h o).mono (fun w s₁ h₁ => ?_)
    (fun b s₁ h₁ => ⟨fun _ => ⟨h₁.2.1.ne_orphan, Or.inl h₁.2.2⟩, t, Or.inl rfl, h₁.1.toOver⟩)
  obtain ⟨h₁, hw⟩ := h₁
  cases w with
  | some w =>
    obtain ⟨o', rfl, hw⟩ := hw
    have hs : Tables.Settles o' key role userId now t (t.touch w key now) := .known w hw
    refine (touch_ends h₁ hw key now).mono (fun a s₂ h₂ => ⟨o', _, rfl, hs, h₂⟩) (fun b s₂ h₂ => ?_)
    obtain ⟨hb, t', ht', h₂⟩ := h₂
    refine ⟨fun ha => ⟨?_, (hb ha).imp And.right fun hc => Or.inl hc.2⟩, t', ht'.imp_right ?_, h₂⟩
    · rcases hb ha with ⟨hf, -⟩ | ⟨rfl, -⟩
      · exact hf.ne_orphan
      · simp
    · rintro rfl
      exact ⟨o', rfl, hs⟩
  | none =>
    refine (make_ends h₁ o key role userId now).mono (fun a s₂ h₂ => h₂)
      (fun b s₂ h₂ => ⟨fun ha => ⟨(h₂.1 ha).1, ?_⟩, h₂.2⟩)
    rcases (h₂.1 ha).2 with hp | ⟨o', rfl, ho'⟩
    · exact hp
    · rcases hw with hq | hw
      · exact Or.inl hq
      · exact absurd (hw o' rfl) ho'

/-- The second start, on what the first one left. -/
theorem findAgain_ends (h : s.At q t' t') {o : Option Owner} {key : Option String} {role userId : String} {now : Int}
    (hs : Settled o key role userId now t t') :
    Ends (findAgain o key now) s
      (fun a s' => (a = none ∧ s'.At q t' t') ∨ ∃ a' o' t'', a = some a' ∧ o = some o' ∧
        Tables.Settles o' key role userId now t t'' ∧ s'.At q t'' t'' ∧ (t.Accounts → Holds t'' o' a'))
      (fun b s' => (t.Accounts → b ≠ .orphan) ∧ ∃ t'', Settled o key role userId now t t'' ∧ s'.Over q t'') := by
  simp only [findAgain, ends_bind]
  refine (Store.findWallet_ends h o).mono (fun w s₁ h₁ => ?_)
    (fun b s₁ h₁ => ⟨fun _ => h₁.2.1.ne_orphan, t', hs, h₁.1.toOver⟩)
  obtain ⟨h₁, hw⟩ := h₁
  cases w with
  | some w =>
    obtain ⟨o', rfl, hw⟩ := hw
    have ht := hs.touch rfl hw
    rw [ends_map]
    refine (touch_ends h₁ hw key now).mono
      (fun a s₂ h₂ => Or.inr ⟨a, o', _, rfl, rfl, ht, h₂.1, fun ha => h₂.2 (hs.accounts ha)⟩) (fun b s₂ h₂ => ?_)
    obtain ⟨hb, t'', ht'', h₂⟩ := h₂
    refine ⟨fun ha => ?_, t'', ?_, h₂⟩
    · rcases hb (hs.accounts ha) with ⟨hf, -⟩ | ⟨rfl, -⟩
      · exact hf.ne_orphan
      · simp
    · rcases ht'' with rfl | rfl
      · exact hs
      · exact Or.inr ⟨o', rfl, ht⟩
  | none => exact (ends_pure _).mpr (Or.inl ⟨rfl, h₁⟩)

/-- A success settles the account, and returns its rows where accounts are in order; a
failure leaves nothing new or the account settled, and has a cause there. -/
theorem upsert_ends (h : s.At q t t) (subject : Subject) (publicKey role : Option String) (userId : String) (now : Int) :
    Ends (upsert subject publicKey role userId now) s
      (fun a s' => ∃ o t', subject.owner? = some o ∧
        Tables.Settles o (trimKey publicKey) (role.getD defaultRole) userId now t t' ∧ s'.At q t' t' ∧
        (t.Accounts → Holds t' o a))
      (fun f s' => (t.Accounts → f ≠ .orphanWallet ∧ Prevented q subject.owner? userId now t) ∧
        ∃ t', Settled subject.owner? (trimKey publicKey) (role.getD defaultRole) userId now t t' ∧ s'.At q t' t') := by
  simp only [upsert, ends_attempt]
  refine (findOrMake_ends h subject.owner? (trimKey publicKey) (role.getD defaultRole) userId now).mono
    (fun a s₁ h₁ => h₁) (fun b s₁ h₁ => ?_)
  obtain ⟨hb, t', hs, h₁⟩ := h₁
  split
  · simp only [ends_bind, ends_rollback, ends_guarded]
    refine (findAgain_ends h₁.rollback hs).mono (fun a s₂ h₂ => ?_) (fun b' s₂ h₂ => ?_)
    · rcases h₂ with ⟨rfl, h₂⟩ | ⟨a', o, t'', rfl, h₂⟩
      · exact (ends_refuse _).mpr ⟨fun ha => ⟨by simp, (hb ha).2⟩, t', hs, h₂⟩
      · exact (ends_pure _).mpr ⟨o, t'', h₂⟩
    · obtain ⟨hb', t'', hs', h₂⟩ := h₂
      exact ⟨fun ha => ⟨surfaced_ne_orphanWallet (hb' ha), (hb ha).2⟩, t'', hs', h₂.rollback⟩
  · rw [ends_surface]
    exact ⟨fun ha => ⟨surfaced_ne_orphanWallet (hb ha).1, (hb ha).2⟩, t', hs, h₁.rollback⟩

end Ends

end WalletLogin.Login.Users
