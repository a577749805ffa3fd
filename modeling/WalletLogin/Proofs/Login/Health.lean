/-
  WalletLogin.Proofs.Login.Health — the calls of a service whose storage is healthy.

  Where nothing is planned to fail, a call is a function of the stored tables (`Yields`),
  and only its request, its readings of the clock and the texts drawn for it decide how
  it ends. Each step has one lemma for every way in which it can end. The settling of an
  account is its three parts here: the rows of a known wallet are renewed (`refresh`), or
  those of a new one are written (`enroll`), and then they are read again.

  Proved:
  - `Nonces.yields_create`, `Nonces.yields_consume` and their like: the nonce store.
  - `Users.yields_upsert` and its like: an account is settled, and its rows are returned.
  - `yields_issue` and its like: all the ways in which a challenge ends.
  - `tables_of_issue`: what a challenge leaves if nothing hinders it.
  - `yields_login_unsigned`: a login that no wallet has signed.
-/

import WalletLogin.Proofs.Ledger.Health
import WalletLogin.Proofs.Login.Calls

namespace WalletLogin.Login

open Ledger Procedure Wallet

/-! ## Guards -/

namespace Procedure

section Yields

variable {α : Type} {work : Store α} {t t₁ t' : Tables} {a : α} {b : Breakdown}

theorem yields_refuse (r : Refusal) (t : Tables) : Yields (refuse r : Procedure α) t (.error (.refused r)) t :=
  yields_throw _ t

theorem yields_raise (b : Breakdown) (t : Tables) : Yields (raise b : Procedure α) t (.error (raised b)) t := fun _ h =>
  (ends_raise b).mpr ⟨rfl, h.toOver⟩

theorem yields_attempt (h : Yields work t (.ok a) t') (handler : Breakdown → Procedure α) :
    Yields (attempt work handler) t (.ok a) t' := fun s hs => by
  rw [ends_attempt]
  refine (h.ends_ok hs).mono (fun a' s' h' => ?_) fun _ _ => False.elim
  obtain ⟨rfl, h'⟩ := h'
  exact ⟨rfl, h'⟩

/-- A handler that rolls back goes on from what is stored. -/
theorem yields_attempt_error {r : Except Failure α} {handler : Breakdown → Procedure α} {m : Procedure α}
    (h : Yields work t (.error b) t₁) (hh : handler b = rollback >>= fun _ => m) (hm : Yields m t₁ r t') :
    Yields (attempt work handler) t r t' := fun s hs => by
  rw [ends_attempt]
  refine (h.ends_error hs).mono (fun _ _ => False.elim) fun b' s' h' => ?_
  obtain ⟨rfl, h'⟩ := h'
  rw [hh]
  simp only [ends_bind, ends_rollback]
  exact hm s'.rollback h'.rollback

theorem yields_guarded (h : Yields work t (.ok a) t') : Yields (guarded work) t (.ok a) t' := yields_attempt h surface

theorem yields_guarded_error (h : Yields work t (.error b) t') : Yields (guarded work) t (.error (surfaced b)) t' :=
  fun s hs => by
    rw [ends_guarded]
    refine (h.ends_error hs).mono (fun _ _ => False.elim) fun b' s' h' => ?_
    obtain ⟨rfl, h'⟩ := h'
    exact ⟨rfl, h'.rollback.toOver⟩

theorem yields_unguarded (h : Yields work t (.ok a) t') : Yields (unguarded work) t (.ok a) t' := yields_attempt h raise

/-- What a healthy call answers and leaves. -/
theorem outcome_of_yields {m : Procedure α} {r : Except Failure α} (h : Yields m t r t') {f : Faults} (hf : f.Quiet) :
    (perform m f t).answer = r ∧ (perform m f t).tables = t' := by
  obtain ⟨s, ht, ⟨a, ha, hr, hs⟩ | ⟨e, he, hr, hs⟩⟩ := perform_ends (h _ (Session.at_opened_quiet t hf))
  · exact ⟨ha.trans hr.symm, ht.trans hs.stored⟩
  · exact ⟨he.trans hr.symm, ht.trans hs.stored⟩

end Yields

end Procedure

theorem yields_lift_ok {α : Type} {e : Except Refusal α} {a : α} (h : e = .ok a) (t : Tables) :
    Yields (lift e) t (.ok a) t := by
  rw [h]
  exact yields_pure a t

theorem yields_lift_error {α : Type} {e : Except Refusal α} {r : Refusal} (h : e = .error r) (t : Tables) :
    Yields (lift e) t (.error (.refused r)) t := by
  rw [h]
  exact yields_refuse r t

theorem yields_checkDeadline {deadline : Option Int} {reading : Int} (h : ¬ Expired deadline reading) (t : Tables) :
    Yields (checkDeadline deadline reading) t (.ok ()) t := fun s hs =>
  (checkDeadline_ends s deadline reading).mono (fun _ _ h' => ⟨rfl, h'.1 ▸ hs⟩) fun _ _ h' => absurd h'.2.2 h

theorem yields_checkDeadline_late {deadline : Option Int} {reading : Int} (h : Expired deadline reading) (t : Tables) :
    Yields (checkDeadline deadline reading) t (.error (.refused .deadline)) t := fun s hs =>
  (checkDeadline_ends s deadline reading).mono (fun _ _ h' => absurd h h'.2) fun _ _ h' =>
    ⟨by rw [h'.2.1], h'.1 ▸ hs.toOver⟩

/-! ## The nonce store -/

namespace Nonces

variable {t t' : Tables} {subject : Subject} {o : Owner} {nonce n : String} {now ttl : Int}

/-- A create is its commit, and the drawing of the nonce is no part of the tables. -/
theorem yields_create_of {r : Except Failure Unit}
    (h : Yields (guarded (Store.commitWith (insert subject.owner? nonce now (now + ttl)))) t r t') :
    Yields (create nonce subject now ttl) t r t' := fun s hs => by
  simp only [create, ends_bind, ends_modify]
  exact h _ ⟨⟨hs.stored, hs.quiet⟩, hs.draft, hs.pending⟩

theorem yields_create (ho : subject.owner? = some o) (hf : fits now = true) (hx : fits (now + ttl) = true)
    (hn : t.findNonce? nonce = none) :
    Yields (create nonce subject now ttl) t (.ok ()) (t.withNonce ⟨nonce, o, now, now + ttl, none⟩) :=
  yields_create_of (yields_guarded (Store.yields_commitWith (insert_eq_ok_iff.mpr ⟨⟨hf, hx⟩, o, ho, hn, rfl⟩)))

/-- A number that no column holds comes before every constraint. -/
theorem yields_create_wide (h : ¬ (fits now = true ∧ fits (now + ttl) = true)) :
    Yields (create nonce subject now ttl) t (.error .numberTooWide) t :=
  yields_create_of <| yields_guarded_error (b := .tooWide) <| Store.yields_commitWith_error <|
    insert_eq_error_iff.mpr (Or.inl ⟨h, rfl⟩)

theorem yields_create_forbidden (hf : fits now = true) (hx : fits (now + ttl) = true)
    (h : subject.owner? = none ∨ t.findNonce? nonce ≠ none) :
    Yields (create nonce subject now ttl) t (.error (.refused .storage)) t :=
  yields_create_of <| yields_guarded_error (b := .fault .integrity) <| Store.yields_commitWith_error <|
    insert_eq_error_iff.mpr (Or.inr ⟨⟨hf, hx⟩, h, rfl⟩)

theorem yields_reread {row : NonceRow} (h : t.findNonce? nonce = some row) : Yields (reread nonce) t (.ok row) t :=
  yields_unguarded (Store.yields_reload h)

section Consume

variable (hd : t.NoncesDiffer)
include hd

theorem yields_consume (ho : subject.owner? = some o) (hf : fits now = true) (hl : t.Redeemable o n now) :
    Yields (consume subject (some n) now) t (.ok ()) (t.spend o n now) := fun s hs => by
  refine (consume_ends hs hd subject (some n) now).mono (fun _ s' h' => ?_) fun e s' h' => ?_
  · obtain ⟨o', n', ho', hn', -, -, h'⟩ := h'
    cases ho.symm.trans ho'
    cases hn'
    exact ⟨rfl, h'⟩
  · rcases h'.2 with ⟨-, hq⟩ | ⟨-, hw⟩ | ⟨-, -, hr⟩
    · exact absurd trivial hq
    · rw [hf] at hw
      cases hw
    · exact absurd hl (hr o n ho rfl)

theorem yields_consume_wide (hf : fits now = false) (nonce : Option String) :
    Yields (consume subject nonce now) t (.error .numberTooWide) t := fun s hs => by
  refine (consume_ends hs hd subject nonce now).mono (fun _ s' h' => ?_) fun e s' h' => ?_
  · obtain ⟨-, -, -, -, -, hf', -⟩ := h'
    rw [hf] at hf'
    cases hf'
  · rcases h'.2 with ⟨-, hq⟩ | ⟨rfl, -⟩ | ⟨-, hf', -⟩
    · exact absurd trivial hq
    · exact ⟨rfl, h'.1.toOver⟩
    · rw [hf] at hf'
      cases hf'

theorem yields_consume_refused (hf : fits now = true) {nonce : Option String} (hr : Refused t subject nonce now) :
    Yields (consume subject nonce now) t (.error (.refused .nonce)) t := fun s hs => by
  refine (consume_ends hs hd subject nonce now).mono (fun _ s' h' => ?_) fun e s' h' => ?_
  · obtain ⟨o, n, ho, hn, hl, -⟩ := h'
    exact absurd hl (hr o n ho hn)
  · rcases h'.2 with ⟨-, hq⟩ | ⟨-, hw⟩ | ⟨rfl, -⟩
    · exact absurd trivial hq
    · rw [hf] at hw
      cases hw
    · exact ⟨rfl, h'.1.toOver⟩

end Consume

end Nonces

/-! ## Accounts -/

namespace Users

/-- A login of a known wallet, before its rows are read again. -/
def refresh (w : WalletRow) (key : Option String) (now : Int) : Store Unit := do
  let _ ← Store.loadUser w
  Store.commitWith (Store.fitting [now] fun t => .ok (t.touch w key now))

theorem touch_eq (w : WalletRow) (key : Option String) (now : Int) :
    touch w key now = refresh w key now >>= fun _ => reread w.id w.userId := by
  simp only [touch, refresh, bind_assoc]

/-- A first login, before its rows are read again; the id of the new wallet. -/
def enroll (o : Option Owner) (key : Option String) (role userId : String) (now : Int) : Store Nat := do
  Store.add ⟨insertUser ⟨userId, role, now, now⟩, true⟩
  Store.flush
  let id := (← get).draft.nextWalletId
  Store.commitWith (insertWallet o id key userId now)
  return id

theorem make_eq (o : Option Owner) (key : Option String) (role userId : String) (now : Int) :
    make o key role userId now = enroll o key role userId now >>= fun id => reread id userId := by
  simp only [make, enroll, bind_assoc, pure_bind]

variable {t t' : Tables} {w : WalletRow} {key : Option String} {role userId : String} {now : Int} {o : Owner}

theorem yields_reread {id : Nat} {u : UserRow} (hw : t.walletById? id = some w) (hu : t.findUser? userId = some u) :
    Yields (reread id userId) t (.ok ⟨u, w⟩) t :=
  (Store.yields_reload hw).bind ((Store.yields_reload hu).bind (yields_pure _ t))

/-- The rows of the owner's account. -/
theorem exists_holds (ha : t.Accounts) (hw : t.findWallet? o = some w) :
    ∃ a, a.wallet = w ∧ Holds t o a ∧ Yields (reread w.id w.userId) t (.ok a) t := by
  obtain ⟨hwallet, u, hu⟩ := ha.rows_of_findWallet? hw
  exact ⟨⟨u, w⟩, rfl, ⟨hw, hu⟩, yields_reread hwallet hu⟩

theorem yields_refresh {u : UserRow} (hu : t.findUser? w.userId = some u) (hf : fits now = true) :
    Yields (refresh w key now) t (.ok ()) (t.touch w key now) :=
  (Store.yields_loadUser hu).bind (Store.yields_commitWith (Store.fitting_eq_ok_iff.mpr ⟨by simpa using hf, rfl⟩))

theorem yields_refresh_wide {u : UserRow} (hu : t.findUser? w.userId = some u) (hf : fits now = false) :
    Yields (refresh w key now) t (.error .tooWide) t :=
  (Store.yields_loadUser hu).bind <| Store.yields_commitWith_error <|
    Store.fitting_eq_error_iff.mpr (Or.inl ⟨by simp [hf], rfl⟩)

/-- The two insertions decide how an enrolment ends, the user's first. -/
theorem enroll_sound {s : Session} (h : s.At True t t) (o : Option Owner) (key : Option String) (role userId : String)
    (now : Int) :
    Ends (enroll o key role userId now) s
      (fun id s' => id = t.nextWalletId ∧ ∃ d d', insertUser ⟨userId, role, now, now⟩ t = .ok d ∧
        insertWallet o t.nextWalletId key userId now d = .ok d' ∧ s'.At True d' d')
      (fun b s' => (insertUser ⟨userId, role, now, now⟩ t = .error b ∨ ∃ d, insertUser ⟨userId, role, now, now⟩ t = .ok d ∧
        insertWallet o t.nextWalletId key userId now d = .error b) ∧ s'.Over True t) := by
  simp only [enroll, ends_bind, ends_get, ends_pure]
  refine (Store.add_ends h _ fun _ _ => False).mono (fun _ s₀ h₀ => ?_) (fun _ _ hb => hb.elim)
  refine (Store.flush_sound h₀).mono (fun _ s₁ h₁ => ?_) (fun b s₁ h₁ => ⟨Or.inl h₁.1, h₁.2⟩)
  obtain ⟨d, hd, h₁⟩ := h₁
  have hnext : s₁.draft.nextWalletId = t.nextWalletId := by
    obtain ⟨-, -, rfl⟩ := insertUser_eq_ok_iff.mp hd
    rw [h₁.draft]
    rfl
  rw [hnext]
  refine (Store.commitWith_sound h₁ _).mono (fun _ s₂ h₂ => ?_) (fun b s₂ h₂ => ⟨Or.inr ⟨d, hd, h₂.1⟩, h₂.2⟩)
  obtain ⟨d', hd', h₂⟩ := h₂
  exact ⟨rfl, d, d', hd, hd', h₂⟩

theorem insertUser_free (hf : fits now = true) (hu : t.findUser? userId = none) (role : String) :
    insertUser ⟨userId, role, now, now⟩ t = .ok { t with users := t.users ++ [⟨userId, role, now, now⟩] } :=
  insertUser_eq_ok_iff.mpr ⟨⟨hf, hf⟩, hu, rfl⟩

theorem yields_enroll (hf : fits now = true) (hu : t.findUser? userId = none) (hw : t.findWallet? o = none) :
    Yields (enroll (some o) key role userId now) t (.ok t.nextWalletId)
      (t.withAccount ⟨userId, role, now, now⟩ ⟨t.nextWalletId, userId, o, key, now, now⟩) := fun s hs => by
  have huser := insertUser_free hf hu role
  have hwallet : insertWallet (some o) t.nextWalletId key userId now
      { t with users := t.users ++ [⟨userId, role, now, now⟩] } = .ok (t.withAccount ⟨userId, role, now, now⟩
        ⟨t.nextWalletId, userId, o, key, now, now⟩) := insertWallet_eq_ok_iff.mpr ⟨o, rfl, hw, rfl⟩
  refine (enroll_sound hs _ _ _ _ _).mono (fun id s' h' => ?_) (fun b s' h' => ?_)
  · obtain ⟨rfl, d, d', hd, hd', h'⟩ := h'
    cases huser.symm.trans hd
    cases hwallet.symm.trans hd'
    exact ⟨rfl, h'⟩
  · rcases h'.1 with hb | ⟨d, hd, hb⟩
    · cases huser.symm.trans hb
    · cases huser.symm.trans hd
      cases hwallet.symm.trans hb

/-- An insertion that breaks down stops the enrolment and takes the one before it along. -/
theorem yields_enroll_error {b : Breakdown} {o : Option Owner}
    (hb : insertUser ⟨userId, role, now, now⟩ t = .error b ∨ ∃ d, insertUser ⟨userId, role, now, now⟩ t = .ok d ∧
      insertWallet o t.nextWalletId key userId now d = .error b) :
    Yields (enroll o key role userId now) t (.error b) t := fun s hs => by
  refine (enroll_sound hs _ _ _ _ _).mono (fun id s' h' => ?_) (fun b' s' h' => ?_)
  · obtain ⟨-, d, d', hd, hd', -⟩ := h'
    rcases hb with huser | ⟨d₀, huser, hwallet⟩
    · cases huser.symm.trans hd
    · cases huser.symm.trans hd
      cases hwallet.symm.trans hd'
  · obtain ⟨huser' | ⟨d, hd, hwallet'⟩, hs'⟩ := h' <;> rcases hb with huser | ⟨d₀, huser, hwallet⟩
    · cases huser.symm.trans huser'
      exact ⟨rfl, hs'⟩
    · cases huser.symm.trans huser'
    · cases huser.symm.trans hd
    · cases huser.symm.trans hd
      cases hwallet.symm.trans hwallet'
      exact ⟨rfl, hs'⟩

theorem yields_enroll_wide (hf : fits now = false) (o : Option Owner) :
    Yields (enroll o key role userId now) t (.error .tooWide) t :=
  yields_enroll_error (.inl (insertUser_eq_error_iff.mpr (.inl ⟨by simp [hf], rfl⟩)))

/-- A user id that is taken already. -/
theorem yields_enroll_collides (hf : fits now = true) (hu : t.findUser? userId ≠ none) (o : Option Owner) :
    Yields (enroll o key role userId now) t (.error (.fault .integrity)) t :=
  yields_enroll_error (.inl (insertUser_eq_error_iff.mpr (.inr ⟨⟨hf, hf⟩, hu, rfl⟩)))

/-- The wallet row is there already: the user row goes with the insertion that failed. -/
theorem yields_enroll_taken (hf : fits now = true) (hu : t.findUser? userId = none) (hw : t.findWallet? o = some w) :
    Yields (enroll (some o) key role userId now) t (.error (.fault .integrity)) t := by
  refine yields_enroll_error (.inr ⟨_, insertUser_free hf hu role, ?_⟩)
  refine insertWallet_eq_error_iff.mpr ⟨fun o' ho' hn => ?_, rfl⟩
  cases ho'
  cases hn.symm.trans hw

/-- A known wallet is touched, whichever of its rows the caller holds. -/
theorem yields_touch (ha : t.Accounts) (hw : t.findWallet? o = some w) (hf : fits now = true) (key : Option String) :
    ∃ a, Holds (t.touch w key now) o a ∧ Yields (touch w key now) t (.ok a) (t.touch w key now) := by
  obtain ⟨-, u, hu⟩ := ha.rows_of_findWallet? hw
  have hw' : (t.touch w key now).findWallet? o = some (w.seen w.id key now) := by
    rw [Tables.findWallet?_touch, hw, Option.map_some]
  obtain ⟨a, -, hh, hr⟩ := exists_holds (ha.touch (Tables.mem_of_findWallet? hw).1 key now) hw'
  rw [WalletRow.seen_id, WalletRow.seen_userId] at hr
  exact ⟨a, hh, touch_eq w key now ▸ (yields_refresh hu hf).bind hr⟩

theorem yields_make (ha : t.Accounts) (hw : t.findWallet? o = none) (hu : t.findUser? userId = none) (hf : fits now = true)
    (key : Option String) (role : String) :
    ∃ a, Holds (t.withAccount ⟨userId, role, now, now⟩ ⟨t.nextWalletId, userId, o, key, now, now⟩) o a ∧
      Yields (make (some o) key role userId now) t (.ok a)
        (t.withAccount ⟨userId, role, now, now⟩ ⟨t.nextWalletId, userId, o, key, now, now⟩) := by
  have hs : Tables.Settles o key role userId now t _ := .first hw hu
  obtain ⟨a, -, hh, hr⟩ := exists_holds (hs.accounts ha) (Tables.findWallet?_withAccount hw ⟨userId, role, now, now⟩)
  exact ⟨a, hh, make_eq _ _ _ _ _ ▸ (yields_enroll hf hu hw).bind hr⟩

section Upsert

variable (subject : Subject) (publicKey dr : Option String) (ha : t.Accounts)
include ha

/-- An account is settled, and its rows are what is returned. -/
theorem yields_upsert (ho : subject.owner? = some o) (hf : fits now = true)
    (hs : Tables.Settles o (trimKey publicKey) (dr.getD defaultRole) userId now t t') :
    ∃ a, Holds t' o a ∧ Yields (upsert subject publicKey dr userId now) t (.ok a) t' := by
  unfold upsert findOrMake
  rw [ho]
  have hfind := Store.yields_findWallet (some o) t
  rw [Option.bind_some] at hfind
  cases hs with
  | known w hw =>
    rw [hw] at hfind
    obtain ⟨a, hh, hy⟩ := yields_touch ha hw hf (trimKey publicKey)
    exact ⟨a, hh, yields_attempt (hfind.bind hy) _⟩
  | first hw hu =>
    rw [hw] at hfind
    obtain ⟨a, hh, hy⟩ := yields_make ha hw hu hf (trimKey publicKey) (dr.getD defaultRole)
    exact ⟨a, hh, yields_attempt (hfind.bind hy) _⟩

/-- A reading that no column holds stops the settling before it has an effect. -/
theorem yields_upsert_wide (userId : String) (hf : fits now = false) :
    Yields (upsert subject publicKey dr userId now) t (.error .numberTooWide) t := by
  have hwork : Yields (findOrMake subject.owner? (trimKey publicKey) (dr.getD defaultRole) userId now) t
      (.error .tooWide) t := by
    refine (Store.yields_findWallet subject.owner? t).bind ?_
    cases hw : subject.owner?.bind t.findWallet? with
    | some w =>
      obtain ⟨o, -, hw⟩ := Option.bind_eq_some_iff.mp hw
      obtain ⟨-, u, hu⟩ := ha.rows_of_findWallet? hw
      show Yields (touch w (trimKey publicKey) now) t (.error .tooWide) t
      rw [touch_eq]
      exact (yields_refresh_wide hu hf).bind_error _
    | none =>
      show Yields (make subject.owner? (trimKey publicKey) (dr.getD defaultRole) userId now) t (.error .tooWide) t
      rw [make_eq]
      exact (yields_enroll_wide hf _).bind_error _
  exact yields_attempt_error hwork rfl (yields_raise .tooWide t)

omit ha in
/-- A new wallet under a user id that is taken: the constraint looks like another login of
the wallet, but no wallet row is found. -/
theorem yields_upsert_unresolved (ho : subject.owner? = some o) (hf : fits now = true) (hw : t.findWallet? o = none)
    (hu : t.findUser? userId ≠ none) :
    Yields (upsert subject publicKey dr userId now) t
      (.error (.refused (.unresolved subject.walletType subject.address))) t := by
  have hfind := Store.yields_findWallet (some o) t
  rw [Option.bind_some, hw] at hfind
  have hwork : Yields (findOrMake (some o) (trimKey publicKey) (dr.getD defaultRole) userId now) t
      (.error (.fault .integrity)) t := by
    refine hfind.bind ?_
    show Yields (make (some o) (trimKey publicKey) (dr.getD defaultRole) userId now) t (.error (.fault .integrity)) t
    rw [make_eq]
    exact (yields_enroll_collides hf hu _).bind_error _
  have hagain : Yields (guarded (findAgain (some o) (trimKey publicKey) now)) t (.ok none) t :=
    yields_guarded (hfind.bind (yields_pure _ t))
  unfold upsert
  rw [ho]
  exact yields_attempt_error hwork (if_pos rfl) (hagain.bind (yields_refuse _ t))

end Upsert

/-- A free id is enough for an account to be settled. -/
theorem exists_settles (hu : t.findWallet? o = none → t.findUser? userId = none) (key : Option String) (role : String)
    (now : Int) : ∃ t', Tables.Settles o key role userId now t t' := by
  cases hw : t.findWallet? o with
  | some w => exact ⟨_, .known w hw⟩
  | none => exact ⟨_, .first hw (hu hw)⟩

end Users

/-! ## Challenges -/

section Issue

variable {t : Tables} {cfg : Config} {env : Conditions} {walletType address : Option String} {deadline : Option Int}

theorem yields_issue_refused {e : Refusal} (hi : identify walletType address = .error e) :
    Yields (issue cfg env walletType address deadline) t (.error (.refused e)) t :=
  (yields_lift_error hi t).bind_error _

theorem yields_issue_late {ka : Kind × Option String} (hi : identify walletType address = .ok ka)
    (he : Expired deadline (env.mono 0)) :
    Yields (issue cfg env walletType address deadline) t (.error (.refused .deadline)) t :=
  (yields_lift_ok hi t).bind ((yields_checkDeadline_late he t).bind_error _)

variable {k : Kind} (he : ¬ Expired deadline (env.mono 0))
include he

theorem yields_issue_wide {a : Option String} (hi : identify walletType address = .ok (k, a))
    (hf : ¬ (fits (env.wall 0) = true ∧ fits (env.wall 0 + cfg.nonceTtl) = true)) :
    Yields (issue cfg env walletType address deadline) t (.error .numberTooWide) t :=
  (yields_lift_ok hi t).bind ((yields_checkDeadline he t).bind ((Nonces.yields_create_wide hf).bind_error _))

variable (hf : fits (env.wall 0) = true) (hx : fits (env.wall 0 + cfg.nonceTtl) = true)
include hf hx

/-- A wallet without an address has no owner to store a nonce for. -/
theorem yields_issue_unnamed (hi : identify walletType address = .ok (k, none)) :
    Yields (issue cfg env walletType address deadline) t (.error (.refused .storage)) t :=
  (yields_lift_ok hi t).bind <| (yields_checkDeadline he t).bind <|
    (Nonces.yields_create_forbidden hf hx (Or.inl rfl)).bind_error _

/-- A nonce that is stored already is not stored again. -/
theorem yields_issue_taken {a : String} (hi : identify walletType address = .ok (k, some a))
    (hn : t.findNonce? env.nonce ≠ none) :
    Yields (issue cfg env walletType address deadline) t (.error (.refused .storage)) t :=
  (yields_lift_ok hi t).bind <| (yields_checkDeadline he t).bind <|
    (Nonces.yields_create_forbidden hf hx (Or.inr hn)).bind_error _

theorem yields_issue_of_row {a : String} (hi : identify walletType address = .ok (k, some a))
    (hn : t.findNonce? env.nonce = none)
    (hrow : (t.withNonce (challengeRow cfg env ⟨k.name, a⟩)).findNonce? env.nonce =
      some (challengeRow cfg env ⟨k.name, a⟩)) :
    Yields (issue cfg env walletType address deadline) t
      (.ok ⟨env.nonce, Message.current env.nonce, env.wall 0 + cfg.nonceTtl⟩)
      (t.withNonce (challengeRow cfg env ⟨k.name, a⟩)) := by
  refine (yields_lift_ok hi t).bind ((yields_checkDeadline he t).bind ?_)
  exact (Nonces.yields_create rfl hf hx hn).bind ((Nonces.yields_reread hrow).bind (yields_pure _ _))

theorem yields_issue (hd : t.NoncesDiffer) {a : String} (hi : identify walletType address = .ok (k, some a))
    (hn : t.findNonce? env.nonce = none) :
    Yields (issue cfg env walletType address deadline) t
      (.ok ⟨env.nonce, Message.current env.nonce, env.wall 0 + cfg.nonceTtl⟩)
      (t.withNonce (challengeRow cfg env ⟨k.name, a⟩)) :=
  yields_issue_of_row he hf hx hi hn (Tables.findNonce?_withNonce hd hn)

/-- A challenge that nothing hinders leaves its row. -/
theorem tables_of_issue (hq : env.faults.Quiet) (hd : t.NoncesDiffer) {a : String}
    (hi : identify walletType address = .ok (k, some a)) (hn : t.findNonce? env.nonce = none) :
    (Event.outcome ⟨cfg, env, .issue walletType address deadline⟩ t).tables =
      t.withNonce (challengeRow cfg env ⟨k.name, a⟩) :=
  (outcome_of_yields ((yields_issue he hf hx hd hi hn).map Answer.challenge) hq).2

end Issue

/-! ## Logins that are refused by their checks -/

/-- Where no wallet has signed, a login comes to the same refusal on all tables. -/
theorem yields_login_unsigned (cfg : Config) (env : Conditions) {r : Request} (deadline : Option Int)
    (h : ∀ k a, ¬ Presents r k a) :
    ∃ e, ∀ t, Yields (login cfg env r deadline) t (.error (.refused e)) t := by
  rw [login_eq]
  cases hv : vet cfg r with
  | error e => exact ⟨e, yields_refuse e⟩
  | ok ka =>
    obtain ⟨-, a, -, hp⟩ := vet_eq_ok_iff.mp hv
    exact absurd hp (h _ a)

theorem tables_of_unsigned {cfg : Config} {env : Conditions} {r : Request} {deadline : Option Int} (t : Tables)
    (hq : env.faults.Quiet) (h : ∀ k a, ¬ Presents r k a) :
    (Event.outcome ⟨cfg, env, .login r deadline⟩ t).tables = t := by
  obtain ⟨e, he⟩ := yields_login_unsigned cfg env deadline h
  exact (outcome_of_yields ((he t).map Answer.result) hq).2

end WalletLogin.Login
