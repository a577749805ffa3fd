/-
  WalletLogin.Proofs.Login.Isolation — what a wallet's calls answer does not depend on the
  calls of other wallets.

  Two runs are compared: a run of calls, and the same run without the calls that do not
  name the wallet. Nothing is planned to fail, and no nonce and no user id is drawn twice.
  A call that is left out leaves the wallet's view of the tables as it is
  (`foreign_step`); a call that is kept comes to the same on two tables that are the same
  for the wallet, and leaves them so (`own_step`). For the second, a program is followed on
  both tables at once (`Paired`), one step after the other.

  Proved:
  - `paired_issue`, `paired_login`: the two calls on two tables.
  - `drawn`: the nonces and the user ids of a run's tables were drawn for its calls.
  - `wallets_do_not_interfere`: the answers are the same in both runs, and so are the
    wallet's rows, but for the number of the wallet row.
-/

import WalletLogin.Proofs.Ledger.View
import WalletLogin.Proofs.Login.Continuity
import WalletLogin.Proofs.Login.Health

namespace WalletLogin.Login

open Ledger Procedure Wallet History

/-! ## Programs on two tables -/

/-- Both fail for one reason, or both come to values that `V` relates. -/
inductive Alike {ε α : Type} (V : α → α → Prop) : Except ε α → Except ε α → Prop
  | ok {a a' : α} : V a a' → Alike V (.ok a) (.ok a')
  | error (e : ε) : Alike V (.error e) (.error e)

theorem Alike.map_eq_map {ε α β : Type} {g : α → β} {x x' : Except ε α} (h : Alike (fun a a' => g a = g a') x x') :
    x.map g = x'.map g := by
  cases h with
  | ok h => exact congrArg Except.ok h
  | error e => rfl

theorem Alike.eq_map {ε α : Type} {g : α → α} {x x' : Except ε α} (h : Alike (fun a a' => a' = g a) x x') : x' = x.map g := by
  cases h with
  | ok h => exact congrArg Except.ok h
  | error e => rfl

/-- On two tables two programs come to the same, up to `V`, and `R` relates what they leave. -/
def Paired {α : Type} (m m' : Procedure α) (t t' : Tables) (V : α → α → Prop) (R : Tables → Tables → Prop) : Prop :=
  ∃ x x' t₁ t₁', Yields m t x t₁ ∧ Yields m' t' x' t₁' ∧ Alike V x x' ∧ R t₁ t₁'

section Paired

variable {α β : Type} {m m' : Procedure α} {t t' t₁ t₁' : Tables} {V : α → α → Prop} {R R' : Tables → Tables → Prop}

theorem paired_ok {a a' : α} (h : Yields m t (.ok a) t₁) (h' : Yields m' t' (.ok a') t₁') (hv : V a a') (hr : R t₁ t₁') :
    Paired m m' t t' V R := ⟨_, _, _, _, h, h', .ok hv, hr⟩

theorem paired_error {f : Failure} (h : Yields m t (.error f) t₁) (h' : Yields m' t' (.error f) t₁') (hr : R t₁ t₁') :
    Paired m m' t t' V R := ⟨_, _, _, _, h, h', .error f, hr⟩

/-- Where both fail, what relates the tables is only weakened. -/
theorem Paired.bind {f f' : α → Procedure β} {W : β → β → Prop} (h : Paired m m' t t' V R)
    (hR : ∀ {t t'}, R t t' → R' t t') (hf : ∀ {a a' t t'}, V a a' → R t t' → Paired (f a) (f' a') t t' W R') :
    Paired (m >>= f) (m' >>= f') t t' W R' := by
  obtain ⟨x, x', t₁, t₁', hx, hx', hv, hr⟩ := h
  cases hv with
  | ok hv =>
    obtain ⟨y, y', t₂, t₂', hy, hy', hw, hr'⟩ := hf hv hr
    exact ⟨y, y', t₂, t₂', hx.bind hy, hx'.bind hy', hw, hr'⟩
  | error e => exact paired_error (hx.bind_error f) (hx'.bind_error f') (hR hr)

/-- A program comes to the same as itself. -/
theorem paired_self {x : Except Failure α} (h : Yields m t x t₁) (hr : R t₁ t₁) : Paired m m t t Eq R := by
  cases x with
  | ok a => exact paired_ok h h rfl hr
  | error f => exact paired_error h h hr

/-- What is made of the two values may be related otherwise. -/
theorem Paired.map {f f' : α → β} {W : β → β → Prop} (h : Paired m m' t t' V R) (hf : ∀ {a a'}, V a a' → W (f a) (f' a')) :
    Paired (f <$> m) (f' <$> m') t t' W R := by
  obtain ⟨x, x', t₁, t₁', hx, hx', hv, hr⟩ := h
  cases hv with
  | ok hv => exact paired_ok (hx.map f) (hx'.map f') (hf hv) hr
  | error e => exact paired_error (hx.map f) (hx'.map f') hr

/-- Two calls that are followed at once answer alike, up to `V`. -/
theorem perform_of_paired (h : Paired m m' t t' V R) {faults : Faults} (hq : faults.Quiet) :
    Alike V (perform m faults t).answer (perform m' faults t').answer ∧
      R (perform m faults t).tables (perform m' faults t').tables := by
  obtain ⟨x, x', t₁, t₁', hx, hx', hv, hr⟩ := h
  obtain ⟨ha, ht⟩ := outcome_of_yields hx hq
  obtain ⟨ha', ht'⟩ := outcome_of_yields hx' hq
  rw [ha, ht, ha', ht']
  exact ⟨hv, hr⟩

theorem paired_checkDeadline (hr : R t t') (deadline : Option Int) (reading : Int) :
    Paired (checkDeadline deadline reading) (checkDeadline deadline reading) t t' Eq R := by
  by_cases he : Expired deadline reading
  · exact paired_error (yields_checkDeadline_late he t) (yields_checkDeadline_late he t') hr
  · exact paired_ok (yields_checkDeadline he t) (yields_checkDeadline he t') rfl hr

theorem paired_lift (e : Except Refusal α) (hr : R t t') : Paired (lift e) (lift e) t t' Eq R := by
  cases e with
  | ok a => exact paired_ok (yields_lift_ok rfl t) (yields_lift_ok rfl t') rfl hr
  | error r => exact paired_error (yields_lift_error rfl t) (yields_lift_error rfl t') hr

end Paired

/-! ## One call of the wallet -/

/-- Two sound tables that are the same for an owner, and on which a user id is free. -/
structure Abreast (o : Owner) (userId : String) (t t' : Tables) : Prop where
  sound : Sound t ∧ Sound t'
  newUser : t.findUser? userId = none ∧ t'.findUser? userId = none
  same : Tables.SameFor o t t'

def Result.unnumbered (r : Result) : Result := { r with wallet := r.wallet.unnumbered }

def Answer.unnumbered : Answer → Answer
  | .result r => .result r.unnumbered
  | a => a

/-- The same rows, but for the number of the wallet row. -/
def SameAccount (a a' : Users.Account) : Prop := a.user = a'.user ∧ a.wallet.unnumbered = a'.wallet.unnumbered

section Paired

variable {t t' : Tables} {o : Owner} {userId : String}

theorem paired_consume (h : Abreast o userId t t') {subject : Subject} (ho : subject.owner? = some o) (n : String)
    (now : Int) :
    Paired (Nonces.consume subject (some n) now) (Nonces.consume subject (some n) now) t t' Eq (Abreast o userId) := by
  obtain ⟨⟨hs, hs'⟩, hu, hsame⟩ := h
  cases hf : fits now with
  | false =>
    exact paired_error (Nonces.yields_consume_wide hs.differ hf _) (Nonces.yields_consume_wide hs'.differ hf _)
      ⟨⟨hs, hs'⟩, hu, hsame⟩
  | true =>
    by_cases hl : t.Redeemable o n now
    · have hl' := hsame.redeemable_iff.mp hl
      exact paired_ok (Nonces.yields_consume hs.differ ho hf hl) (Nonces.yields_consume hs'.differ ho hf hl') rfl
        ⟨⟨hs.spend o n now, hs'.spend o n now⟩, hu, hsame.spend n now⟩
    · have hrefused : ∀ {t₀ : Tables}, ¬ t₀.Redeemable o n now → Nonces.Refused t₀ subject (some n) now := by
        intro t₀ hno o' n' ho' hn'
        cases ho.symm.trans ho'
        cases hn'
        exact hno
      exact paired_error (Nonces.yields_consume_refused hs.differ hf (hrefused hl))
        (Nonces.yields_consume_refused hs'.differ hf (hrefused (mt hsame.redeemable_iff.mpr hl))) ⟨⟨hs, hs'⟩, hu, hsame⟩

/-- What an owner sees of two tables decides what is returned of its account. -/
theorem sameAccount_of_holds (h : Tables.SameFor o t t') {a a' : Users.Account} (ha : Users.Holds t o a)
    (ha' : Users.Holds t' o a') : SameAccount a a' := by
  obtain ⟨w', hw', he⟩ := h.wallets ha.wallet
  cases hw'.symm.trans ha'.wallet
  refine ⟨?_, he.symm⟩
  have huser := h.user _ ha.wallet
  rw [ha.user, ← Tables.userId_of_unnumbered he, ha'.user] at huser
  exact Option.some.inj huser

theorem paired_upsert (h : Abreast o userId t t') {subject : Subject} (ho : subject.owner? = some o)
    (publicKey role : Option String) (now : Int) :
    Paired (Users.upsert subject publicKey role userId now) (Users.upsert subject publicKey role userId now) t t' SameAccount
      (Tables.SameFor o) := by
  obtain ⟨⟨hs, hs'⟩, ⟨hu, hu'⟩, hsame⟩ := h
  cases hf : fits now with
  | false =>
    exact paired_error (Users.yields_upsert_wide _ _ _ hs.accounts _ hf) (Users.yields_upsert_wide _ _ _ hs'.accounts _ hf) hsame
  | true =>
    obtain ⟨t₁, hset⟩ := Users.exists_settles (o := o) (fun _ => hu) (Users.trimKey publicKey)
      (role.getD Users.defaultRole) now
    obtain ⟨t₁', hset'⟩ := Users.exists_settles (o := o) (fun _ => hu') (Users.trimKey publicKey)
      (role.getD Users.defaultRole) now
    obtain ⟨a, hh, hy⟩ := Users.yields_upsert subject publicKey role hs.accounts ho hf hset
    obtain ⟨a', hh', hy'⟩ := Users.yields_upsert subject publicKey role hs'.accounts ho hf hset'
    have hafter := hsame.settles hset hset'
    exact paired_ok hy hy' (sameAccount_of_holds hafter hh hh') hafter

/-- The token names the user and the owner, and not the number of the wallet row. -/
theorem claims_congr {a a' : Users.Account} (h : SameAccount a a') (cfg : Config) (now : Int) :
    claims cfg a.user a.wallet now = claims cfg a'.user a'.wallet now := by
  unfold claims
  rw [h.1, Tables.owner_of_unnumbered h.2]

variable {cfg : Config} {env : Conditions} {r : Request} {k : Kind}

theorem paired_complete (deadline : Option Int) {a : String} (h : Abreast ⟨k.name, a⟩ env.userId t t') :
    Paired (complete cfg env r deadline k (some a)) (complete cfg env r deadline k (some a)) t t'
      (fun x y => x.unnumbered = y.unnumbered) (Tables.SameFor ⟨k.name, a⟩) := by
  refine (paired_checkDeadline h _ _).bind Abreast.same fun _ h => ?_
  refine (paired_upsert h rfl _ _ _).bind id fun {x y} {t t'} hv hr => ?_
  rw [claims_congr hv]
  refine (paired_lift _ hr).bind id fun {c c'} {t t'} hc hr => ?_
  cases hc
  have hres : (Result.mk c x.user x.wallet).unnumbered = (Result.mk c y.user y.wallet).unnumbered := by
    simp only [Result.unnumbered, hv.1, hv.2]
  exact paired_ok (yields_pure _ _) (yields_pure _ _) hres hr

theorem paired_login (deadline : Option Int) {a : String} (h : Abreast ⟨k.name, a⟩ env.userId t t')
    (hi : identify r.walletType r.address = .ok (k, some a)) :
    Paired (login cfg env r deadline) (login cfg env r deadline) t t' (fun x y => x.unnumbered = y.unnumbered)
      (Tables.SameFor ⟨k.name, a⟩) := by
  rw [login_eq]
  cases hv : vet cfg r with
  | error e => exact paired_error (yields_refuse e t) (yields_refuse e t') h.same
  | ok kx =>
    obtain ⟨k', x⟩ := kx
    obtain ⟨-, a', rfl, hp⟩ := vet_eq_ok_iff.mp hv
    obtain ⟨rfl, rfl⟩ : k = k' ∧ a = a' := by simpa using hi.symm.trans hp.named
    rw [lift_ok_bind]
    refine (paired_checkDeadline h _ _).bind Abreast.same fun _ h => ?_
    refine (paired_consume h rfl _ _).bind Abreast.same fun _ h => ?_
    exact paired_complete deadline h

theorem paired_issue {walletType address : Option String} (deadline : Option Int) {a : String} (hd : t.NoncesDiffer)
    (hd' : t'.NoncesDiffer) (hs : Tables.SameFor ⟨k.name, a⟩ t t') (hi : identify walletType address = .ok (k, some a))
    (hn : t.findNonce? env.nonce = none) (hn' : t'.findNonce? env.nonce = none) :
    Paired (issue cfg env walletType address deadline) (issue cfg env walletType address deadline) t t' Eq
      (Tables.SameFor ⟨k.name, a⟩) := by
  by_cases he : Expired deadline (env.mono 0)
  · exact paired_error (yields_issue_late hi he) (yields_issue_late hi he) hs
  · by_cases hf : fits (env.wall 0) = true ∧ fits (env.wall 0 + cfg.nonceTtl) = true
    · exact paired_ok (yields_issue he hf.1 hf.2 hd hi hn) (yields_issue he hf.1 hf.2 hd' hi hn') rfl (hs.withNonce _)
    · exact paired_error (yields_issue_wide he hi hf) (yields_issue_wide he hi hf) hs

end Paired

/-! ## A wallet without an address -/

section Nameless

variable (cfg : Config) (env : Conditions) {k : Kind}

/-- What a challenge for a wallet without an address comes to does not depend on the tables. -/
theorem exists_yields_issue {walletType address : Option String} (deadline : Option Int)
    (hi : identify walletType address = .ok (k, none)) :
    ∃ f, ∀ t, Yields (issue cfg env walletType address deadline) t (.error f) t := by
  by_cases he : Expired deadline (env.mono 0)
  · exact ⟨_, fun t => yields_issue_late hi he⟩
  · by_cases hf : fits (env.wall 0) = true ∧ fits (env.wall 0 + cfg.nonceTtl) = true
    · exact ⟨_, fun t => yields_issue_unnamed he hf.1 hf.2 hi⟩
    · exact ⟨_, fun t => yields_issue_wide he hi hf⟩

/-- No signature is that of a wallet without an address. -/
theorem exists_yields_login {r : Request} (deadline : Option Int) (hi : identify r.walletType r.address = .ok (k, none)) :
    ∃ f, ∀ t, Yields (login cfg env r deadline) t (.error f) t := by
  obtain ⟨e, he⟩ := yields_login_unsigned cfg env deadline fun k' a hp => by cases hi.symm.trans hp.named
  exact ⟨_, he⟩

end Nameless

/-! ## Runs -/

/-- The wallet that a challenge or a login names. -/
def Call.wallet? : Call → Option (Kind × Option String)
  | .issue walletType address _ => (identify walletType address).toOption
  | .login r _ => (identify r.walletType r.address).toOption
  | .profile _ => none

/-- Nothing is planned to fail, and no text is drawn twice. -/
structure Apart (es : List Event) : Prop where
  quiet : ∀ e ∈ es, e.conditions.faults.Quiet
  nonces : (es.map fun e => e.conditions.nonce).Nodup
  userIds : (es.map fun e => e.conditions.userId).Nodup

/-- The tables are the same for the wallet, if it has an address. -/
def SameView (k : Kind) (a : Option String) (t t' : Tables) : Prop := ∀ x, a = some x → Tables.SameFor ⟨k.name, x⟩ t t'

theorem toOption_eq_some_iff {ε α : Type} {e : Except ε α} {a : α} : e.toOption = some a ↔ e = .ok a := by
  cases e <;> simp [Except.toOption]

theorem kind_of_name {k k' : Kind} (h : k.name = k'.name) : k = k' := by
  revert h
  cases k <;> cases k' <;> decide

section Steps

variable {e : Event} {k : Kind} {a : Option String} {t t' : Tables}

/-- A call that names another wallet, or none, is not seen. -/
theorem foreign_step (ht : Sound t) (hne : e.call.wallet? ≠ some (k, a)) : SameView k a t (e.outcome t).tables := by
  rintro x rfl
  have hl := (outcome_spec ht e).leaves
  generalize (e.outcome t).tables = t₁ at hl
  cases hl with
  | nothing => exact .refl _ t
  | @challenge walletType address deadline o _ hcall hc =>
    obtain ⟨⟨k', hi, hk⟩, -, rfl⟩ := hc
    refine Tables.sameFor_withNonce (fun he => hne ?_) t
    have ho : o = ⟨k.name, x⟩ := he
    rw [ho] at hi hk
    obtain rfl : k = k' := kind_of_name hk
    rw [hcall]
    exact toOption_eq_some_iff.mpr hi
  | @redeemed r deadline o _ hcall hr =>
    obtain ⟨k', hp, hk⟩ := hr.presented
    have ho : o ≠ ⟨k.name, x⟩ := by
      rintro rfl
      obtain rfl : k = k' := kind_of_name hk
      refine hne ?_
      rw [hcall]
      exact toOption_eq_some_iff.mpr hp.named
    have hspend := Tables.sameFor_spend ho t (trimmed r.nonce) (e.conditions.wall 0)
    rcases hr.left with rfl | ⟨o', ho', hs⟩
    · exact hspend
    · obtain rfl : o = o' := Option.some.inj ho'
      exact hspend.trans (Tables.sameFor_settles (ht.accounts.spend _ _ _) ho hs)

/-- What a call that is followed on two tables answers, as far as `g` tells answers apart, and
what it leaves. -/
theorem outcome_of_paired {α : Type} {m : Procedure α} {V : α → α → Prop} {R : Tables → Tables → Prop} {f : α → Answer}
    {g : Answer → Answer} {faults : Faults} (h : Paired m m t t' V R) (hq : faults.Quiet)
    (hf : ∀ {b b'}, V b b' → g (f b) = g (f b')) :
    (perform (f <$> m) faults t).answer.map g = (perform (f <$> m) faults t').answer.map g ∧
      R (perform (f <$> m) faults t).tables (perform (f <$> m) faults t').tables := by
  have hmapped : Paired (f <$> m) (f <$> m) t t' (fun b b' => g b = g b') R := h.map hf
  obtain ⟨ha, hr⟩ := perform_of_paired hmapped hq
  exact ⟨ha.map_eq_map, hr⟩

/-- A call of the wallet comes to the same on tables that are the same for the wallet. -/
theorem own_step (ht : Sound t) (ht' : Sound t') (hs : SameView k a t t') (hq : e.conditions.faults.Quiet)
    (he : e.call.wallet? = some (k, a)) (hn : t.findNonce? e.conditions.nonce = none)
    (hn' : t'.findNonce? e.conditions.nonce = none) (hu : t.findUser? e.conditions.userId = none)
    (hu' : t'.findUser? e.conditions.userId = none) :
    (e.outcome t).answer.map Answer.unnumbered = (e.outcome t').answer.map Answer.unnumbered ∧
      SameView k a (e.outcome t).tables (e.outcome t').tables := by
  obtain ⟨cfg, env, call⟩ := e
  cases call with
  | issue walletType address deadline =>
    have hi := toOption_eq_some_iff.mp he
    refine outcome_of_paired (R := SameView k a) (V := Eq) (m := issue cfg env walletType address deadline) ?_ hq
      fun hb => by rw [hb]
    cases a with
    | none =>
      obtain ⟨f, hf⟩ := exists_yields_issue cfg env deadline hi
      exact paired_error (hf t) (hf t') hs
    | some a =>
      obtain ⟨x, x', t₁, t₁', hx, hx', hv, hr⟩ := paired_issue deadline ht.differ ht'.differ (hs a rfl) hi hn hn'
      exact ⟨x, x', t₁, t₁', hx, hx', hv, fun y hy => Option.some.inj hy ▸ hr⟩
  | login r deadline =>
    have hi := toOption_eq_some_iff.mp he
    refine outcome_of_paired (R := SameView k a) (V := fun x y => x.unnumbered = y.unnumbered)
      (m := login cfg env r deadline) ?_ hq fun hb => congrArg Answer.result hb
    cases a with
    | none =>
      obtain ⟨f, hf⟩ := exists_yields_login cfg env deadline hi
      exact paired_error (hf t) (hf t') hs
    | some a =>
      obtain ⟨x, x', t₁, t₁', hx, hx', hv, hr⟩ := paired_login deadline ⟨⟨ht, ht'⟩, ⟨hu, hu'⟩, hs a rfl⟩ hi
      exact ⟨x, x', t₁, t₁', hx, hx', hv, fun y hy => Option.some.inj hy ▸ hr⟩
  | profile userId => cases he

end Steps

/-! ## What was drawn -/

/-- A call brings no nonce and no user id into the tables but those that were drawn for it. -/
theorem Leaves.drawn {e : Event} {t t' : Tables} (h : Leaves e t t') :
    (∀ r' ∈ t'.nonces, (∃ r ∈ t.nonces, r.nonce = r'.nonce) ∨ r'.nonce = e.conditions.nonce) ∧
      ∀ u' ∈ t'.users, (∃ u ∈ t.users, u.id = u'.id) ∨ u'.id = e.conditions.userId := by
  cases h with
  | nothing => exact ⟨fun r hr => Or.inl ⟨r, hr, rfl⟩, fun u hu => Or.inl ⟨u, hu, rfl⟩⟩
  | challenge _ hc =>
    rw [hc.stored]
    refine ⟨fun r' hr' => ?_, fun u hu => Or.inl ⟨u, hu, rfl⟩⟩
    rcases List.mem_append.mp hr' with hr | hr
    · exact Or.inl ⟨r', hr, rfl⟩
    · rw [List.mem_singleton.mp hr]
      exact Or.inr rfl
  | redeemed _ hr =>
    refine ⟨fun r' hr' => ?_, fun u' hu' => ?_⟩
    · rw [hr.nonces] at hr'
      obtain ⟨r, hmem, rfl⟩ := Tables.mem_spend.mp hr'
      exact Or.inl ⟨r, hmem, (NonceRow.marked_nonce _ _ _ r).symm⟩
    · rcases hr.left with rfl | ⟨_, -, hs⟩
      · exact Or.inl ⟨u', hu', rfl⟩
      · cases hs with
        | known w _ =>
          obtain ⟨u, hu, rfl⟩ := Tables.mem_touch_users.mp hu'
          exact Or.inl ⟨u, hu, (u.seen_id _ _).symm⟩
        | first _ _ =>
          rcases Tables.mem_withAccount_users.mp hu' with hu | rfl
          · exact Or.inl ⟨u', hu, rfl⟩
          · exact Or.inr rfl

/-- The nonces and the user ids of the tables were drawn for calls of the run. -/
theorem drawn (es : List Event) :
    (∀ r ∈ (after Event.outcome es).nonces, r.nonce ∈ es.map fun e => e.conditions.nonce) ∧
      ∀ u ∈ (after Event.outcome es).users, u.id ∈ es.map fun e => e.conditions.userId := by
  induction es using List.reverseRecOn with
  | nil => exact ⟨fun r hr => (by cases hr), fun u hu => (by cases hu)⟩
  | append_singleton es e ih =>
    obtain ⟨hn, hu⟩ := (outcome_spec (sound_after es) e).leaves.drawn
    rw [after_snoc, List.map_append, List.map_append]
    refine ⟨fun r hr => ?_, fun u hmem => ?_⟩
    · rcases hn r hr with ⟨r₀, hr₀, hnonce⟩ | hnew
      · exact List.mem_append_left _ (hnonce ▸ ih.1 r₀ hr₀)
      · exact List.mem_append_right _ (by simp [hnew])
    · rcases hu u hmem with ⟨u₀, hu₀, hid⟩ | hnew
      · exact List.mem_append_left _ (hid ▸ ih.2 u₀ hu₀)
      · exact List.mem_append_right _ (by simp [hnew])

/-- What was not drawn for a run is free in the tables of each run of calls from it. -/
theorem free_of_not_drawn {es fs : List Event} (hsub : fs ⊆ es) {e : Event}
    (hn : e.conditions.nonce ∉ es.map fun e => e.conditions.nonce)
    (hu : e.conditions.userId ∉ es.map fun e => e.conditions.userId) :
    (after Event.outcome fs).findNonce? e.conditions.nonce = none ∧
      (after Event.outcome fs).findUser? e.conditions.userId = none := by
  obtain ⟨hnonces, husers⟩ := drawn fs
  refine ⟨Tables.findNonce?_eq_none_iff.mpr fun r hr he => hn ?_, Tables.findUser?_eq_none_iff.mpr fun u hmem he => hu ?_⟩
  · exact he ▸ List.map_subset _ hsub (hnonces r hr)
  · exact he ▸ List.map_subset _ hsub (husers u hmem)

theorem Apart.snoc {es : List Event} {e : Event} (h : Apart (es ++ [e])) :
    Apart es ∧ e.conditions.faults.Quiet ∧ (e.conditions.nonce ∉ es.map fun e => e.conditions.nonce) ∧
      e.conditions.userId ∉ es.map fun e => e.conditions.userId := by
  obtain ⟨hq, hn, hu⟩ := h
  rw [List.map_append, List.nodup_append] at hn hu
  refine ⟨⟨fun x hx => hq x (List.mem_append_left _ hx), hn.1, hu.1⟩, hq e (by simp), fun hmem => ?_, fun hmem => ?_⟩
  · exact hn.2.2 _ hmem _ (by simp) rfl
  · exact hu.2.2 _ hmem _ (by simp) rfl

/-! ## A run with and without other wallets -/

/-- The calls of the run that name the wallet. -/
def ownCalls (k : Kind) (a : Option String) (es : List Event) : List Event := es.filter fun e => e.call.wallet? = some (k, a)

/-- The answers of those calls in the run, wallet rows without their numbers. -/
def ownAnswers (k : Kind) (a : Option String) (es : List Event) : List (Except Failure Answer) :=
  ((es.zip (run es Tables.empty).1).filter fun x => x.1.call.wallet? = some (k, a)).map fun x =>
    x.2.map Answer.unnumbered

theorem ownAnswers_snoc (k : Kind) (a : Option String) (es : List Event) (e : Event) :
    ownAnswers k a (es ++ [e]) = ownAnswers k a es ++
      if e.call.wallet? = some (k, a) then [(e.outcome (after Event.outcome es)).answer.map Answer.unnumbered] else [] := by
  unfold ownAnswers
  rw [run_snoc, List.zip_append (run_length es _).symm, List.filter_append, List.map_append, run_tables]
  congr 1
  by_cases h : e.call.wallet? = some (k, a) <;> simp [h]

theorem ownCalls_snoc (k : Kind) (a : Option String) (es : List Event) (e : Event) :
    ownCalls k a (es ++ [e]) = ownCalls k a es ++ if e.call.wallet? = some (k, a) then [e] else [] := by
  unfold ownCalls
  rw [List.filter_append]
  congr 1
  by_cases h : e.call.wallet? = some (k, a) <;> simp [h]

/-- The two runs side by side. -/
theorem own_run {es : List Event} (h : Apart es) (k : Kind) (a : Option String) :
    ownAnswers k a es = (run (ownCalls k a es) Tables.empty).1.map (·.map Answer.unnumbered) ∧
      SameView k a (after Event.outcome es) (after Event.outcome (ownCalls k a es)) := by
  induction es using List.reverseRecOn with
  | nil => exact ⟨rfl, fun x _ => .refl _ _⟩
  | append_singleton es e ih =>
    obtain ⟨hbefore, hq, hn, hu⟩ := h.snoc
    obtain ⟨hanswers, hview⟩ := ih hbefore
    rw [ownAnswers_snoc, ownCalls_snoc, after_snoc]
    by_cases he : e.call.wallet? = some (k, a)
    · rw [if_pos he, if_pos he, run_snoc, after_snoc, run_tables, List.map_append, hanswers]
      obtain ⟨hnonce, huser⟩ := free_of_not_drawn (List.Subset.refl es) hn hu
      have hown : ownCalls k a es ⊆ es := List.filter_subset_self es
      obtain ⟨hnonce', huser'⟩ := free_of_not_drawn hown hn hu
      obtain ⟨ha, hs⟩ := own_step (sound_after es) (sound_after (ownCalls k a es)) hview hq he hnonce hnonce' huser huser'
      rw [ha]
      exact ⟨rfl, hs⟩
    · rw [if_neg he, if_neg he, List.append_nil, List.append_nil]
      have hforeign := foreign_step (sound_after es) he
      refine ⟨hanswers, fun x hx => ?_⟩
      exact (hforeign x hx).symm.trans (hview x hx)

/-- Over every run in which nothing is planned to fail and no text is drawn twice, and for
every wallet, with an address or without: leaving out the calls that do not name it leaves
the answers to its own calls as they are, and in the end its nonce rows, its wallet row and
its user row; only the number of the wallet row may differ. -/
theorem wallets_do_not_interfere {es : List Event} (h : Apart es) (k : Kind) (a : Option String) :
    ownAnswers k a es = (run (ownCalls k a es) Tables.empty).1.map (·.map Answer.unnumbered) ∧
    ∀ address, a = some address →
      let o : Owner := ⟨k.name, address⟩
      let t := (run es Tables.empty).2
      let t' := (run (ownCalls k a es) Tables.empty).2
      t.nonces.filter (·.owner = o) = t'.nonces.filter (·.owner = o) ∧
      (t.findWallet? o).map WalletRow.unnumbered = (t'.findWallet? o).map WalletRow.unnumbered ∧
      ((t.findWallet? o).bind fun w => t.findUser? w.userId) = (t'.findWallet? o).bind fun w => t'.findUser? w.userId := by
  obtain ⟨hanswers, hview⟩ := own_run h k a
  refine ⟨hanswers, fun address ha => ?_⟩
  intro o t t'
  have hs : Tables.SameFor o t t' := by
    show Tables.SameFor o (run es Tables.empty).2 (run (ownCalls k a es) Tables.empty).2
    rw [run_tables, run_tables]
    exact hview address ha
  refine ⟨hs.nonces, hs.wallet, ?_⟩
  cases hw : t.findWallet? o with
  | none => rw [hs.no_wallet hw, Option.bind_none, Option.bind_none]
  | some w =>
    obtain ⟨w', hw', he⟩ := hs.wallets hw
    rw [hw', Option.bind_some, Option.bind_some, Tables.userId_of_unnumbered he]
    exact hs.user w hw

namespace Neighbours

open FirstLogin (config address)
open LaterLogins (other otherAddress conditions)

/-- A wallet asks and answers, while another one asks and then presents what the first has
signed as its own. -/
def asks : Event := ⟨config, conditions 0 "abc123" "a", .issue (some "solana") (some address) none⟩

def otherAsks : Event := ⟨config, conditions 0 "def456" "b", .issue other.walletType other.address none⟩

def otherTries : Event := ⟨config, conditions 1 "c" "c", .login { FirstLogin.request with address := other.address } none⟩

def answers : Event := ⟨config, conditions 1 "d" "d", .login FirstLogin.request none⟩

def calls : List Event := [asks, otherAsks, otherTries, answers]

theorem apart : Apart calls where
  quiet e he := by
    have hfaults : e.conditions.faults = {} := by
      simp only [calls, List.mem_cons, List.not_mem_nil, or_false] at he
      rcases he with rfl | rfl | rfl | rfl <;> rfl
    rw [hfaults]
    exact Faults.quiet_default
  nonces := by decide
  userIds := by decide

theorem ownCalls_eq : ownCalls .solana (some address) calls = [asks, answers] := by
  have hasks : asks.call.wallet? = some (.solana, some address) := congrArg Except.toOption FirstLogin.presents.named
  have hanswers : answers.call.wallet? = some (.solana, some address) :=
    congrArg Except.toOption FirstLogin.presents.named
  have hother : otherAsks.call.wallet? = some (.solana, some otherAddress) :=
    congrArg Except.toOption LaterLogins.presents_other.named
  have htries : otherTries.call.wallet? = some (.solana, some otherAddress) :=
    congrArg Except.toOption LaterLogins.presents_other.named
  have hne : otherAddress ≠ address := by decide
  simp [ownCalls, calls, hasks, hother, htries, hanswers, hne]

/-- The wallet is answered as if there were no other. -/
theorem a_neighbour_changes_no_answer : ownAnswers .solana (some address) calls =
    (run [asks, answers] Tables.empty).1.map (·.map Answer.unnumbered) := by
  have h := (wallets_do_not_interfere apart .solana (some address)).1
  rwa [ownCalls_eq] at h

end Neighbours

end WalletLogin.Login
