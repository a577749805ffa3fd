/-
  WalletLogin.Proofs.Login.Unsettled — what is left where an account could not be settled.

  Up to its commit a settlement that fails is rolled back. Behind it only the rows are
  read again; they are there, so that fails only where it is planned to (`reread_held`),
  and then the account stays settled though the call has failed.

  Proved:
  - `failed_upserts_leave_nothing_new`: a settlement that fails leaves the tables as they
    were, or a reading behind a commit was planned to fail and the account is settled.
  - `a_failed_reading_leaves_the_account`: the second case, on empty tables.
-/

import WalletLogin.Proofs.Ledger.Plan
import WalletLogin.Proofs.Login.Settling

namespace WalletLogin.Login.Users

open Ledger Procedure

/-! ## The plan along a settlement -/

theorem spends_reread (walletId : Nat) (userId : String) : Spends (reread walletId userId) :=
  (Store.spends_reload _).bind fun _ => (Store.spends_reload _).bind fun _ => spends_pure _

theorem spends_touch (w : WalletRow) (key : Option String) (now : Int) : Spends (touch w key now) :=
  (Store.spends_loadUser w).bind fun _ => (Store.spends_commitWith _).bind fun _ => spends_reread _ _

theorem spends_make (o : Option Owner) (key : Option String) (role userId : String) (now : Int) :
    Spends (make o key role userId now) :=
  (Store.spends_add _).bind fun _ => Store.spends_flush.bind fun _ => spends_get fun _ =>
    (Store.spends_commitWith _).bind fun _ => spends_reread _ _

theorem spends_findOrMake (o : Option Owner) (key : Option String) (role userId : String) (now : Int) :
    Spends (findOrMake o key role userId now) :=
  (Store.spends_findWallet o).bind fun w => by
    cases w with
    | some w => exact spends_touch w key now
    | none => exact spends_make o key role userId now

/-! ## Failures -/

section Ends

variable {q : Prop} {t : Tables} {s : Session}

/-- The rows of an account are read again, unless that is planned to fail. -/
theorem reread_held (h : s.At q t t) (ha : t.Accounts) (hm : s.faults.missing = false) (hr : s.faults.Rereads)
    {o : Owner} {w : WalletRow} (hw : t.findWallet? o = some w) :
    Ends (reread w.id w.userId) s (fun _ _ => True) (fun _ _ => False) := by
  obtain ⟨hwallet, u, huser⟩ := ha.rows_of_findWallet? hw
  simp only [reread, ends_bind, ends_pure]
  refine (Store.reload_there h hm hr hwallet).mono (fun _ s₁ h₁ => ?_) (fun _ _ hf => hf)
  exact (Store.reload_there h₁.1 h₁.2.1 h₁.2.2 huser).mono (fun _ _ _ => trivial) (fun _ _ hf => hf)

/-- A login of a known wallet that fails stores nothing. -/
theorem touch_fails_ends (h : s.At q t t) (ha : t.Accounts) (hr : s.faults.Rereads) {o : Owner} {w : WalletRow}
    (hw : t.findWallet? o = some w) (key : Option String) (now : Int) :
    Ends (touch w key now) s (fun _ _ => True) (fun _ s' => s'.stored = t) := by
  have hw' : (t.touch w key now).findWallet? o = some (w.seen w.id key now) := by
    rw [Tables.findWallet?_touch, hw, Option.map_some]
  simp only [touch, ends_bind]
  refine (((Store.loadUser_ends h w).and (Store.spends_loadUser w s)).and (Store.loadUser_there w s)).mono
    (fun _ s₁ h₁ => ?_) (fun _ _ hb => hb.1.1.1.stored)
  obtain ⟨⟨⟨h₁, -⟩, hleft₁⟩, hm⟩ := h₁
  refine ((Store.commitWith_ends h₁ _).and (Store.spends_commitWith _ s₁)).mono
    (fun _ s₂ h₂ => ?_) (fun _ _ hb => hb.1.1.stored)
  obtain ⟨⟨d, hd, h₂⟩, hleft₂⟩ := h₂
  obtain ⟨-, hd⟩ := Store.fitting_eq_ok_iff.mp hd
  cases hd
  have hleft := hleft₁.trans hleft₂
  have hread := reread_held h₂ (ha.touch (Tables.mem_of_findWallet? hw).1 key now) (hleft.missing.trans hm)
    (hleft.rereads hr) hw'
  rw [WalletRow.seen_id, WalletRow.seen_userId] at hread
  exact hread.mono (fun _ _ _ => trivial) (fun _ _ hf => hf.elim)

/-- A first login that fails stores nothing. -/
theorem make_fails_ends (h : s.At q t t) (ha : t.Accounts) (hr : s.faults.Rereads) (o : Option Owner) (key : Option String)
    (role userId : String) (now : Int) :
    Ends (make o key role userId now) s (fun _ _ => True) (fun _ s' => s'.stored = t) := by
  simp only [make, ends_bind, ends_get]
  refine ((Store.add_ends h _ fun _ _ => False).and (Store.spends_add _ s)).mono (fun _ s₀ h₀ => ?_)
    (fun _ _ hb => hb.1.elim)
  obtain ⟨h₀, hleft₀⟩ := h₀
  refine (((flushUser_ends h₀).and (Store.spends_flush s₀)).and (Store.flush_there h₀)).mono (fun _ s₁ h₁ => ?_)
    (fun _ _ hb => hb.1.1.1.stored)
  obtain ⟨⟨⟨hu, h₁⟩, hleft₁⟩, hm⟩ := h₁
  rw [h₁.draft]
  refine ((Store.commitWith_ends h₁ _).and (Store.spends_commitWith _ s₁)).mono (fun _ s₂ h₂ => ?_)
    (fun _ _ hb => hb.1.1.stored)
  obtain ⟨⟨d, hd, h₂⟩, hleft₂⟩ := h₂
  obtain ⟨o', rfl, hs, hf⟩ := settles_of_insertWallet hu hd
  have hleft := hleft₁.trans hleft₂
  exact (reread_held h₂ (hs.accounts ha) (hleft.missing.trans hm) (hleft.rereads (hleft₀.rereads hr)) hf).mono
    (fun _ _ _ => trivial) (fun _ _ hfalse => hfalse.elim)

/-- The first start stores nothing where it fails. -/
theorem findOrMake_fails_ends (h : s.At q t t) (ha : t.Accounts) (hr : s.faults.Rereads) (o : Option Owner)
    (key : Option String) (role userId : String) (now : Int) :
    Ends (findOrMake o key role userId now) s (fun _ _ => True) (fun _ s' => s'.stored = t) := by
  simp only [findOrMake, ends_bind]
  refine ((Store.findWallet_ends h o).and (Store.spends_findWallet o s)).mono (fun w s₁ h₁ => ?_)
    (fun _ _ hb => hb.1.1.stored)
  obtain ⟨⟨h₁, hw⟩, hleft⟩ := h₁
  cases w with
  | some w =>
    obtain ⟨o', rfl, hw⟩ := hw
    exact touch_fails_ends h₁ ha (hleft.rereads hr) hw key now
  | none => exact make_fails_ends h₁ ha (hleft.rereads hr) o key role userId now

/-- So does the second start. -/
theorem findAgain_fails_ends (h : s.At q t t) (ha : t.Accounts) (hr : s.faults.Rereads) (o : Option Owner)
    (key : Option String) (now : Int) :
    Ends (findAgain o key now) s (fun a s' => a = none → s'.stored = t) (fun _ s' => s'.stored = t) := by
  simp only [findAgain, ends_bind]
  refine ((Store.findWallet_ends h o).and (Store.spends_findWallet o s)).mono (fun w s₁ h₁ => ?_)
    (fun _ _ hb => hb.1.1.stored)
  obtain ⟨⟨h₁, hw⟩, hleft⟩ := h₁
  cases w with
  | some w =>
    obtain ⟨o', rfl, hw⟩ := hw
    rw [ends_map]
    exact (touch_fails_ends h₁ ha (hleft.rereads hr) hw key now).mono (fun _ _ _ hnone => by cases hnone) (fun _ _ hb => hb)
  | none => exact (ends_pure _).mpr fun _ => h₁.stored

/-- A settlement that fails, with no reading again planned to fail, stores nothing. -/
theorem upsert_fails_ends (h : s.At q t t) (ha : t.Accounts) (hr : s.faults.Rereads) (subject : Subject)
    (publicKey role : Option String) (userId : String) (now : Int) :
    Ends (upsert subject publicKey role userId now) s (fun _ _ => True) (fun _ s' => s'.stored = t) := by
  simp only [upsert, ends_attempt]
  refine ((findOrMake_fails_ends h ha hr subject.owner? (trimKey publicKey) (role.getD defaultRole) userId now).and
    (spends_findOrMake _ _ _ _ _ s)).mono (fun _ _ _ => trivial) (fun b s₁ h₁ => ?_)
  obtain ⟨hstored, hleft⟩ := h₁
  split
  · simp only [ends_bind, ends_rollback, ends_guarded]
    have hat : s₁.rollback.At False t t := ⟨⟨hstored, False.elim⟩, hstored, rfl⟩
    refine (findAgain_fails_ends hat ha (hleft.rereads hr) subject.owner? (trimKey publicKey) now).mono (fun a s₂ h₂ => ?_)
      (fun _ _ hb => hb)
    cases a with
    | some a => exact (ends_pure _).mpr trivial
    | none => exact (ends_refuse _).mpr (h₂ rfl)
  · exact (ends_surface b).mpr hstored

end Ends

/-- A settlement that fails leaves the tables as they were. Or it failed behind its commit,
where a reading was planned to fail; then the account is settled as by a success. -/
theorem failed_upserts_leave_nothing_new {t : Tables} (ha : t.Accounts) (faults : Faults) (subject : Subject)
    (publicKey role : Option String) (userId : String) (now : Int) {f : Failure}
    (h : (perform (upsert subject publicKey role userId now) faults t).answer = .error f) :
    (perform (upsert subject publicKey role userId now) faults t).tables = t ∨
    (∃ x ∈ faults.plan .reload, x ≠ none) ∧ ∃ o, subject.owner? = some o ∧
      Tables.Settles o (trimKey publicKey) (role.getD defaultRole) userId now t
        (perform (upsert subject publicKey role userId now) faults t).tables := by
  have hat := Session.at_opened t faults
  by_cases hr : faults.Rereads
  · obtain ⟨s, ht, hs⟩ := perform_fails (upsert_fails_ends hat ha hr subject publicKey role userId now) h
    exact Or.inl (ht.trans hs)
  · obtain ⟨s, ht, -, t', hsettled, hs⟩ := perform_fails (upsert_ends hat subject publicKey role userId now) h
    rw [ht, hs.stored]
    refine hsettled.imp id fun hnew => ⟨?_, hnew⟩
    simpa [Faults.Rereads] using hr

namespace FailedReading

/-- The first reading behind a commit fails. -/
def faults : Faults := { plan := fun p => if p = .reload then [some .operational] else [] }

def login : Procedure Account := upsert ⟨some "evm", some "0x0"⟩ none none "user" 5

/-- A first login whose rows are stored, though it is answered as a failure of the storage. -/
theorem a_failed_reading_leaves_the_account : (perform login faults Tables.empty).answer = .error (.refused .storage) ∧
    (perform login faults Tables.empty).tables =
      Tables.empty.withAccount ⟨"user", defaultRole, 5, 5⟩ ⟨1, "user", ⟨"evm", "0x0"⟩, none, 5, 5⟩ :=
  ⟨rfl, rfl⟩

end FailedReading

end WalletLogin.Login.Users
