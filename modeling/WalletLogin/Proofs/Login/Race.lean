/-
  WalletLogin.Proofs.Login.Race — first logins that run among each other.

  Any number of settlements share the tables. Each works in a session of its own, and what
  runs without interruption is one of its parts (`Phase`): the look-up, the enrolment of a
  new user and wallet with its commit, the renewal of known rows with its commit, and the
  reading of the rows again. An enrolment that finds the wallet made meanwhile is rolled
  back, and the settlement looks again. A schedule says whose part runs next.

  A part relies on what an earlier part has seen (`Ready`). Other settlements leave that as
  it is: rows are never lost, and drawn user ids differ. A renewal writes its key and its
  second over the stored row, whatever the row in hand said; nothing here is about the
  keys and seconds that a race leaves.

  Proved:
  - `advance_spec`, `sound_race`: what one part does, and what holds under every schedule.
  - `races_converge`: no settlement fails whose clock fits; those of one owner return one
    user; the owner has one wallet row and one user row, and a lost enrolment has none.
  - `alone_as_upsert`, `late_as_upsert`: run alone, and run behind a look-up that missed the
    wallet, the parts do what `upsert` does.
-/

import Mathlib.Logic.Function.Basic
import WalletLogin.Proofs.Login.Health

namespace WalletLogin.Login.Users

open Ledger Procedure

/-! ## Settlements and schedules -/

/-- A settlement among others: its arguments, the user id that is drawn for it, and the
second at which it runs. -/
structure Attempt where
  owner : Owner
  publicKey : Option String
  role : Option String
  userId : String
  now : Int
  deriving DecidableEq, Repr

/-- What a settlement does next; `again` once an enrolment of its own has failed. -/
inductive Phase where
  | looking (again : Bool)
  | enrolling
  | renewing (again : Bool) (w : WalletRow)
  | reading (again : Bool) (walletId : Nat) (userId : String)
  | done (answer : Except Failure Account)

/-- Runs one part on the shared tables; a draft that was not committed is lost. -/
def runPart {α : Type} (work : Store α) (t : Tables) (next : α → Phase) (broke : Breakdown → Phase) : Phase × Tables :=
  match work (Session.opened t {}) with
  | (.ok a, s) => (next a, s.stored)
  | (.error b, s) => (broke b, s.stored)

namespace Attempt

def subject (c : Attempt) : Subject := ⟨some c.owner.walletType, some c.owner.address⟩

def key (c : Attempt) : Option String := trimKey c.publicKey

/-- What follows a part that broke down. -/
def broke (again : Bool) (b : Breakdown) : Phase :=
  if again = false ∧ b = .fault .integrity then .looking true else .done (.error (surfaced b))

def look (c : Attempt) (again : Bool) : Option WalletRow → Phase
  | some w => .renewing again w
  | none => if again then .done (.error (.refused (.unresolved c.subject.walletType c.subject.address))) else .enrolling

/-- The next part of a settlement, on the tables as they are. -/
def advance (c : Attempt) (t : Tables) : Phase → Phase × Tables
  | .looking again => runPart (Store.findWallet (some c.owner)) t (c.look again) (broke again)
  | .enrolling =>
    runPart (enroll (some c.owner) c.key (c.role.getD defaultRole) c.userId c.now) t (fun id => .reading false id c.userId)
      (broke false)
  | .renewing again w => runPart (refresh w c.key c.now) t (fun _ => .reading again w.id w.userId) (broke again)
  | .reading again walletId userId => runPart (reread walletId userId) t (fun a => .done (.ok a)) (broke again)
  | .done answer => (.done answer, t)

end Attempt

structure Race (ι : Type) where
  phase : ι → Phase
  tables : Tables

variable {ι : Type}

def Race.step [DecidableEq ι] (calls : ι → Attempt) (r : Race ι) (i : ι) : Race ι :=
  let (p, t) := (calls i).advance r.tables (r.phase i)
  ⟨Function.update r.phase i p, t⟩

/-- The settlements under a schedule, from tables on which none has run yet. -/
def race [DecidableEq ι] (calls : ι → Attempt) (t : Tables) (schedule : List ι) : Race ι :=
  schedule.foldl (Race.step calls) ⟨fun _ => .looking false, t⟩

/-! ## One part -/

section RunPart

variable {α : Type} {work : Store α} {t t' : Tables}

theorem runPart_ok {a : α} (h : Yields work t (.ok a) t') (next : α → Phase) (broke : Breakdown → Phase) :
    runPart work t next broke = (next a, t') := by
  have hs := h _ (Session.at_opened_quiet t Faults.quiet_default)
  unfold runPart
  rcases hw : work (Session.opened t {}) with ⟨b | a', s⟩
  · cases (hs.of_error hw).1
  · obtain ⟨heq, hat⟩ := hs.of_ok hw
    cases heq
    simp only [hat.stored]

theorem runPart_error {b : Breakdown} (h : Yields work t (.error b) t') (next : α → Phase) (broke : Breakdown → Phase) :
    runPart work t next broke = (broke b, t') := by
  have hs := h _ (Session.at_opened_quiet t Faults.quiet_default)
  unfold runPart
  rcases hw : work (Session.opened t {}) with ⟨b' | a, s⟩
  · obtain ⟨heq, hover⟩ := hs.of_error hw
    cases heq
    simp only [hover.stored]
  · cases (hs.of_ok hw).1

end RunPart

section Advance

variable (c : Attempt) {t : Tables} {w : WalletRow} {u : UserRow}

theorem advance_looking (t : Tables) (again : Bool) :
    c.advance t (.looking again) = (c.look again (t.findWallet? c.owner), t) :=
  runPart_ok (Store.yields_findWallet (some c.owner) t) (c.look again) (Attempt.broke again)

theorem advance_enrolling (hf : fits c.now = true) (hu : t.findUser? c.userId = none) (hw : t.findWallet? c.owner = none) :
    c.advance t .enrolling = (.reading false t.nextWalletId c.userId,
      t.withAccount ⟨c.userId, c.role.getD defaultRole, c.now, c.now⟩
        ⟨t.nextWalletId, c.userId, c.owner, c.key, c.now, c.now⟩) :=
  runPart_ok (yields_enroll hf hu hw) _ _

theorem advance_enrolling_taken (hf : fits c.now = true) (hu : t.findUser? c.userId = none)
    (hw : t.findWallet? c.owner = some w) : c.advance t .enrolling = (.looking true, t) :=
  runPart_error (yields_enroll_taken hf hu hw) _ _

theorem advance_enrolling_wide (hf : fits c.now = false) :
    c.advance t .enrolling = (.done (.error .numberTooWide), t) :=
  runPart_error (yields_enroll_wide hf _) _ _

theorem advance_renewing (hu : t.findUser? w.userId = some u) (hf : fits c.now = true) (again : Bool) :
    c.advance t (.renewing again w) = (.reading again w.id w.userId, t.touch w c.key c.now) :=
  runPart_ok (yields_refresh hu hf) _ _

theorem advance_renewing_wide (hu : t.findUser? w.userId = some u) (hf : fits c.now = false) (again : Bool) :
    c.advance t (.renewing again w) = (.done (.error .numberTooWide), t) := by
  have hb : Attempt.broke again .tooWide = .done (.error .numberTooWide) := if_neg (by simp)
  rw [← hb]
  exact runPart_error (yields_refresh_wide hu hf) _ _

theorem advance_reading {id : Nat} {userId : String} (hw : t.walletById? id = some w) (hu : t.findUser? userId = some u)
    (again : Bool) : c.advance t (.reading again id userId) = (.done (.ok ⟨u, w⟩), t) :=
  runPart_ok (yields_reread hw hu) _ _

end Advance

/-! ## What a part relies on -/

/-- The owner has a wallet row under this id, and it names this user. -/
def Stored (t : Tables) (o : Owner) (id : Nat) (userId : String) : Prop :=
  ∃ w, t.findWallet? o = some w ∧ w.id = id ∧ w.userId = userId

/-- What is known of the tables when the next part starts. -/
def Attempt.Ready (c : Attempt) (t : Tables) : Phase → Prop
  | .looking false => t.findUser? c.userId = none
  | .looking true => fits c.now = true ∧ ∃ id userId, Stored t c.owner id userId
  | .enrolling => t.findUser? c.userId = none
  | .renewing _ w => Stored t c.owner w.id w.userId
  | .reading _ id userId => fits c.now = true ∧ Stored t c.owner id userId
  | .done (.ok a) => fits c.now = true ∧ Stored t c.owner a.wallet.id a.user.id ∧ a.wallet.owner = c.owner ∧
      a.wallet.userId = a.user.id
  | .done (.error f) => fits c.now = false ∧ f = .numberTooWide

/-- The number of parts that a settlement has before it, at most. -/
def Phase.rank : Phase → Nat
  | .looking false => 5
  | .enrolling => 4
  | .looking true => 3
  | .renewing .. => 2
  | .reading .. => 1
  | .done _ => 0

section Stored

variable {t t' : Tables} {o : Owner} {id : Nat} {userId : String}

theorem stored_of_findWallet? {w : WalletRow} (hw : t.findWallet? o = some w) : Stored t o w.id w.userId := ⟨w, hw, rfl, rfl⟩

theorem Stored.retained (h : Stored t o id userId) (ha : t'.Accounts) (hr : Tables.Retains t t') :
    Stored t' o id userId := by
  obtain ⟨w, hw, rfl, rfl⟩ := h
  obtain ⟨hm, rfl⟩ := Tables.mem_of_findWallet? hw
  obtain ⟨w', hw', hl⟩ := hr.wallets w hm
  exact ⟨w', ha.findWallet?_iff.mpr ⟨hw', hl.owner⟩, hl.id, hl.userId⟩

theorem Stored.rows (h : Stored t o id userId) (ha : t.Accounts) :
    ∃ w u, t.findWallet? o = some w ∧ w.id = id ∧ w.userId = userId ∧ t.walletById? id = some w ∧
      t.findUser? userId = some u := by
  obtain ⟨w, hw, rfl, rfl⟩ := h
  obtain ⟨hid, u, hu⟩ := ha.rows_of_findWallet? hw
  exact ⟨w, u, hw, rfl, rfl, hid, hu⟩

end Stored

/-- What a part of the settlement `c` does to tables. -/
structure Attempt.Changes (c : Attempt) (t t' : Tables) : Prop where
  accounts : t'.Accounts
  retains : Tables.Retains t t'
  /-- The one id that it may take is its own, for a user with the owner's wallet. -/
  users : ∀ id, t.findUser? id = none → t'.findUser? id ≠ none → id = c.userId ∧ ∃ n, Stored t' c.owner n c.userId

section Advance

variable {c : Attempt} {t t' : Tables}

theorem changes_nothing (c : Attempt) (ha : t.Accounts) : c.Changes t t where
  accounts := ha
  retains := .refl t
  users _ hn hs := absurd hn hs

theorem changes_of_settles (ha : t.Accounts)
    (hs : Tables.Settles c.owner c.key (c.role.getD defaultRole) c.userId c.now t t') : c.Changes t t' where
  accounts := hs.accounts ha
  retains := hs.retains
  users id hn hthere := by
    cases hs with
    | known w hw =>
      refine absurd (Tables.findUser?_eq_none_iff.mpr fun u' hu' => ?_) hthere
      obtain ⟨u, hu, rfl⟩ := Tables.mem_touch_users.mp hu'
      rw [UserRow.seen_id]
      exact Tables.findUser?_eq_none_iff.mp hn u hu
    | first hw hu =>
      refine ⟨?_, _, stored_of_findWallet? (Tables.findWallet?_withAccount hw _)⟩
      by_contra hne
      refine hthere (Tables.findUser?_eq_none_iff.mpr fun u' hu' => ?_)
      rcases Tables.mem_withAccount_users.mp hu' with hu' | rfl
      · exact Tables.findUser?_eq_none_iff.mp hn u' hu'
      · exact Ne.symm hne

/-- A part of a settlement changes what settling changes, leaves ready what follows it, and
is one part fewer. -/
theorem advance_spec (ha : t.Accounts) {p : Phase} (hr : c.Ready t p) :
    c.Changes t (c.advance t p).2 ∧ c.Ready (c.advance t p).2 (c.advance t p).1 ∧
      (c.advance t p).1.rank ≤ p.rank - 1 := by
  cases p with
  | looking again =>
    rw [advance_looking]
    refine ⟨changes_nothing c ha, ?_⟩
    cases hw : t.findWallet? c.owner with
    | some w =>
      refine ⟨stored_of_findWallet? hw, ?_⟩
      cases again <;> simp [Attempt.look, Phase.rank]
    | none =>
      cases again with
      | false => exact ⟨hr, by simp [Attempt.look, Phase.rank]⟩
      | true =>
        -- an enrolment of its own has met the wallet
        obtain ⟨-, id, userId, w, hw', -⟩ := hr
        cases hw.symm.trans hw'
  | enrolling =>
    cases hf : fits c.now with
    | false =>
      rw [advance_enrolling_wide c hf]
      exact ⟨changes_nothing c ha, ⟨hf, rfl⟩, by simp [Phase.rank]⟩
    | true =>
      cases hw : t.findWallet? c.owner with
      | some w =>
        rw [advance_enrolling_taken c hf hr hw]
        exact ⟨changes_nothing c ha, ⟨hf, _, _, stored_of_findWallet? hw⟩, by simp [Phase.rank]⟩
      | none =>
        rw [advance_enrolling c hf hr hw]
        exact ⟨changes_of_settles ha (.first hw hr), ⟨hf, stored_of_findWallet? (Tables.findWallet?_withAccount hw _)⟩,
          by simp [Phase.rank]⟩
  | renewing again w =>
    obtain ⟨w₀, u, hw, hid, huser, -, hu⟩ := Stored.rows hr ha
    cases hf : fits c.now with
    | false =>
      rw [advance_renewing_wide c hu hf]
      exact ⟨changes_nothing c ha, ⟨hf, rfl⟩, by simp [Phase.rank]⟩
    | true =>
      rw [advance_renewing c hu hf]
      -- the row in hand may be older than the one stored, and names the same rows
      have htouch : t.touch w c.key c.now = t.touch w₀ c.key c.now := by
        unfold Tables.touch
        rw [hid, huser]
      have hs : c.Changes t (t.touch w c.key c.now) := by
        rw [htouch]
        exact changes_of_settles ha (.known w₀ hw)
      exact ⟨hs, ⟨hf, Stored.retained hr hs.accounts hs.retains⟩, by simp [Phase.rank]⟩
  | reading again id userId =>
    obtain ⟨hf, hstored⟩ := hr
    obtain ⟨w, u, hw, rfl, rfl, hid, hu⟩ := hstored.rows ha
    rw [advance_reading c hid hu]
    obtain ⟨-, hown⟩ := Tables.mem_of_findWallet? hw
    obtain ⟨-, hname⟩ := ha.findUser?_iff.mp hu
    refine ⟨changes_nothing c ha, ⟨hf, ?_, hown, hname.symm⟩, by simp [Phase.rank]⟩
    show Stored t c.owner w.id u.id
    rw [hname]
    exact stored_of_findWallet? hw
  | done answer => exact ⟨changes_nothing c ha, hr, Nat.le_refl 0⟩

/-- What other settlements do leaves a settlement ready. -/
theorem Attempt.Ready.changed {p : Phase} (hr : c.Ready t p) {d : Attempt} (hd : d.Changes t t')
    (hne : c.userId ≠ d.userId) : c.Ready t' p := by
  have hfree : t.findUser? c.userId = none → t'.findUser? c.userId = none := fun hn => by
    by_contra hthere
    exact hne (hd.users _ hn hthere).1
  have hstored : ∀ {id userId}, Stored t c.owner id userId → Stored t' c.owner id userId := fun h =>
    h.retained hd.accounts hd.retains
  cases p with
  | looking again =>
    cases again with
    | false => exact hfree hr
    | true => exact ⟨hr.1, hr.2.imp fun _ h => h.imp fun _ h => hstored h⟩
  | enrolling => exact hfree hr
  | renewing again w => exact hstored hr
  | reading again id userId => exact ⟨hr.1, hstored hr.2⟩
  | done answer =>
    cases answer with
    | ok a => exact ⟨hr.1, hstored hr.2.1, hr.2.2⟩
    | error f => exact hr

end Advance

/-! ## Under every schedule -/

/-- What holds of a race at every moment. -/
structure Race.Sound (calls : ι → Attempt) (t₀ : Tables) (r : Race ι) : Prop where
  accounts : r.tables.Accounts
  retains : Tables.Retains t₀ r.tables
  ready : ∀ i, (calls i).Ready r.tables (r.phase i)
  /-- An id that was drawn for a settlement is that of its owner's user, or of none. -/
  own : ∀ i, r.tables.findUser? (calls i).userId ≠ none →
    ∃ n, Stored r.tables (calls i).owner n (calls i).userId

section Sound

variable {calls : ι → Attempt} {t₀ : Tables} {r : Race ι}

theorem sound_start (ha : t₀.Accounts) (hu : ∀ i, t₀.findUser? (calls i).userId = none) :
    Race.Sound calls t₀ ⟨fun _ => .looking false, t₀⟩ where
  accounts := ha
  retains := .refl t₀
  ready := hu
  own i hthere := absurd (hu i) hthere

variable [DecidableEq ι]

theorem race_snoc (calls : ι → Attempt) (t : Tables) (schedule : List ι) (i : ι) :
    race calls t (schedule ++ [i]) = (race calls t schedule).step calls i := by
  simp [race]

theorem step_tables (calls : ι → Attempt) (r : Race ι) (i : ι) :
    (r.step calls i).tables = ((calls i).advance r.tables (r.phase i)).2 := rfl

theorem step_phase_self (calls : ι → Attempt) (r : Race ι) (i : ι) :
    (r.step calls i).phase i = ((calls i).advance r.tables (r.phase i)).1 := Function.update_self ..

theorem step_phase_of_ne (calls : ι → Attempt) (r : Race ι) {i j : ι} (h : j ≠ i) :
    (r.step calls i).phase j = r.phase j := Function.update_of_ne h ..

variable (hd : Function.Injective fun i => (calls i).userId)
include hd

theorem Race.Sound.step (h : r.Sound calls t₀) (i : ι) : (r.step calls i).Sound calls t₀ := by
  obtain ⟨hchanges, hready, -⟩ := advance_spec h.accounts (h.ready i)
  rw [← step_tables] at hchanges hready
  refine ⟨hchanges.accounts, h.retains.trans hchanges.retains, fun j => ?_, fun j hthere => ?_⟩
  · by_cases hj : j = i
    · subst hj
      rw [step_phase_self]
      exact hready
    · rw [step_phase_of_ne calls r hj]
      exact (h.ready j).changed hchanges fun he => hj (hd he)
  · by_cases hbefore : r.tables.findUser? (calls j).userId = none
    · -- the part has taken the id, so it is one of its own settlement
      obtain ⟨he, hstored⟩ := hchanges.users _ hbefore hthere
      obtain rfl : j = i := hd he
      exact hstored
    · exact (h.own j hbefore).imp fun _ hs => hs.retained hchanges.accounts hchanges.retains

theorem sound_race (ha : t₀.Accounts) (hu : ∀ i, t₀.findUser? (calls i).userId = none) (schedule : List ι) :
    (race calls t₀ schedule).Sound calls t₀ := by
  induction schedule using List.reverseRecOn with
  | nil => exact sound_start ha hu
  | append_singleton schedule i ih =>
    rw [race_snoc]
    exact ih.step hd i

/-- Every part that a settlement runs brings it nearer to its end, and others do not hold
it up. -/
theorem rank_race (ha : t₀.Accounts) (hu : ∀ i, t₀.findUser? (calls i).userId = none) (schedule : List ι) (i : ι) :
    ((race calls t₀ schedule).phase i).rank ≤ 5 - schedule.count i := by
  induction schedule using List.reverseRecOn with
  | nil => exact Nat.le_refl 5
  | append_singleton schedule j ih =>
    have hs := sound_race hd ha hu schedule
    rw [race_snoc, List.count_append]
    by_cases hj : i = j
    · subst hj
      obtain ⟨-, -, hrank⟩ := advance_spec hs.accounts (hs.ready i)
      rw [step_phase_self, List.count_singleton_self]
      omega
    · rw [step_phase_of_ne calls _ hj, List.count_singleton, if_neg (by simpa using Ne.symm hj)]
      exact ih

end Sound

theorem done_of_rank {p : Phase} (h : p.rank = 0) : ∃ x, p = .done x := by
  cases p with
  | looking again => cases again <;> cases h
  | enrolling => cases h
  | renewing again w => cases h
  | reading again id userId => cases h
  | done x => exact ⟨x, rfl⟩

/-! ## What the settlements return -/

section Returns

variable {calls : ι → Attempt} {t₀ : Tables} {r : Race ι} (h : r.Sound calls t₀) {i j : ι} {a b : Account}
include h

theorem Race.Sound.returns {x : Except Failure Account} (hx : r.phase i = .done x) :
    (calls i).Ready r.tables (.done x) := hx ▸ h.ready i

/-- The owner of a settlement that returned has one wallet row and one user row, and they
are the rows that it returned. -/
theorem Race.Sound.rows (hx : r.phase i = .done (.ok a)) :
    a.wallet.owner = (calls i).owner ∧ a.wallet.userId = a.user.id ∧
      (∃ w, r.tables.wallets.filter (·.owner = (calls i).owner) = [w] ∧ w.id = a.wallet.id ∧ w.userId = a.user.id) ∧
      ∃ u, r.tables.users.filter (·.id = a.user.id) = [u] := by
  obtain ⟨-, hstored, hown, huser⟩ := h.returns hx
  obtain ⟨w, u, hw, hid, hwu, -, hu⟩ := hstored.rows h.accounts
  obtain ⟨hwm, hwo⟩ := Tables.mem_of_findWallet? hw
  obtain ⟨hum, hui⟩ := h.accounts.findUser?_iff.mp hu
  refine ⟨hown, huser, ⟨w, ?_, hid, hwu⟩, ⟨u, ?_⟩⟩
  · rw [← hwo]
    exact filter_eq_singleton WalletRow.owner h.accounts.owners hwm
  · rw [← hui]
    exact filter_eq_singleton UserRow.id h.accounts.userIds hum

/-- A settlement that returned another's user has left none of its own. -/
theorem Race.Sound.no_user_left (hx : r.phase i = .done (.ok a)) (hne : a.user.id ≠ (calls i).userId) :
    r.tables.findUser? (calls i).userId = none := by
  obtain ⟨-, ⟨w, hw, -, hwu⟩, -⟩ := h.returns hx
  by_contra hthere
  obtain ⟨n, w', hw', -, hname⟩ := h.own i hthere
  cases hw.symm.trans hw'
  exact hne (hwu.symm.trans hname)

theorem Race.Sound.same_user_iff (hx : r.phase i = .done (.ok a)) (hy : r.phase j = .done (.ok b)) :
    a.user.id = b.user.id ↔ (calls i).owner = (calls j).owner := by
  obtain ⟨-, ⟨v, hv, -, hvu⟩, -⟩ := h.returns hx
  obtain ⟨-, ⟨w, hw, -, hwu⟩, -⟩ := h.returns hy
  obtain ⟨hvm, hvo⟩ := Tables.mem_of_findWallet? hv
  obtain ⟨hwm, hwo⟩ := Tables.mem_of_findWallet? hw
  constructor
  · intro he
    have hvw : v = w := List.inj_on_of_nodup_map h.accounts.holders hvm hwm (by rw [hvu, hwu, he])
    rw [← hvo, ← hwo, hvw]
  · intro he
    rw [he, hw] at hv
    rw [← hvu, ← hwu, Option.some.inj hv]

end Returns

/-- Settlements of any owners, each with its own drawn user id, under any schedule, from any
tables whose accounts are in order and in which none of the ids is taken.

A settlement that ran five parts is done. One that is done has no error but a clock that no
column holds; it returned the owner's one wallet row and one user row, and left no user
under the drawn id unless that is the user. Two settlements return one user exactly when
they are of one owner. Every user has one wallet, and no row of before is lost. -/
theorem races_converge [DecidableEq ι] {calls : ι → Attempt} (hd : Function.Injective fun i => (calls i).userId) {t : Tables}
    (ha : t.Accounts) (hu : ∀ i, t.findUser? (calls i).userId = none) (schedule : List ι) :
    let r := race calls t schedule
    (∀ i, 5 ≤ schedule.count i → ∃ x, r.phase i = .done x) ∧
    (∀ i x, r.phase i = .done x → fits (calls i).now = true → ∃ a, x = .ok a) ∧
    (∀ i x, r.phase i = .done x → fits (calls i).now = false → x = .error .numberTooWide) ∧
    (∀ i a, r.phase i = .done (.ok a) → a.wallet.owner = (calls i).owner ∧ a.wallet.userId = a.user.id ∧
      (∃ w, r.tables.wallets.filter (·.owner = (calls i).owner) = [w] ∧ w.id = a.wallet.id ∧ w.userId = a.user.id) ∧
      (∃ u, r.tables.users.filter (·.id = a.user.id) = [u]) ∧
      (a.user.id ≠ (calls i).userId → r.tables.findUser? (calls i).userId = none)) ∧
    (∀ i j a b, r.phase i = .done (.ok a) → r.phase j = .done (.ok b) →
      (a.user.id = b.user.id ↔ (calls i).owner = (calls j).owner)) ∧
    (∀ u ∈ r.tables.users, ∃ w, r.tables.wallets.filter (·.userId = u.id) = [w]) ∧
    Tables.Retains t r.tables := by
  intro r
  have h : r.Sound calls t := sound_race hd ha hu schedule
  have hrank : ∀ i, (r.phase i).rank ≤ 5 - schedule.count i := rank_race hd ha hu schedule
  clear_value r
  refine ⟨?_, ?_, ?_, ?_, ?_, ?_, h.retains⟩
  · intro i hi
    have hi' := hrank i
    exact done_of_rank (by omega)
  · intro i x hx hf
    cases x with
    | ok a => exact ⟨a, rfl⟩
    | error f =>
      have hf' := (h.returns hx).1
      rw [hf] at hf'
      cases hf'
  · intro i x hx hf
    cases x with
    | ok a =>
      have hf' := (h.returns hx).1
      rw [hf] at hf'
      cases hf'
    | error f => rw [(h.returns hx).2]
  · intro i a hx
    obtain ⟨hown, huser, hwallet, hrow⟩ := h.rows hx
    exact ⟨hown, huser, hwallet, hrow, h.no_user_left hx⟩
  · intro i j a b hx hy
    exact h.same_user_iff hx hy
  · intro u hmem
    obtain ⟨w, hw, hid⟩ := h.accounts.hasWallet u hmem
    refine ⟨w, ?_⟩
    rw [← hid]
    exact filter_eq_singleton WalletRow.userId h.accounts.holders hw

namespace TwoLogins

/-- Two first logins of one wallet, and one of another. -/
def calls : Fin 3 → Attempt
  | 0 => ⟨⟨"evm", "0x0"⟩, none, none, "first", 5⟩
  | 1 => ⟨⟨"evm", "0x0"⟩, none, none, "second", 6⟩
  | 2 => ⟨⟨"evm", "0x1"⟩, none, none, "third", 7⟩

/-- Both look before either enrols. -/
def start : List (Fin 3) := [0, 1, 0, 1]

def schedule : List (Fin 3) := start ++ [2, 1, 0, 2, 1, 2, 1, 2, 2, 0, 0]

theorem userIds_differ : Function.Injective fun i => (calls i).userId := by
  unfold Function.Injective
  decide

/-- The second of two first logins loses its enrolment, and returns the user of the first. -/
theorem the_second_login_returns_the_first_user :
    (race calls Tables.empty start).phase 1 = .looking true ∧
      ∃ a b, (race calls Tables.empty schedule).phase 0 = .done (.ok a) ∧
        (race calls Tables.empty schedule).phase 1 = .done (.ok b) ∧ a.user.id = b.user.id ∧
        (b.user.id ≠ "second" → (race calls Tables.empty schedule).tables.findUser? "second" = none) := by
  obtain ⟨hdone, hok, -, hrows, hsame, -, -⟩ := races_converge userIds_differ Tables.accounts_empty (fun _ => rfl) schedule
  obtain ⟨x, hx⟩ := hdone 0 (by decide)
  obtain ⟨y, hy⟩ := hdone 1 (by decide)
  obtain ⟨a, rfl⟩ := hok 0 x hx (by decide)
  obtain ⟨b, rfl⟩ := hok 1 y hy (by decide)
  obtain ⟨-, -, -, -, hleft⟩ := hrows 1 b hy
  exact ⟨rfl, a, b, hx, hy, (hsame 0 1 a b hx hy).mpr rfl, hleft⟩

end TwoLogins

/-! ## The parts and the whole -/

/-- A settlement that runs `n` parts without interruption. -/
def Attempt.advances (c : Attempt) : Nat → Phase × Tables → Phase × Tables
  | 0, x => x
  | n + 1, x => c.advances n (c.advance x.2 x.1)

theorem advances_done (c : Attempt) (n : Nat) (x : Except Failure Account) (t : Tables) :
    c.advances n (.done x, t) = (.done x, t) := by
  induction n with
  | zero => rfl
  | succ n ih => exact ih

/-- A schedule of one settlement is that settlement without interruption. -/
theorem foldl_replicate [DecidableEq ι] (calls : ι → Attempt) (i : ι) (n : Nat) (r : Race ι) :
    (((List.replicate n i).foldl (Race.step calls) r).phase i, ((List.replicate n i).foldl (Race.step calls) r).tables) =
      (calls i).advances n (r.phase i, r.tables) := by
  induction n generalizing r with
  | zero => rfl
  | succ n ih =>
    rw [List.replicate_succ, List.foldl_cons, ih, step_phase_self, step_tables]
    rfl

section Alone

variable {c : Attempt} {t t' : Tables} {w : WalletRow}

theorem advances_reading (ha : t.Accounts) (hw : t.findWallet? c.owner = some w) (again : Bool) (n : Nat) :
    ∃ a, Holds t c.owner a ∧ c.advances (n + 1) (.reading again w.id w.userId, t) = (.done (.ok a), t) := by
  obtain ⟨a, -, hh, hy⟩ := exists_holds ha hw
  refine ⟨a, hh, ?_⟩
  have hread : c.advance t (.reading again w.id w.userId) = (.done (.ok a), t) := runPart_ok hy _ _
  rw [Attempt.advances, hread, advances_done]

theorem advances_renewing (ha : t.Accounts) (hw : t.findWallet? c.owner = some w) (hf : fits c.now = true) (again : Bool)
    (n : Nat) : ∃ a, Holds (t.touch w c.key c.now) c.owner a ∧
      c.advances (n + 2) (.renewing again w, t) = (.done (.ok a), t.touch w c.key c.now) := by
  obtain ⟨-, u, hu⟩ := ha.rows_of_findWallet? hw
  have hw' : (t.touch w c.key c.now).findWallet? c.owner = some (w.seen w.id c.key c.now) := by
    rw [Tables.findWallet?_touch, hw, Option.map_some]
  obtain ⟨a, hh, hread⟩ := advances_reading (ha.touch (Tables.mem_of_findWallet? hw).1 c.key c.now) hw' again n
  rw [WalletRow.seen_id, WalletRow.seen_userId] at hread
  refine ⟨a, hh, ?_⟩
  rw [Attempt.advances, advance_renewing c hu hf, hread]

/-- Without interruption the parts settle the account. -/
theorem advances_settles (ha : t.Accounts) (hf : fits c.now = true)
    (hs : Tables.Settles c.owner c.key (c.role.getD defaultRole) c.userId c.now t t') :
    ∃ a, Holds t' c.owner a ∧ c.advances 5 (.looking false, t) = (.done (.ok a), t') := by
  have hacc := hs.accounts ha
  cases hs with
  | known w hw =>
    obtain ⟨a, hh, hr⟩ := advances_renewing ha hw hf false 2
    refine ⟨a, hh, ?_⟩
    rw [Attempt.advances, advance_looking, hw, Attempt.look, hr]
  | first hw hu =>
    obtain ⟨a, hh, hr⟩ := advances_reading (c := c) hacc (Tables.findWallet?_withAccount hw _) false 2
    refine ⟨a, hh, ?_⟩
    rw [Attempt.advances, advance_looking, hw]
    show c.advances 4 (.enrolling, t) = _
    rw [Attempt.advances, advance_enrolling c hf hu hw, hr]

theorem advances_wide (ha : t.Accounts) (hf : fits c.now = false) :
    c.advances 5 (.looking false, t) = (.done (.error .numberTooWide), t) := by
  rw [Attempt.advances, advance_looking]
  cases hw : t.findWallet? c.owner with
  | some w =>
    obtain ⟨-, u, hu⟩ := ha.rows_of_findWallet? hw
    rw [Attempt.look, Attempt.advances, advance_renewing_wide c hu hf, advances_done]
  | none =>
    show c.advances 4 (.enrolling, t) = _
    rw [Attempt.advances, advance_enrolling_wide c hf, advances_done]

end Alone

/-- A settlement that no other one interrupts answers and leaves what `upsert` does. -/
theorem alone_as_upsert [DecidableEq ι] (calls : ι → Attempt) (i : ι) {t : Tables} (ha : t.Accounts)
    (hu : t.findUser? (calls i).userId = none) :
    let r := race calls t (List.replicate 5 i)
    let c := calls i
    let o := perform (upsert c.subject c.publicKey c.role c.userId c.now) {} t
    r.phase i = .done o.answer ∧ r.tables = o.tables := by
  intro r c o
  have hr : (r.phase i, r.tables) = c.advances 5 (.looking false, t) := foldl_replicate calls i 5 _
  cases hf : fits c.now with
  | false =>
    rw [advances_wide ha hf, Prod.mk.injEq] at hr
    obtain ⟨ho, ht⟩ := outcome_of_yields (yields_upsert_wide c.subject c.publicKey c.role ha c.userId hf) Faults.quiet_default
    exact ⟨hr.1.trans (congrArg Phase.done ho.symm), hr.2.trans ht.symm⟩
  | true =>
    obtain ⟨t', hs⟩ := exists_settles (o := c.owner) (fun _ => hu) c.key (c.role.getD defaultRole) c.now
    obtain ⟨a, hh, hall⟩ := advances_settles ha hf hs
    obtain ⟨b, hh', hy⟩ := yields_upsert c.subject c.publicKey c.role ha rfl hf hs
    obtain ⟨ho, ht⟩ := outcome_of_yields hy Faults.quiet_default
    rw [hall, Prod.mk.injEq] at hr
    rw [hh.unique hh'] at hr
    exact ⟨hr.1.trans (congrArg Phase.done ho.symm), hr.2.trans ht.symm⟩

/-- A look-up that misses a wallet, in a session in which nothing else is planned to fail. -/
def overlooked : Faults := { finds := [.stale] }

theorem findWallet_overlooked (t : Tables) (o : Option Owner) :
    Ends (Store.findWallet o) (Session.opened t overlooked) (fun w s' => w = none ∧ s'.At True t t) (fun _ _ => False) := by
  have hstale : (Session.opened t overlooked).faults.nextFind = .stale := rfl
  simp only [Store.findWallet, ends_bind, ends_get, ends_modify, hstale, ends_pure]
  refine ⟨trivial, ⟨rfl, fun _ => ?_⟩, rfl, rfl⟩
  exact ⟨fun p x hx => (by cases hx), fun l hl => (by cases hl), rfl⟩

/-- The handler of a lost enrolment settles the wallet that was made meanwhile. -/
theorem upsert_overlooked {t : Tables} (ha : t.Accounts) {subject : Subject} {o : Owner} {w : WalletRow}
    (ho : subject.owner? = some o) (hw : t.findWallet? o = some w) {userId : String} (hu : t.findUser? userId = none)
    {now : Int} (hf : fits now = true) (publicKey role : Option String) :
    ∃ a, Holds (t.touch w (trimKey publicKey) now) o a ∧
      (perform (upsert subject publicKey role userId now) overlooked t).answer = .ok a ∧
      (perform (upsert subject publicKey role userId now) overlooked t).tables = t.touch w (trimKey publicKey) now := by
  obtain ⟨a, hh, htouch⟩ := yields_touch ha hw hf (trimKey publicKey)
  have hlost : Yields (make (some o) (trimKey publicKey) (role.getD defaultRole) userId now) t (.error (.fault .integrity)) t := by
    rw [make_eq]
    exact (yields_enroll_taken hf hu hw).bind_error _
  have hfind := Store.yields_findWallet (some o) t
  rw [Option.bind_some, hw] at hfind
  have hagain : Yields (guarded (findAgain (some o) (trimKey publicKey) now)) t (.ok (some a))
      (t.touch w (trimKey publicKey) now) := yields_guarded (hfind.bind (htouch.map some))
  have hends : Ends (upsert subject publicKey role userId now) (Session.opened t overlooked)
      (fun b s' => b = a ∧ s'.At True (t.touch w (trimKey publicKey) now) (t.touch w (trimKey publicKey) now))
      (fun _ _ => False) := by
    simp only [upsert, findOrMake, ho, ends_attempt, ends_bind]
    refine (findWallet_overlooked t (some o)).mono (fun v s₁ h₁ => ?_) fun _ _ => False.elim
    obtain ⟨rfl, h₁⟩ := h₁
    refine (hlost.ends_error h₁).mono (fun _ _ => False.elim) fun b s₂ h₂ => ?_
    obtain ⟨rfl, h₂⟩ := h₂
    simp only [if_true, ends_bind, ends_rollback]
    refine (hagain.ends_ok h₂.rollback).mono (fun v s₃ h₃ => ?_) fun _ _ => False.elim
    obtain ⟨rfl, h₃⟩ := h₃
    exact (ends_pure _).mpr ⟨rfl, h₃⟩
  obtain ⟨s, ht, ⟨b, hb, rfl, hs⟩ | ⟨e, -, hfalse⟩⟩ := perform_ends hends
  · exact ⟨b, hh, hb, ht.trans hs.stored⟩
  · exact hfalse.elim

/-- A settlement whose look-up came too early goes on as `upsert` does behind a look-up that
missed the wallet. -/
theorem late_as_upsert (c : Attempt) {t : Tables} (ha : t.Accounts) (hu : t.findUser? c.userId = none) {w : WalletRow}
    (hw : t.findWallet? c.owner = some w) (hf : fits c.now = true) :
    let o := perform (upsert c.subject c.publicKey c.role c.userId c.now) overlooked t
    c.advances 4 (.enrolling, t) = (.done o.answer, o.tables) := by
  intro o
  obtain ⟨a, hh, hr⟩ := advances_renewing ha hw hf true 0
  have ho : c.subject.owner? = some c.owner := rfl
  obtain ⟨b, hh', hb, ht⟩ := upsert_overlooked ha ho hw hu hf c.publicKey c.role
  rw [Attempt.advances, advance_enrolling_taken c hf hu hw, Attempt.advances, advance_looking, hw, Attempt.look, hr]
  rw [hh.unique hh']
  exact congrArg₂ Prod.mk (congrArg Phase.done hb.symm) ht.symm

end WalletLogin.Login.Users
