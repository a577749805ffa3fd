/-
  WalletLogin.Proofs.Login.Agreement — every login answers a challenge of its own.

  A run is any list of calls, each with its inputs, its readings of the clock, its drawn
  texts and its faults; a drawn nonce may repeat. A nonce row tells of the call that
  issued it (`row_issued`), and a row that a login consumed is never live again, because
  rows only age (`tables_keep`).

  Proved:
  - `logins_agree`: a login that returns a result is preceded by a challenge that was
    issued to the same wallet under the same nonce and is not over; the wallet signed one
    of its two messages; the login consumes it, and no other login returns a result for
    that nonce. So a wallet has no more logins than challenges.
-/

import Mathlib.Data.Set.Card
import WalletLogin.Proofs.Login.Identities

namespace WalletLogin.Login

open Ledger Wallet History

/-- The tables that call number `i` of the run meets. -/
def tablesAt (es : List Event) (i : Nat) : Tables := (run (es.take i) Tables.empty).2

/-- Call number `i` of the run is a challenge for the row's owner, and commits the row
under a nonce that was free. -/
def IssuedAt (es : List Event) (i : Nat) (row : NonceRow) : Prop :=
  ∃ e walletType address deadline k, es[i]? = some e ∧ e.call = .issue walletType address deadline ∧
    identify walletType address = .ok (k, some row.owner.address) ∧ row.owner.walletType = k.name ∧
    row = challengeRow e.config e.conditions row.owner ∧
    (tablesAt es i).findNonce? row.nonce = none ∧ (tablesAt es (i + 1)).findNonce? row.nonce = some row

/-- Call number `j` of the run is the login `r`, at the second `now`, and returns a result. -/
def LoggedInAt (es : List Event) (j : Nat) (r : Request) (now : Int) : Prop :=
  ∃ e deadline res, es[j]? = some e ∧ e.call = .login r deadline ∧ e.conditions.wall 0 = now ∧
    (run es Tables.empty).1[j]? = some (.ok (.result res))

theorem tablesAt_eq (es : List Event) (i : Nat) : tablesAt es i = after Event.outcome (es.take i) := run_tables _

/-- A call settles what the next one meets. -/
theorem tablesAt_succ {es : List Event} {i : Nat} {e : Event} (he : es[i]? = some e) :
    tablesAt es (i + 1) = (e.outcome (tablesAt es i)).tables := by
  have ht : es.take (i + 1) = es.take i ++ [e] := by rw [List.take_add_one, he]; rfl
  rw [tablesAt_eq, tablesAt_eq, ht, after_snoc]

/-- What every call preserves, on the tables that runs reach, holds between any two points
of a run. -/
theorem tablesAt_rel {R : Tables → Tables → Prop} (hrefl : ∀ t, R t t)
    (htrans : ∀ {t₁ t₂ t₃}, R t₁ t₂ → R t₂ t₃ → R t₁ t₃)
    (hstep : ∀ (es : List Event) (e : Event), R (after Event.outcome es) (e.outcome (after Event.outcome es)).tables)
    (es : List Event) {i j : Nat} (h : i ≤ j) : R (tablesAt es i) (tablesAt es j) := by
  have ht : es.take j = es.take i ++ (es.take j).drop i := by
    have hs := (List.take_append_drop i (es.take j)).symm
    rwa [List.take_take, Nat.min_eq_left h] at hs
  rw [tablesAt_eq, tablesAt_eq, ht]
  exact after_append hrefl htrans hstep _ _

theorem sound_tablesAt (es : List Event) (i : Nat) : Sound (tablesAt es i) := tablesAt_eq es i ▸ sound_after _

theorem IssuedAt.lt {es : List Event} {i : Nat} {row : NonceRow} (h : IssuedAt es i row) : i < es.length := by
  obtain ⟨e, -, -, -, -, he, -⟩ := h
  exact (List.getElem?_eq_some_iff.mp he).1

/-- What follows a challenge does not unmake it. -/
theorem IssuedAt.append {es : List Event} {i : Nat} {row : NonceRow} (h : IssuedAt es i row) (fs : List Event) :
    IssuedAt (es ++ fs) i row := by
  have hi := h.lt
  have ht : ∀ j ≤ es.length, tablesAt (es ++ fs) j = tablesAt es j := fun j hj => by
    unfold tablesAt
    rw [List.take_append_of_le_length hj]
  unfold IssuedAt at h ⊢
  rw [List.getElem?_append_left hi, ht i (by omega), ht (i + 1) (by omega)]
  exact h

/-! ## Rows tell of their challenge -/

/-- The row as it was issued. -/
def issued (r : NonceRow) : NonceRow := { r with consumedAt := none }

theorem issued_marked (o : Owner) (n : String) (now : Int) (r : NonceRow) : issued (r.marked o n now) = issued r := by
  have hg := r.ages_marked o n now
  simp only [issued, hg.nonce, hg.owner, hg.createdAt, hg.expiresAt]

theorem issued_of_isLive {r : NonceRow} {o : Owner} {now : Int} (h : r.isLive o now = true) : issued r = r := by
  have hn := (NonceRow.isLive_iff.mp h).2.1
  cases r
  simp only [issued] at hn ⊢
  rw [hn]

theorem Redeems.nonces {cfg : Config} {env : Conditions} {r : Request} {o : Owner} {t t' : Tables}
    (h : Redeems cfg env r o t t') : t'.nonces = (t.spend o (trimmed r.nonce) (env.wall 0)).nonces := by
  rcases h.left with rfl | ⟨o', -, hs⟩
  · rfl
  · exact hs.nonces

/-- Every row of the tables was issued by a call of the run. -/
theorem row_issued (es : List Event) : ∀ r ∈ (after Event.outcome es).nonces, ∃ i, IssuedAt es i (issued r) := by
  induction es using List.reverseRecOn with
  | nil =>
    intro r hr
    cases hr
  | append_singleton es e ih =>
    have hold : ∀ r ∈ (after Event.outcome es).nonces, ∃ i, IssuedAt (es ++ [e]) i (issued r) := fun r hr => by
      obtain ⟨i, hi⟩ := ih r hr
      exact ⟨i, hi.append [e]⟩
    have hl := (outcome_spec (sound_after es) e).leaves
    rw [after_snoc]
    generalize ht : (e.outcome (after Event.outcome es)).tables = t at hl
    cases hl with
    | nothing => exact hold
    | @challenge walletType address deadline o _ hc h =>
      obtain ⟨⟨k, hk, hok⟩, hn, rfl⟩ := h
      intro r hr
      rcases List.mem_append.mp hr with hr | hr
      · exact hold r hr
      · -- the row of this very call
        rw [List.mem_singleton.mp hr]
        have hat : tablesAt (es ++ [e]) es.length = after Event.outcome es := by
          rw [tablesAt_eq, List.take_left]
        refine ⟨es.length, e, walletType, address, deadline, k, List.getElem?_concat_length, hc, hk, hok, rfl, ?_, ?_⟩
        · rw [hat]
          exact hn
        · rw [tablesAt_succ List.getElem?_concat_length, hat, ht]
          exact Tables.findNonce?_withNonce (sound_after es).differ hn
    | redeemed hc h =>
      intro r' hr'
      rw [h.nonces] at hr'
      obtain ⟨r, hr, rfl⟩ := Tables.mem_spend.mp hr'
      rw [issued_marked]
      exact hold r hr

/-! ## Rows age -/

theorem Leaves.keeps {e : Event} {t t' : Tables} (h : Leaves e t t') : Tables.Keeps t t' := by
  cases h with
  | nothing => exact .refl t
  | challenge _ h =>
    rw [h.stored]
    exact Tables.withNonce_keeps _ _
  | redeemed _ h =>
    unfold Tables.Keeps
    rw [h.nonces]
    exact Tables.spend_keeps _ _ _ _

theorem tables_keep (es : List Event) {i j : Nat} (h : i ≤ j) : Tables.Keeps (tablesAt es i) (tablesAt es j) :=
  tablesAt_rel Tables.Keeps.refl Tables.Keeps.trans (fun es e => (outcome_spec (sound_after es) e).leaves.keeps) es h

/-! ## Logins -/

section Logins

variable {es : List Event} {j j' : Nat} {r r' : Request} {u u' : Int}

/-- A call that returns the result of a login logs a wallet in, on the tables that it met. -/
theorem logsIn_of_result {e : Event} {deadline : Option Int} {res : Result} (he : es[j]? = some e)
    (hc : e.call = .login r deadline) (ha : (run es Tables.empty).1[j]? = some (.ok (.result res))) :
    ∃ o, LogsIn e.config e.conditions r o (tablesAt es j) (tablesAt es (j + 1)) res := by
  have hans := ((run_answers he).mp ha).2
  rw [← tablesAt_eq] at hans
  rw [tablesAt_succ he]
  exact (sound_tablesAt es j).logsIn hc hans

/-- The call of a login that returned a result, on the tables that it met. -/
theorem LoggedInAt.logsIn (h : LoggedInAt es j r u) :
    ∃ (e : Event) (o : Owner) (res : Result), e.conditions.wall 0 = u ∧
      LogsIn e.config e.conditions r o (tablesAt es j) (tablesAt es (j + 1)) res := by
  obtain ⟨e, deadline, res, he, hc, hu, ha⟩ := h
  obtain ⟨o, hl⟩ := logsIn_of_result he hc ha
  exact ⟨e, o, res, hu, hl⟩

/-- The row that the login consumes, before and after it. -/
theorem LoggedInAt.consumes (h : LoggedInAt es j r u) :
    ∃ k a row, Presents r k a ∧ row.nonce = trimmed r.nonce ∧ row.isLive ⟨k.name, a⟩ u = true ∧
      (tablesAt es j).findNonce? (trimmed r.nonce) = some row ∧
      (tablesAt es (j + 1)).findNonce? (trimmed r.nonce) = some { row with consumedAt := some u } := by
  obtain ⟨e, ⟨w, a⟩, res, rfl, hl⟩ := h.logsIn
  obtain ⟨k, hp, rfl⟩ := hl.presented
  obtain ⟨row, hr, hn, hlive⟩ := hl.live
  have hd := (sound_tablesAt es j).differ
  refine ⟨k, a, row, hp, hn, hlive, (Tables.findNonce?_eq_some_iff hd).mpr ⟨hr, hn⟩, ?_⟩
  rw [← Tables.findNonce?_spend hd hr hn hlive]
  unfold Tables.findNonce?
  rw [hl.redeems.nonces]

/-- The challenge that the login answers. -/
theorem LoggedInAt.challenge (h : LoggedInAt es j r u) :
    ∃ k a row i, Presents r k a ∧ i < j ∧ IssuedAt es i row ∧ row.owner = ⟨k.name, a⟩ ∧ row.nonce = trimmed r.nonce ∧
      u < row.expiresAt ∧ (tablesAt es j).findNonce? (trimmed r.nonce) = some row ∧
      (tablesAt es (j + 1)).findNonce? (trimmed r.nonce) = some { row with consumedAt := some u } := by
  obtain ⟨k, a, row, hp, hn, hlive, hbefore, hafter⟩ := h.consumes
  obtain ⟨ho, -, hu⟩ := NonceRow.isLive_iff.mp hlive
  have hr := (Tables.mem_of_findNonce? hbefore).1
  rw [tablesAt_eq] at hr
  obtain ⟨i, hi⟩ := row_issued (es.take j) row hr
  rw [issued_of_isLive hlive] at hi
  have hij : i < j := Nat.lt_of_lt_of_le hi.lt (List.length_take_le j es)
  have hi' := hi.append (es.drop j)
  rw [List.take_append_drop] at hi'
  exact ⟨k, a, row, i, hp, hij, hi', ho, hn, hu, hbefore, hafter⟩

/-- After a login no other one returns a result for its nonce. -/
theorem LoggedInAt.not_before (h : LoggedInAt es j r u) (h' : LoggedInAt es j' r' u')
    (hn : trimmed r.nonce = trimmed r'.nonce) : ¬ j < j' := by
  intro hlt
  obtain ⟨k, a, row, -, -, -, -, hafter⟩ := h.consumes
  obtain ⟨k', a', row', -, hn', hlive, hbefore, -⟩ := h'.consumes
  refine (tables_keep es hlt).not_redeemable (sound_tablesAt es j').differ hafter rfl ⟨k'.name, a'⟩ u' ?_
  exact ⟨row', (Tables.mem_of_findNonce? hbefore).1, by rw [hn', hn], hlive⟩

theorem LoggedInAt.unique (h : LoggedInAt es j r u) (h' : LoggedInAt es j' r' u')
    (hn : trimmed r.nonce = trimmed r'.nonce) : j = j' := by
  rcases Nat.lt_trichotomy j j' with hlt | heq | hgt
  · exact absurd hlt (h.not_before h' hn)
  · exact heq
  · exact absurd hgt (h'.not_before h hn.symm)

end Logins

/-- The calls of the run that log the wallet `o` in. -/
def loginsOf (es : List Event) (o : Owner) : Set Nat :=
  { j | ∃ r u k a, LoggedInAt es j r u ∧ identify r.walletType r.address = .ok (k, some a) ∧ o = ⟨k.name, a⟩ }

/-- The calls of the run that issue a challenge to the wallet `o`. -/
def challengesOf (es : List Event) (o : Owner) : Set Nat := { i | ∃ row, IssuedAt es i row ∧ row.owner = o }

theorem IssuedAt.nonce_eq {es : List Event} {i : Nat} {row row' : NonceRow} (h : IssuedAt es i row)
    (h' : IssuedAt es i row') : row.nonce = row'.nonce := by
  obtain ⟨e, -, -, -, -, he, -, -, -, hr, -⟩ := h
  obtain ⟨e', -, -, -, -, he', -, -, -, hr', -⟩ := h'
  obtain rfl : e = e' := Option.some.inj (he.symm.trans he')
  rw [hr, hr']
  rfl

/-- Each login of a wallet takes a challenge of its own. -/
theorem logins_le_challenges (es : List Event) (o : Owner) : (loginsOf es o).ncard ≤ (challengesOf es o).ncard := by
  have hpick : ∀ j ∈ loginsOf es o, ∃ i, ∃ row r u, IssuedAt es i row ∧ row.owner = o ∧ LoggedInAt es j r u ∧
      row.nonce = trimmed r.nonce := by
    rintro j ⟨r, u, k, a, hj, hid, rfl⟩
    obtain ⟨k', a', row, i, hp, -, hi, ho, hn, -⟩ := hj.challenge
    obtain ⟨rfl, rfl⟩ : k = k' ∧ a = a' := by simpa using hid.symm.trans hp.named
    exact ⟨i, row, r, u, hi, ho, hj, hn⟩
  choose! i hi using hpick
  refine Set.ncard_le_ncard_of_injOn i (fun j hj => ?_) (fun j hj j' hj' he => ?_) ?_
  · obtain ⟨row, r, u, hrow, ho, -⟩ := hi j hj
    exact ⟨row, hrow, ho⟩
  · -- two logins with one challenge have one nonce
    obtain ⟨row, r, u, hrow, -, hl, hn⟩ := hi j hj
    obtain ⟨row', r', u', hrow', -, hl', hn'⟩ := hi j' hj'
    rw [← he] at hrow'
    exact hl.unique hl' (by rw [← hn, ← hn', hrow.nonce_eq hrow'])
  · refine (Set.finite_lt_nat es.length).subset ?_
    rintro i ⟨row, hi, -⟩
    exact hi.lt

/-- Over every run: a login that returns a result has its challenge, issued before to the
same wallet under the same nonce and not over yet, and consumes it; the wallet signed one
of its messages; no other login returns a result for that nonce; and no wallet has more
logins than challenges. -/
theorem logins_agree (es : List Event) :
    (∀ j r u, LoggedInAt es j r u → ∃ k a row i,
      identify r.walletType r.address = .ok (k, some a) ∧
      i < j ∧ IssuedAt es i row ∧ row.owner = ⟨k.name, a⟩ ∧ row.nonce = trimmed r.nonce ∧ u < row.expiresAt ∧
      (tablesAt es j).findNonce? (trimmed r.nonce) = some row ∧
      (tablesAt es (j + 1)).findNonce? (trimmed r.nonce) = some { row with consumedAt := some u } ∧
      (k.verify a (Message.current (trimmed r.nonce)) (trimmed r.signature) r.publicKey = true ∨
        k.verify a (Message.legacy (trimmed r.nonce)) (trimmed r.signature) r.publicKey = true)) ∧
    (∀ j j' r r' u u', LoggedInAt es j r u → LoggedInAt es j' r' u' → trimmed r.nonce = trimmed r'.nonce → j = j') ∧
    ∀ o, (loginsOf es o).ncard ≤ (challengesOf es o).ncard := by
  refine ⟨fun j r u h => ?_, fun j j' r r' u u' h h' hn => h.unique h' hn, logins_le_challenges es⟩
  obtain ⟨k, a, row, i, hp, hij, hi, ho, hn, hu, hbefore, hafter⟩ := h.challenge
  exact ⟨k, a, row, i, hp.named, hij, hi, ho, hn, hu, hbefore, hafter, isSigned_iff.mp hp.signed⟩

/-- The login at second 1 answers the challenge of second 0. -/
theorem first_login_answers_its_challenge :
    LoggedInAt FirstLogin.calls 1 FirstLogin.request 1 ∧
      ∃ i < 1, ∃ row, IssuedAt FirstLogin.calls i row ∧ row.nonce = "abc123" ∧ 1 < row.expiresAt := by
  obtain ⟨res, -, ha, -⟩ := FirstLogin.logs_in
  have hl : LoggedInAt FirstLogin.calls 1 FirstLogin.request 1 :=
    ⟨FirstLogin.answers 1, none, res, rfl, rfl, rfl, (run_answers rfl).mpr ha⟩
  obtain ⟨k, a, row, i, -, hi, hrow, -, hn, hu, -⟩ := (logins_agree FirstLogin.calls).1 1 FirstLogin.request 1 hl
  exact ⟨hl, i, hi, row, hrow, hn, hu⟩

end WalletLogin.Login
