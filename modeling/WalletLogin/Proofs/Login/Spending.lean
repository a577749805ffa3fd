/-
  WalletLogin.Proofs.Login.Spending — the nonce store: tokens that are spent once, by
  their owner, before they expire.

  A step of the store creates a token or consumes one; every step meets its own clock
  reading and its own faults, and a create draws any text. `Created` and `Spent` say of
  a run what its answers show, without the table. `Reflects` ties the table to them: each
  row is of a token that was created, and is marked when the token was spent.

  Proved:
  - `create_ends`, `consume_ends`: all that a step can do, with the cause of each failure.
  - `reflects`: after every run the table shows what the run's answers show.
  - `tokens_are_one_time`: a fault-free consume succeeds exactly for a token that the
    run created for this owner, that no earlier consume spent, and that has not expired.
    So a token is spent at most once, and a stored value is never handed out again.
  A number that does not fit a column of 64 bits stops a step before it has an effect;
  `too_late_a_clock_is_no_refusal` shows that such a consume is not refused as expired.
-/

import WalletLogin.Proofs.Ledger.Rows
import WalletLogin.Proofs.Login.History
import WalletLogin.Proofs.Login.Procedure

namespace WalletLogin.Login.Nonces

open Ledger Procedure History

/-! ## What a step can do -/

section Ends

variable {q : Prop} {t : Tables} {s : Session}

theorem insert_eq_ok_iff {o : Option Owner} {nonce : String} {now expires : Int} {t' : Tables} :
    insert o nonce now expires t = .ok t' ↔ (fits now = true ∧ fits expires = true) ∧
      ∃ o', o = some o' ∧ t.findNonce? nonce = none ∧ t' = t.withNonce ⟨nonce, o', now, expires, none⟩ := by
  cases o <;> simp [insert, Tables.addNonce?_eq_some_iff]

theorem insert_eq_error_iff {o : Option Owner} {nonce : String} {now expires : Int} {b : Breakdown} :
    insert o nonce now expires t = .error b ↔ ¬ (fits now = true ∧ fits expires = true) ∧ b = .tooWide ∨
      (fits now = true ∧ fits expires = true) ∧ (o = none ∨ t.findNonce? nonce ≠ none) ∧ b = .fault .integrity := by
  cases o <;> simp [insert, Tables.addNonce?_eq_none_iff]

/-- A create stores a new row of its owner, or nothing. -/
theorem create_ends (h : s.At q t t) (subject : Subject) (nonce : String) (now ttl : Int) :
    Ends (create nonce subject now ttl) s
      (fun _ s' => ∃ o, subject.owner? = some o ∧ t.findNonce? nonce = none ∧
        s'.At q (t.withNonce ⟨nonce, o, now, now + ttl, none⟩) (t.withNonce ⟨nonce, o, now, now + ttl, none⟩))
      (fun f s' => s'.At q t t ∧ (f = .refused .storage ∧ (q → subject.owner? = none ∨ t.findNonce? nonce ≠ none) ∨
        f = .numberTooWide ∧ ¬ (fits now = true ∧ fits (now + ttl) = true))) := by
  simp only [create, ends_bind, ends_modify, ends_guarded]
  have h' : { s with drewNonce := true }.At q t t := ⟨⟨h.stored, h.quiet⟩, h.draft, h.pending⟩
  refine (Store.commitWith_ends h' _).mono (fun _ s' hs => ?_) (fun b s' hs => ⟨hs.1.rollback, ?_⟩)
  · obtain ⟨d, hw, hs⟩ := hs
    obtain ⟨-, o, ho, hn, rfl⟩ := insert_eq_ok_iff.mp hw
    exact ⟨o, ho, hn, hs⟩
  · rcases hs.2 with ⟨hb, hq⟩ | hw
    · exact Or.inl ⟨surfaced_of_isFault hb, fun h => absurd h hq⟩
    · rcases insert_eq_error_iff.mp hw with ⟨hf, rfl⟩ | ⟨-, hc, rfl⟩
      · exact Or.inr ⟨rfl, hf⟩
      · exact Or.inl ⟨rfl, fun _ => hc⟩

/-- No token of the subject bears the nonce and can be redeemed. -/
def Refused (t : Tables) (subject : Subject) (nonce : Option String) (now : Int) : Prop :=
  ∀ o n, subject.owner? = some o → nonce = some n → ¬ t.Redeemable o n now

/-- The statement hits the live row of a token, or finds none and leaves the draft as it is. -/
theorem execute_ends (h : s.At q t t) (hd : t.NoncesDiffer) (subject : Subject) (nonce : Option String) (now : Int) :
    Ends (execute subject.owner? nonce now) s
      (fun hit s' => fits now = true ∧ ((hit = true ∧ ∃ o n, subject.owner? = some o ∧ nonce = some n ∧
        t.Redeemable o n now ∧ s'.At q t (t.spend o n now)) ∨
        hit = false ∧ Refused t subject nonce now ∧ s'.At q t t))
      (fun b s' => s'.At q t t ∧ (b.IsFault ∧ ¬ q ∨ b = .tooWide ∧ fits now = false)) := by
  simp only [execute, Store.fail, ends_bind]
  refine (Store.meet_ends h .execute).mono (fun _ s₁ h₁ => ?_) (fun b _ hb => ⟨hb.1, Or.inl hb.2⟩)
  refine (Store.needTables_ends h₁).mono (fun _ s₂ h₂ => ?_) (fun b _ hb => ⟨hb.1, Or.inl hb.2⟩)
  cases hf : fits now with
  | false => exact (ends_throw _).mpr ⟨h₂, Or.inr ⟨rfl, rfl⟩⟩
  | true =>
    cases ho : subject.owner? with
    | none => exact (ends_pure _).mpr ⟨rfl, Or.inr ⟨rfl, fun o n ho' => (by rw [ho] at ho'; cases ho'), h₂⟩⟩
    | some o =>
      cases nonce with
      | none => exact (ends_pure _).mpr ⟨rfl, Or.inr ⟨rfl, fun o n _ hn' => (by cases hn'), h₂⟩⟩
      | some n =>
        simp only [Bool.not_true, Bool.false_eq_true, if_false, ends_pure, ends_bind, ends_get, ends_modify]
        rw [h₂.draft]
        refine ⟨trivial, ?_⟩
        by_cases hr : t.Redeemable o n now
        · exact Or.inl ⟨decide_eq_true ((Tables.spendable_eq_one_iff hd).mpr hr), o, n, rfl, rfl, hr,
            ⟨h₂.stored, h₂.quiet⟩, rfl, h₂.pending⟩
        · rw [Tables.spend_eq_self hr]
          refine Or.inr ⟨decide_eq_false (mt (Tables.spendable_eq_one_iff hd).mp hr), fun o' n' ho' hn' => ?_,
            ⟨h₂.stored, h₂.quiet⟩, rfl, h₂.pending⟩
          cases ho.symm.trans ho'
          cases hn'
          exact hr

/-- A consume marks the live row of its owner's token, or changes nothing. -/
theorem consume_ends (h : s.At q t t) (hd : t.NoncesDiffer) (subject : Subject) (nonce : Option String) (now : Int) :
    Ends (consume subject nonce now) s
      (fun _ s' => ∃ o n, subject.owner? = some o ∧ nonce = some n ∧ t.Redeemable o n now ∧ fits now = true ∧
        s'.At q (t.spend o n now) (t.spend o n now))
      (fun f s' => s'.At q t t ∧ (f = .refused .storage ∧ ¬ q ∨ f = .numberTooWide ∧ fits now = false ∨
        f = .refused .nonce ∧ fits now = true ∧ Refused t subject nonce now)) := by
  simp only [consume, spend, ends_bind, ends_guarded, ends_pure]
  refine (execute_ends h hd subject nonce now).mono (fun hit s₁ h₁ => ?_) (fun b s₁ h₁ => ⟨h₁.1.rollback, ?_⟩)
  · obtain ⟨hf, ⟨rfl, o, n, ho, hn, hr, h₁⟩ | ⟨rfl, hr, h₁⟩⟩ := h₁
    · exact (Store.commit_ends h₁).mono (fun _ s₂ h₂ => (ends_pure _).mpr ⟨o, n, ho, hn, hr, hf, h₂⟩)
        (fun b s₂ h₂ => ⟨h₂.1.rollback, Or.inl ⟨surfaced_of_isFault h₂.2.1, h₂.2.2⟩⟩)
    · exact (Store.commit_ends h₁).mono (fun _ s₂ h₂ => (ends_refuse _).mpr ⟨h₂, Or.inr (Or.inr ⟨rfl, hf, hr⟩)⟩)
        (fun b s₂ h₂ => ⟨h₂.1.rollback, Or.inl ⟨surfaced_of_isFault h₂.2.1, h₂.2.2⟩⟩)
  · rcases h₁.2 with ⟨hb, hq⟩ | ⟨rfl, hf⟩
    · exact Or.inl ⟨surfaced_of_isFault hb, hq⟩
    · exact Or.inr (Or.inl ⟨rfl, hf⟩)

end Ends

/-! ## Runs of the store -/

/-- A step of the nonce store, with its clock reading and its faults. -/
inductive Step where
  | create (subject : Subject) (nonce : String) (now ttl : Int) (faults : Faults)
  | consume (subject : Subject) (nonce : Option String) (now : Int) (faults : Faults)

def Step.outcome : Step → Tables → Outcome Unit
  | .create subject nonce now ttl f, t => perform (Nonces.create nonce subject now ttl) f t
  | .consume subject nonce now f, t => perform (Nonces.consume subject nonce now) f t

/-- What one more step comes to. -/
abbrev outcomeAfter (es : List Step) (e : Step) : Outcome Unit := e.outcome (after Step.outcome es)

/-- A create of the run stored the token for `o`, at the second `now`, for `ttl` seconds. -/
def Created (es : List Step) (o : Owner) (nonce : String) (now ttl : Int) : Prop :=
  ∃ i subject f, Answers Step.outcome es i (.create subject nonce now ttl f) (.ok ()) ∧ subject.owner? = some o

/-- A consume of the run spent the token. -/
def Spent (es : List Step) (nonce : String) : Prop :=
  ∃ i subject now f, Answers Step.outcome es i (.consume subject (some nonce) now f) (.ok ())

theorem created_snoc_iff {es : List Step} {c : Step} {o : Owner} {nonce : String} {now ttl : Int} :
    Created (es ++ [c]) o nonce now ttl ↔ Created es o nonce now ttl ∨ ∃ subject f,
      c = .create subject nonce now ttl f ∧ (c.outcome (after Step.outcome es)).answer = .ok () ∧
        subject.owner? = some o := by
  constructor
  · rintro ⟨i, subject, f, ha, ho⟩
    rcases answers_snoc_iff.mp ha with ha | ⟨-, hc, ha⟩
    · exact Or.inl ⟨i, subject, f, ha, ho⟩
    · exact Or.inr ⟨subject, f, hc, ha, ho⟩
  · rintro (⟨i, subject, f, ha, ho⟩ | ⟨subject, f, hc, ha, ho⟩)
    · exact ⟨i, subject, f, answers_append ha [c], ho⟩
    · exact ⟨_, subject, f, answers_snoc_iff.mpr (Or.inr ⟨rfl, hc, ha⟩), ho⟩

theorem spent_snoc_iff {es : List Step} {c : Step} {nonce : String} :
    Spent (es ++ [c]) nonce ↔ Spent es nonce ∨ ∃ subject now f,
      c = .consume subject (some nonce) now f ∧ (c.outcome (after Step.outcome es)).answer = .ok () := by
  constructor
  · rintro ⟨i, subject, now, f, ha⟩
    rcases answers_snoc_iff.mp ha with ha | ⟨-, hc, ha⟩
    · exact Or.inl ⟨i, subject, now, f, ha⟩
    · exact Or.inr ⟨subject, now, f, hc, ha⟩
  · rintro (⟨i, subject, now, f, ha⟩ | ⟨subject, now, f, hc, ha⟩)
    · exact ⟨i, subject, now, f, answers_append ha [c]⟩
    · exact ⟨_, subject, now, f, answers_snoc_iff.mpr (Or.inr ⟨rfl, hc, ha⟩)⟩

theorem Spent.append {es : List Step} {nonce : String} (h : Spent es nonce) (fs : List Step) : Spent (es ++ fs) nonce := by
  obtain ⟨i, subject, now, f, ha⟩ := h
  exact ⟨i, subject, now, f, answers_append ha fs⟩

section Cases

variable {t : Tables} (subject : Subject) (now ttl : Int) (f : Faults)

theorem create_cases (nonce : String) :
    (((Step.create subject nonce now ttl f).outcome t).answer = .ok () ∧ ∃ o, subject.owner? = some o ∧
        t.findNonce? nonce = none ∧ ((Step.create subject nonce now ttl f).outcome t).tables =
          t.withNonce ⟨nonce, o, now, now + ttl, none⟩) ∨
      ∃ e, ((Step.create subject nonce now ttl f).outcome t).answer = .error e ∧
        ((Step.create subject nonce now ttl f).outcome t).tables = t ∧
        (e = .refused .storage ∨ e = .numberTooWide ∧ ¬ (fits now = true ∧ fits (now + ttl) = true)) := by
  obtain ⟨s, ht, ⟨a, ha, o, ho, hn, hs⟩ | ⟨e, ha, hs, he⟩⟩ :=
    perform_ends (create_ends (Session.at_opened t f) subject nonce now ttl)
  · exact Or.inl ⟨ha, o, ho, hn, ht.trans hs.stored⟩
  · exact Or.inr ⟨e, ha, ht.trans hs.stored, he.imp And.left id⟩

theorem consume_cases (hd : t.NoncesDiffer) (nonce : Option String) :
    (((Step.consume subject nonce now f).outcome t).answer = .ok () ∧ ∃ o n, subject.owner? = some o ∧ nonce = some n ∧
        t.Redeemable o n now ∧ ((Step.consume subject nonce now f).outcome t).tables = t.spend o n now) ∨
      ∃ e, ((Step.consume subject nonce now f).outcome t).answer = .error e ∧
        ((Step.consume subject nonce now f).outcome t).tables = t ∧
        (e = .refused .storage ∧ ¬ f.Quiet ∨ e = .numberTooWide ∧ fits now = false ∨
          e = .refused .nonce ∧ fits now = true ∧ Refused t subject nonce now) := by
  obtain ⟨s, ht, ⟨a, ha, o, n, ho, hn, hr, -, hs⟩ | ⟨e, ha, hs, he⟩⟩ :=
    perform_ends (consume_ends (Session.at_opened t f) hd subject nonce now)
  · exact Or.inl ⟨ha, o, n, ho, hn, hr, ht.trans hs.stored⟩
  · exact Or.inr ⟨e, ha, ht.trans hs.stored, he⟩

end Cases

theorem step_keeps {t : Tables} (hd : t.NoncesDiffer) (e : Step) : Tables.Keeps t (e.outcome t).tables := by
  cases e with
  | create subject nonce now ttl f =>
    rcases create_cases (t := t) subject now ttl f nonce with ⟨-, o, -, -, ht⟩ | ⟨_, -, ht, -⟩
    · rw [ht]; exact Tables.withNonce_keeps _ _
    · rw [ht]; exact .refl t
  | consume subject nonce now f =>
    rcases consume_cases subject now f hd nonce with ⟨-, o, n, -, -, -, ht⟩ | ⟨_, -, ht, -⟩
    · rw [ht]; exact Tables.spend_keeps _ _ _ _
    · rw [ht]; exact .refl t

/-! ## The table shows what the answers show -/

structure Reflects (es : List Step) (t : Tables) : Prop where
  differ : t.NoncesDiffer
  /-- A row is of a token that was created for its owner. -/
  origin : ∀ r ∈ t.nonces, ∃ ttl, Created es r.owner r.nonce r.createdAt ttl ∧ r.expiresAt = r.createdAt + ttl
  /-- A token that was created has its row. -/
  stored : ∀ o n now ttl, Created es o n now ttl → ∃ r ∈ t.nonces, r.nonce = n ∧ r.owner = o ∧ r.expiresAt = now + ttl
  /-- The consumed rows are those of the tokens that were spent. -/
  spent : ∀ n, Spent es n ↔ ∃ r ∈ t.nonces, r.nonce = n ∧ r.consumedAt.isSome

theorem reflects_nil : Reflects [] Tables.empty where
  differ := List.nodup_nil
  origin r hr := by cases hr
  stored o n now ttl h := by
    obtain ⟨i, subject, f, ha, -⟩ := h
    exact absurd ha.lt (Nat.not_lt_zero i)
  spent n := by
    refine ⟨fun ⟨i, _, _, _, ha⟩ => absurd ha.lt (Nat.not_lt_zero i), fun ⟨r, hr, _⟩ => by cases hr⟩

/-- A step that failed and left the table as it was shows nothing new. -/
theorem Reflects.failed {es : List Step} {t : Tables} (h : Reflects es t) (ht : t = after Step.outcome es) {c : Step}
    {e : Failure} (hc : (c.outcome t).answer = .error e) : Reflects (es ++ [c]) t := by
  have hno : ¬ (c.outcome (after Step.outcome es)).answer = .ok () := fun ha => by
    rw [← ht, hc] at ha
    cases ha
  have hcreated : ∀ o n now ttl, Created (es ++ [c]) o n now ttl ↔ Created es o n now ttl := fun o n now ttl =>
    created_snoc_iff.trans ⟨fun h => h.resolve_right fun ⟨_, _, _, ha, _⟩ => hno ha, Or.inl⟩
  refine ⟨h.differ, fun r hr => ?_, fun o n now ttl hc => ?_, fun n => ?_⟩
  · obtain ⟨ttl, hc, he⟩ := h.origin r hr
    exact ⟨ttl, (hcreated _ _ _ _).mpr hc, he⟩
  · exact h.stored o n now ttl ((hcreated _ _ _ _).mp hc)
  · rw [spent_snoc_iff, h.spent]
    exact ⟨fun h => h.resolve_right fun ⟨_, _, _, _, ha⟩ => hno ha, Or.inl⟩

theorem Reflects.create {es : List Step} {t : Tables} (h : Reflects es t) (ht : t = after Step.outcome es)
    (subject : Subject) (nonce : String) (now ttl : Int) (f : Faults) :
    Reflects (es ++ [.create subject nonce now ttl f]) ((Step.create subject nonce now ttl f).outcome t).tables := by
  rcases create_cases (t := t) subject now ttl f nonce with ⟨ha, o, ho, hn, ht'⟩ | ⟨e, ha, ht', -⟩
  · rw [ht']
    refine ⟨Tables.withNonce_differ h.differ hn, fun r hr => ?_, fun o' n' now' ttl' hc => ?_, fun n => ?_⟩
    · rcases List.mem_append.mp hr with hr | hr
      · obtain ⟨ttl', hc, he⟩ := h.origin r hr
        exact ⟨ttl', created_snoc_iff.mpr (Or.inl hc), he⟩
      · rw [List.mem_singleton.mp hr]
        exact ⟨ttl, created_snoc_iff.mpr (Or.inr ⟨subject, f, rfl, ht ▸ ha, ho⟩), rfl⟩
    · rcases created_snoc_iff.mp hc with hc | ⟨subject', f', hc, -, ho'⟩
      · obtain ⟨r, hr, h'⟩ := h.stored o' n' now' ttl' hc
        exact ⟨r, List.mem_append_left _ hr, h'⟩
      · cases hc
        exact ⟨_, List.mem_append_right _ (List.mem_singleton_self _), rfl, Option.some.inj (ho.symm.trans ho'), rfl⟩
    · have hspent : Spent (es ++ [.create subject nonce now ttl f]) n ↔ Spent es n :=
        spent_snoc_iff.trans ⟨fun h => h.resolve_right (by rintro ⟨_, _, _, hc, -⟩; cases hc), Or.inl⟩
      rw [hspent, h.spent]
      constructor
      · rintro ⟨r, hr, h'⟩
        exact ⟨r, List.mem_append_left _ hr, h'⟩
      · rintro ⟨r, hr, h'⟩
        rcases List.mem_append.mp hr with hr | hr
        · exact ⟨r, hr, h'⟩
        · rw [List.mem_singleton.mp hr] at h'
          cases h'.2
  · rw [ht']
    exact h.failed ht ha

theorem Reflects.consume {es : List Step} {t : Tables} (h : Reflects es t) (ht : t = after Step.outcome es)
    (subject : Subject) (nonce : Option String) (now : Int) (f : Faults) :
    Reflects (es ++ [.consume subject nonce now f]) ((Step.consume subject nonce now f).outcome t).tables := by
  rcases consume_cases subject now f h.differ nonce with ⟨ha, o, m, ho, rfl, hr, ht'⟩ | ⟨e, ha, ht', -⟩
  · have hcreated : ∀ o n c ttl, Created (es ++ [.consume subject (some m) now f]) o n c ttl ↔ Created es o n c ttl :=
      fun o n c ttl => created_snoc_iff.trans ⟨fun h => h.resolve_right (by rintro ⟨_, _, hc, -⟩; cases hc), Or.inl⟩
    rw [ht']
    refine ⟨Tables.spend_differ h.differ _ _ _, fun r' hr' => ?_, fun o' n' now' ttl' hc => ?_, fun n => ?_⟩
    · obtain ⟨r, hm, rfl⟩ := Tables.mem_spend.mp hr'
      obtain ⟨ttl, hc, he⟩ := h.origin r hm
      have hg := r.ages_marked o m now
      refine ⟨ttl, (hcreated _ _ _ _).mpr ?_, ?_⟩
      · rwa [hg.owner, hg.nonce, hg.createdAt]
      · rwa [hg.expiresAt, hg.createdAt]
    · obtain ⟨r, hm, hn, ho', he⟩ := h.stored o' n' now' ttl' ((hcreated _ _ _ _).mp hc)
      have hg := r.ages_marked o m now
      exact ⟨_, Tables.mem_spend.mpr ⟨r, hm, rfl⟩, hg.nonce.trans hn, hg.owner.trans ho', hg.expiresAt.trans he⟩
    · rw [spent_snoc_iff, h.spent]
      constructor
      · rintro (⟨r, hm, hn, hc⟩ | ⟨_, _, _, hc, -⟩)
        · have hg := r.ages_marked o m now
          exact ⟨_, Tables.mem_spend.mpr ⟨r, hm, rfl⟩, hg.nonce.trans hn, by rw [hg.consumed hc]; exact hc⟩
        · cases hc
          obtain ⟨r, hm, hn, hl⟩ := hr
          exact ⟨_, (Tables.mem_of_findNonce? (Tables.findNonce?_spend h.differ hm hn hl)).1, hn, rfl⟩
      · rintro ⟨r', hr', hn, hc⟩
        obtain ⟨r, hm, rfl⟩ := Tables.mem_spend.mp hr'
        rw [NonceRow.marked_nonce] at hn
        by_cases hl : r.nonce = m ∧ r.isLive o now = true
        · rw [← hn, hl.1]
          exact Or.inr ⟨subject, now, f, rfl, ht ▸ ha⟩
        · rw [NonceRow.marked, if_neg hl] at hc
          exact Or.inl ⟨r, hm, hn, hc⟩
  · rw [ht']
    exact h.failed ht ha

theorem reflects (es : List Step) : Reflects es (after Step.outcome es) := by
  induction es using List.reverseRecOn with
  | nil => exact reflects_nil
  | append_singleton es e ih =>
    rw [after_snoc]
    cases e with
    | create subject nonce now ttl f => exact ih.create rfl subject nonce now ttl f
    | consume subject nonce now f => exact ih.consume rfl subject nonce now f

/-! ## One-time tokens -/

theorem Reflects.redeemable_iff {es : List Step} {t : Tables} (h : Reflects es t) {o : Owner} {n : String} {now : Int} :
    t.Redeemable o n now ↔ (∃ c ttl, Created es o n c ttl ∧ now < c + ttl) ∧ ¬ Spent es n := by
  constructor
  · rintro ⟨r, hr, rfl, hl⟩
    obtain ⟨rfl, hc, hlt⟩ := NonceRow.isLive_iff.mp hl
    obtain ⟨ttl, hcr, he⟩ := h.origin r hr
    refine ⟨⟨_, ttl, hcr, he ▸ hlt⟩, fun hs => ?_⟩
    obtain ⟨r', hr', hn, hc'⟩ := (h.spent r.nonce).mp hs
    rw [List.inj_on_of_nodup_map h.differ hr' hr hn, hc] at hc'
    cases hc'
  · rintro ⟨⟨c, ttl, hcr, hlt⟩, hs⟩
    obtain ⟨r, hr, hn, ho, he⟩ := h.stored o n c ttl hcr
    refine ⟨r, hr, hn, NonceRow.isLive_iff.mpr ⟨ho, ?_, he ▸ hlt⟩⟩
    cases hc : r.consumedAt with
    | none => rfl
    | some u => exact absurd ((h.spent n).mpr ⟨r, hr, hn, by rw [hc]; rfl⟩) hs

/-- A fault-free consume succeeds exactly for a token that was created for its owner, is
not spent, and has not expired; any other is refused. -/
theorem consume_succeeds_iff (es : List Step) (subject : Subject) (nonce : Option String) {now : Int} {f : Faults}
    (hq : f.Quiet) (hf : fits now = true) :
    ((outcomeAfter es (.consume subject nonce now f)).answer = .ok () ↔
        ∃ o n, subject.owner? = some o ∧ nonce = some n ∧
          (∃ c ttl, Created es o n c ttl ∧ now < c + ttl) ∧ ¬ Spent es n) ∧
      ((outcomeAfter es (.consume subject nonce now f)).answer = .ok () ∨
        (outcomeAfter es (.consume subject nonce now f)).answer = .error (.refused .nonce)) := by
  have h := reflects es
  rcases consume_cases subject now f h.differ nonce with ⟨ha, o, n, ho, hn, hr, -⟩ | ⟨e, ha, -, he⟩
  · rw [ha]
    exact ⟨iff_of_true rfl ⟨o, n, ho, hn, h.redeemable_iff.mp hr⟩, Or.inl rfl⟩
  · rcases he with ⟨-, hq'⟩ | ⟨-, hf'⟩ | ⟨rfl, -, hr⟩
    · exact absurd hq hq'
    · rw [hf] at hf'; cases hf'
    · rw [ha]
      refine ⟨iff_of_false (by simp) ?_, Or.inr rfl⟩
      rintro ⟨o, n, ho, hn, hc⟩
      exact hr o n ho hn (h.redeemable_iff.mpr hc)

/-- A consume that succeeds finds its token unspent. -/
theorem not_spent_before {es : List Step} {i : Nat} {subject : Subject} {n : String} {now : Int} {f : Faults}
    (h : Answers Step.outcome es i (.consume subject (some n) now f) (.ok ())) : ¬ Spent (es.take i) n := by
  rcases consume_cases subject now f (reflects (es.take i)).differ (some n) with ⟨-, o, m, -, hn, hr, -⟩ | ⟨e, ha, -, -⟩
  · cases hn
    exact ((reflects (es.take i)).redeemable_iff.mp hr).2
  · rw [h.2] at ha
    cases ha

theorem spent_at_most_once {es : List Step} {i j : Nat} {s s' : Subject} {n : String} {u u' : Int} {f f' : Faults}
    (hi : Answers Step.outcome es i (.consume s (some n) u f) (.ok ()))
    (hj : Answers Step.outcome es j (.consume s' (some n) u' f') (.ok ())) : i = j := by
  rcases Nat.lt_trichotomy i j with h | h | h
  · exact absurd ⟨i, s, u, f, answers_take hi h⟩ (not_spent_before hj)
  · exact h
  · exact absurd ⟨j, s', u', f', answers_take hj h⟩ (not_spent_before hi)

/-- Whatever steps follow, no row is lost and a consumed row does not change. -/
theorem run_keeps (es fs : List Step) : Tables.Keeps (after Step.outcome es) (after Step.outcome (es ++ fs)) :=
  after_append Tables.Keeps.refl Tables.Keeps.trans (fun es e => step_keeps (reflects es).differ e) es fs

/-- Of consumes that follow each other, by the owner and in time, the first one takes the token. -/
theorem first_consume_wins (es : List Step) {o : Owner} {n : String} {c ttl : Int} (hc : Created es o n c ttl)
    (hs : ¬ Spent es n) {subject : Subject} (ho : subject.owner? = some o) (tries : List (Int × Faults))
    (ht : ∀ x ∈ tries, x.2.Quiet ∧ fits x.1 = true ∧ x.1 < c + ttl) :
    ∀ k x, tries[k]? = some x →
      (outcomeAfter (es ++ (tries.take k).map fun y => Step.consume subject (some n) y.1 y.2)
        (.consume subject (some n) x.1 x.2)).answer = if k = 0 then .ok () else .error (.refused .nonce) := by
  intro k x hx
  obtain ⟨hq, hf, hlt⟩ := ht x (List.mem_of_getElem? hx)
  have hfirst : ∀ y ∈ tries, (outcomeAfter es (.consume subject (some n) y.1 y.2)).answer = .ok () :=
    fun y hy => (consume_succeeds_iff es subject (some n) (ht y hy).1 (ht y hy).2.1).1.mpr
      ⟨o, n, ho, rfl, ⟨c, ttl, hc, (ht y hy).2.2⟩, hs⟩
  cases k with
  | zero =>
    rw [List.take_zero, List.map_nil, List.append_nil, if_pos rfl]
    exact hfirst x (List.mem_of_getElem? hx)
  | succ k =>
    rw [if_neg (Nat.succ_ne_zero k)]
    cases tries with
    | nil => cases hx
    | cons y rest =>
      -- the first try has spent the token before this one
      have hsp : Spent (es ++ [.consume subject (some n) y.1 y.2]) n :=
        spent_snoc_iff.mpr (Or.inr ⟨subject, y.1, y.2, rfl, hfirst y List.mem_cons_self⟩)
      have hrun := hsp.append ((rest.take k).map fun y => Step.consume subject (some n) y.1 y.2)
      rw [List.append_assoc, List.singleton_append] at hrun
      rw [List.take_succ_cons, List.map_cons]
      obtain ⟨hiff, hor⟩ := consume_succeeds_iff
        (es ++ Step.consume subject (some n) y.1 y.2 :: (rest.take k).map fun y => Step.consume subject (some n) y.1 y.2)
        subject (some n) hq hf
      refine hor.resolve_left fun ha => ?_
      obtain ⟨o', n', -, hn', -, hns⟩ := hiff.mp ha
      cases hn'
      exact hns hrun

/-- A value that is stored is not handed out again. -/
theorem create_collides {t : Tables} {nonce : String} (hn : t.findNonce? nonce ≠ none) (subject : Subject) (now ttl : Int)
    (f : Faults) : ((Step.create subject nonce now ttl f).outcome t).tables = t ∧
      (fits now = true → fits (now + ttl) = true →
        ((Step.create subject nonce now ttl f).outcome t).answer = .error (.refused .storage)) := by
  rcases create_cases (t := t) subject now ttl f nonce with ⟨-, o, -, hn', -⟩ | ⟨e, ha, ht, he⟩
  · exact absurd hn' hn
  · refine ⟨ht, fun hf hf' => ?_⟩
    rcases he with rfl | ⟨-, hw⟩
    · exact ha
    · exact absurd ⟨hf, hf'⟩ hw

/-- A reading that no column holds stops a consume before it has an effect. -/
theorem consume_too_wide (es : List Step) (subject : Subject) (nonce : Option String) {now : Int} {f : Faults}
    (hf : fits now = false) :
    ((outcomeAfter es (.consume subject nonce now f)).answer = .error .numberTooWide ∨
        (outcomeAfter es (.consume subject nonce now f)).answer = .error (.refused .storage) ∧
          ¬ f.Quiet) ∧
      (outcomeAfter es (.consume subject nonce now f)).tables = after Step.outcome es := by
  obtain ⟨s, ht, ⟨a, ha, o, n, -, -, -, hf', -⟩ | ⟨e, ha, hs, he⟩⟩ :=
    perform_ends (consume_ends (Session.at_opened _ f) (reflects es).differ subject nonce now)
  · rw [hf] at hf'; cases hf'
  · refine ⟨?_, ht.trans hs.stored⟩
    rcases he with ⟨rfl, hq⟩ | ⟨rfl, -⟩ | ⟨-, hf', -⟩
    · exact Or.inr ⟨ha, hq⟩
    · exact Or.inl ha
    · rw [hf] at hf'; cases hf'

/-- Over every run: a fault-free consume whose reading a column holds succeeds exactly for
a token that was created for its owner, is not spent and has not expired, and is refused
otherwise; no token is spent twice; of consumes in time by the owner the first one
succeeds; rows stay, and a consumed one stays as it is; a create that draws a stored value
fails and changes nothing; a reading that no column holds stops a consume without effect. -/
theorem tokens_are_one_time (es : List Step) :
    (∀ subject nonce now f, f.Quiet → fits now = true →
      ((outcomeAfter es (.consume subject nonce now f)).answer = .ok () ↔
        ∃ o n, subject.owner? = some o ∧ nonce = some n ∧
          (∃ c ttl, Created es o n c ttl ∧ now < c + ttl) ∧ ¬ Spent es n) ∧
      ((outcomeAfter es (.consume subject nonce now f)).answer = .ok () ∨
        (outcomeAfter es (.consume subject nonce now f)).answer = .error (.refused .nonce))) ∧
    (∀ i j s s' n u u' f f', Answers Step.outcome es i (.consume s (some n) u f) (.ok ()) →
      Answers Step.outcome es j (.consume s' (some n) u' f') (.ok ()) → i = j) ∧
    (∀ o n c ttl subject, Created es o n c ttl → ¬ Spent es n → subject.owner? = some o →
      ∀ tries : List (Int × Faults), (∀ x ∈ tries, x.2.Quiet ∧ fits x.1 = true ∧ x.1 < c + ttl) →
        ∀ (k : Nat) x, tries[k]? = some x →
          (outcomeAfter (es ++ (tries.take k).map fun y => Step.consume subject (some n) y.1 y.2)
            (.consume subject (some n) x.1 x.2)).answer = if k = 0 then .ok () else .error (.refused .nonce)) ∧
    (∀ fs, Tables.Keeps (after Step.outcome es) (after Step.outcome (es ++ fs))) ∧
    (∀ subject nonce now ttl f, (after Step.outcome es).findNonce? nonce ≠ none →
      (outcomeAfter es (.create subject nonce now ttl f)).tables = after Step.outcome es ∧
        (fits now = true → fits (now + ttl) = true →
          (outcomeAfter es (.create subject nonce now ttl f)).answer = .error (.refused .storage))) ∧
    (∀ subject nonce now f, fits now = false →
      ((outcomeAfter es (.consume subject nonce now f)).answer = .error .numberTooWide ∨
          (outcomeAfter es (.consume subject nonce now f)).answer = .error (.refused .storage) ∧
            ¬ f.Quiet) ∧
        (outcomeAfter es (.consume subject nonce now f)).tables = after Step.outcome es) :=
  ⟨fun subject nonce _ _ hq hf => consume_succeeds_iff es subject nonce hq hf,
    fun _ _ _ _ _ _ _ _ _ hi hj => spent_at_most_once hi hj,
    fun _ _ _ _ _ hc hs ho tries ht => first_consume_wins es hc hs ho tries ht,
    run_keeps es,
    fun subject _ now ttl f hn => create_collides hn subject now ttl f,
    fun subject nonce _ _ hf => consume_too_wide es subject nonce hf⟩

/-- A token made at second 0 for ten seconds is taken at second 9, and refused at 10. -/
theorem token_of_ten_seconds :
    let subject : Subject := ⟨some "evm", some "0x00"⟩
    let es : List Step := [.create subject "ab" 0 10 {}]
    (outcomeAfter es (.consume subject (some "ab") 9 {})).answer = .ok () ∧
      (outcomeAfter es (.consume subject (some "ab") 10 {})).answer = .error (.refused .nonce) := by
  intro subject es
  have hc : Created es ⟨"evm", "0x00"⟩ "ab" 0 10 := ⟨0, subject, {}, ⟨rfl, rfl⟩, rfl⟩
  have hs : ¬ Spent es "ab" := by
    rintro ⟨i, s, u, f, ha⟩
    rcases i with _ | i <;> cases ha.1
  obtain ⟨hat9, -⟩ := (tokens_are_one_time es).1 subject (some "ab") 9 {} Faults.quiet_default (by decide)
  obtain ⟨hat10, hrefused⟩ := (tokens_are_one_time es).1 subject (some "ab") 10 {} Faults.quiet_default (by decide)
  refine ⟨hat9.mpr ⟨_, _, rfl, rfl, ⟨0, 10, hc, by decide⟩, hs⟩, hrefused.resolve_left fun ha => ?_⟩
  obtain ⟨o, n, -, -, ⟨c, ttl, ⟨i, s, f, ha, -⟩, hlt⟩, -⟩ := hat10.mp ha
  rcases i with _ | i <;> cases ha.1
  exact absurd hlt (by decide)

/-- At a reading of more than 64 bits a token that does not exist is not refused as such:
the call stops at the width of the column. -/
theorem too_late_a_clock_is_no_refusal :
    let step := Step.consume ⟨some "evm", some "0x00"⟩ (some "ab") 10000000000000000000 {}
    (outcomeAfter [] step).answer ≠ .ok () ∧ (outcomeAfter [] step).answer ≠ .error (.refused .nonce) ∧
      (outcomeAfter [] step).answer = .error .numberTooWide := by
  refine ⟨?_, ?_, rfl⟩
  · intro h; cases h
  · intro h; cases h

end WalletLogin.Login.Nonces
