/-
  WalletLogin.Proofs.Token.Interval — the times at which a token is accepted have no gap.

  The clock turns the verdict on a token twice at most. Until the times of issue and of first
  use have come the token is invalid, from its expiry on it is expired, and in between the
  verdict is one that no clock has a part in (`standing`). A time that has come does not go
  away, and an expiry does not either (`isUntimely_later`, `isExpired_later`), whether the
  claims name the times or not, and whatever kind of number they name.

  Proved:
  - `check_eq`: the verdict on an authentic token, by the clock.
  - `tokens_are_accepted_in_one_interval`: what is accepted at two times is accepted between
    them, with the same claims; what has expired stays so; and a token that lacks a claim is
    accepted at no time.
-/

import WalletLogin.Proofs.Token.Expiry

namespace WalletLogin.Token

namespace Check

variable {token secret algorithm : String} {claims : List (String × Json)} {t t' : Int}

/-! ## The clock -/

/-- An expiry that has come has come for good. -/
theorem isExpired_later (h : isExpired t claims = true) (ht : t ≤ t') : isExpired t' claims = true := by
  by_contra hno
  rw [Bool.not_eq_true, isExpired_eq_false_iff] at hno
  refine absurd h (Bool.eq_false_iff.mp (isExpired_eq_false_iff.mpr fun v hv => ?_))
  obtain ⟨n, hn, hlt⟩ := hno v hv
  exact ⟨n, hn, ht.trans_lt hlt⟩

/-- The verdict on claims whose times are in order. -/
def standing (claims : List (String × Json)) : Except Fault (List (String × Json)) :=
  if isIllFormed claims then .error (.rejected .invalid)
  else if lacksClaim claims then .error (.rejected .incomplete)
  else .ok claims

theorem standing_ne_expired (claims : List (String × Json)) : standing claims ≠ .error (.rejected .expired) := by
  unfold standing
  split
  · simp
  · split <;> simp

/-- The verdict on an authentic token. -/
theorem check_eq (h : authentic token secret algorithm = .ok claims) (t : Int) : check token secret algorithm t =
    if isUntimely t claims then .error (.rejected .invalid)
    else if isExpired t claims then .error (.rejected .expired)
    else standing claims :=
  check_of_authentic h t

theorem authentic_of_ok {c : List (String × Json)} (h : check token secret algorithm t = .ok c) :
    authentic token secret algorithm = .ok c :=
  (check_eq_ok_iff.mp h).1

/-- Accepted at some time, a token is so at each other time at which its claims are in force. -/
theorem check_between {c : List (String × Json)} (h : check token secret algorithm t = .ok c) {t₁ t₂ : Int}
    (h₁ : isUntimely t₁ c = false) (ht : t₁ ≤ t') (h₂ : isExpired t₂ c = false) (ht' : t' ≤ t₂) :
    check token secret algorithm t' = .ok c := by
  obtain ⟨ha, -, hform, hall⟩ := check_eq_ok_iff.mp h
  have hunexpired : isExpired t' c = false := by
    rw [Bool.eq_false_iff]
    intro hexpired
    rw [isExpired_later hexpired ht'] at h₂
    cases h₂
  exact check_eq_ok_iff.mpr ⟨ha, inForce_iff.mpr ⟨isUntimely_later h₁ ht, hunexpired⟩, hform, hall⟩

/-- Only an authentic token that the clock has reached, and whose expiry it has reached too, is
called expired. -/
theorem check_eq_expired_iff : check token secret algorithm t = .error (.rejected .expired) ↔
    ∃ c, authentic token secret algorithm = .ok c ∧ isUntimely t c = false ∧ isExpired t c = true := by
  constructor
  · intro h
    obtain ⟨c, ha⟩ := authentic_of_rejected h (by simp) (by simp)
    rw [check_eq ha] at h
    cases hu : isUntimely t c <;> cases he : isExpired t c <;> simp [hu, he, standing_ne_expired] at h
    exact ⟨c, ha, hu, he⟩
  · rintro ⟨c, ha, hu, he⟩
    rw [check_eq ha, hu, he]
    rfl

theorem check_expired_later (h : check token secret algorithm t = .error (.rejected .expired)) (ht : t ≤ t') :
    check token secret algorithm t' = .error (.rejected .expired) := by
  obtain ⟨c, ha, hbegun, hexpired⟩ := check_eq_expired_iff.mp h
  exact check_eq_expired_iff.mpr ⟨c, ha, isUntimely_later hbegun ht, isExpired_later hexpired ht⟩

/-- Whether a claim is missing is not for the clock to say. -/
theorem lacksClaim_of_incomplete (h : check token secret algorithm t = .error (.rejected .incomplete)) :
    ∃ c, authentic token secret algorithm = .ok c ∧ lacksClaim c = true := by
  obtain ⟨c, ha⟩ := authentic_of_rejected h (by simp) (by simp)
  refine ⟨c, ha, ?_⟩
  by_contra hl
  rw [check_eq ha, standing, if_neg hl] at h
  split_ifs at h <;> cases h

theorem check_ne_ok_of_incomplete (h : check token secret algorithm t = .error (.rejected .incomplete)) (c : List (String × Json)) :
    check token secret algorithm t' ≠ .ok c := by
  intro hok
  obtain ⟨c', ha, hlacks⟩ := lacksClaim_of_incomplete h
  obtain ⟨ha', -, -, hall⟩ := check_eq_ok_iff.mp hok
  cases ha.symm.trans ha'
  rw [hall] at hlacks
  cases hlacks

/-- The words of the answers are apart. -/
theorem message_injective : Function.Injective Rejection.message := by
  intro r r' h
  cases r <;> cases r' <;> first | rfl | exact absurd h (by decide)

/-- For every token, secret and algorithm, whatever the claims are: a token that is accepted
at two times is accepted at each time between them, with the same claims; accepted at any
two times, it has the same claims; a token that has expired has expired at every later time;
and a token that is called incomplete at some time is accepted at none. -/
theorem tokens_are_accepted_in_one_interval (token secret algorithm : String) :
    (∀ t₁ t₂ t₃ : Int, t₁ ≤ t₂ → t₂ ≤ t₃ → ∀ c c', check token secret algorithm t₁ = .ok c →
      check token secret algorithm t₃ = .ok c' → check token secret algorithm t₂ = .ok c) ∧
    (∀ (t t' : Int) c c', check token secret algorithm t = .ok c → check token secret algorithm t' = .ok c' → c = c') ∧
    (∀ t t' : Int, t ≤ t' → ∀ r, check token secret algorithm t = .error (.rejected r) → r.message = "Token expired" →
      check token secret algorithm t' = .error (.rejected r)) ∧
    ∀ (t : Int) r, check token secret algorithm t = .error (.rejected r) → r.message = "Invalid token payload" →
      ∀ t' c, check token secret algorithm t' ≠ .ok c := by
  have hsame : ∀ (t t' : Int) c c', check token secret algorithm t = .ok c → check token secret algorithm t' = .ok c' →
      c = c' := fun t t' c c' h h' => Except.ok.inj ((authentic_of_ok h).symm.trans (authentic_of_ok h'))
  refine ⟨fun t₁ t₂ t₃ h₁₂ h₂₃ c c' h₁ h₃ => ?_, hsame, fun t t' ht r h hr => ?_, fun t r h hr t' c => ?_⟩
  · obtain rfl := hsame _ _ _ _ h₁ h₃
    exact check_between h₁ (inForce_iff.mp (check_eq_ok_iff.mp h₁).2.1).1 h₁₂
      (inForce_iff.mp (check_eq_ok_iff.mp h₃).2.1).2 h₂₃
  · obtain rfl : r = .expired := message_injective hr
    exact check_expired_later h ht
  · obtain rfl : r = .incomplete := message_injective hr
    exact check_ne_ok_of_incomplete h c

end Check

/-! ## A token in the middle, at the end and without its claims -/

/-- Claims that say nothing but when they end. -/
def emptyFields : List (String × Json) := [("exp", .int 901)]

theorem isFlat_emptyFields : Json.Reader.IsFlat emptyFields where
  keys := by decide
  values f hf := by
    simp only [emptyFields, List.mem_cons, List.not_mem_nil, or_false] at hf
    rcases hf with rfl
    exact .int (by decide)

/-- The sample is in force from second 1 until second 901. -/
theorem sample_token_is_accepted_between :
    Check.check (Issue.token .hs256 "secret" sampleClaims) "secret" "HS256" 5500 = .ok sampleClaims.fields ∧
      Check.check (Issue.token .hs256 "secret" sampleClaims) "secret" "HS256" 1000000 = .error (.rejected .expired) ∧
      ∀ t c, Check.check (Issue.tokenOf .hs256 "secret" emptyFields) "secret" "HS256" t ≠ .ok c := by
  have hsample := Check.check_token (c := sampleClaims) Secret.prepare_plain (by decide) (by decide)
  have hfirst : Check.check (Issue.token .hs256 "secret" sampleClaims) "secret" "HS256" 1000 = .ok sampleClaims.fields := by
    rw [hsample, if_neg (by decide), if_neg (by decide)]
  have hlast : Check.check (Issue.token .hs256 "secret" sampleClaims) "secret" "HS256" 900999 = .ok sampleClaims.fields := by
    rw [hsample, if_neg (by decide), if_neg (by decide)]
  have hover : Check.check (Issue.token .hs256 "secret" sampleClaims) "secret" "HS256" 901000 = .error (.rejected .expired) := by
    rw [hsample, if_neg (by decide), if_pos (by decide)]
  have hempty : Check.check (Issue.tokenOf .hs256 "secret" emptyFields) "secret" "HS256" 0 = .error (.rejected .incomplete) := by
    rw [Check.check_of_authentic (Check.authentic_tokenOf Secret.prepare_plain isFlat_emptyFields)]
    rfl
  obtain ⟨hbetween, -, hexpired, -⟩ :=
    Check.tokens_are_accepted_in_one_interval (Issue.token .hs256 "secret" sampleClaims) "secret" "HS256"
  obtain ⟨-, -, -, hnever⟩ :=
    Check.tokens_are_accepted_in_one_interval (Issue.tokenOf .hs256 "secret" emptyFields) "secret" "HS256"
  exact ⟨hbetween 1000 5500 900999 (by decide) (by decide) _ _ hfirst hlast,
    hexpired 901000 1000000 (by decide) _ hover rfl, hnever 0 _ hempty rfl⟩

end WalletLogin.Token
