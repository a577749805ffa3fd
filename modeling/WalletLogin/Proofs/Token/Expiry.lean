/-
  WalletLogin.Proofs.Token.Expiry — how long a token is accepted.

  Of the times that claims name only the expiry can turn an accepted token away later:
  those of the issue and of the first use, once they have come, have come for good
  (`check_later`). The expiry is not among the claims that a token has to have, so a token
  that names none is accepted for ever.

  Proved:
  - `accepted_tokens_last_until_their_expiry`: an accepted token is refused from some time
    on if and only if its claims name an expiry, and then it has expired from that second
    on.
  - `token_without_expiry_lasts_for_ever`: such a token, sealed and complete, that is
    accepted at every time.
-/

import WalletLogin.Proofs.Token.RoundTrip

namespace WalletLogin.Token

namespace Check

variable {token secret algorithm : String} {claims : List (String × Json)} {clock : Int}

/-- The clock does not fall behind a time again that it has come to. -/
theorem isUntimely_later (h : isUntimely clock claims = false) {t : Int} (ht : clock ≤ t) : isUntimely t claims = false := by
  obtain ⟨hissued, hbegun, hexp⟩ := isUntimely_eq_false_iff.mp h
  refine isUntimely_eq_false_iff.mpr ⟨fun v hv => ?_, fun v hv => ?_, hexp⟩
  · obtain ⟨n, hn, hle⟩ := hissued v hv
    exact ⟨n, hn, hle.trans ht⟩
  · obtain ⟨n, hn, hle⟩ := hbegun v hv
    exact ⟨n, hn, hle.trans ht⟩

/-- What becomes of a token that was accepted: nothing but its expiry is held against it. -/
theorem check_later (h : check token secret algorithm clock = .ok claims) {t : Int} (ht : clock ≤ t) :
    check token secret algorithm t = if isExpired t claims then .error (.rejected .expired) else .ok claims := by
  obtain ⟨ha, hin, hform, hall⟩ := check_eq_ok_iff.mp h
  simp only [check_of_authentic ha, judge, isUntimely_later (inForce_iff.mp hin).1 ht, hform, hall, Bool.false_eq_true, if_false]

theorem isExpired_of_whole? {v : Json} {n : Int} (hv : Json.find? "exp" claims = some v) (hn : v.whole? = some n) (t : Int) :
    isExpired t claims = decide (n * 1000 ≤ t) := by
  simp [isExpired, timed, hv, hn, isReached]

theorem isExpired_of_find?_eq_none (h : Json.find? "exp" claims = none) (t : Int) : isExpired t claims = false := by
  simp [isExpired, timed, h]

/-- An accepted token is refused from some time on if and only if its claims name an
expiry. That is a number of seconds then, and the token has expired from there on, and is
accepted until then. A token that names none stays accepted. -/
theorem accepted_tokens_last_until_their_expiry (h : check token secret algorithm clock = .ok claims) :
    ((∃ later, clock ≤ later ∧ ∀ t, later ≤ t → ∀ c, check token secret algorithm t ≠ .ok c) ↔
      (Json.find? "exp" claims).isSome = true) ∧
    (∀ v, Json.find? "exp" claims = some v → ∃ n, v.whole? = some n ∧ ∀ t, clock ≤ t →
      check token secret algorithm t = if n * 1000 ≤ t then .error (.rejected .expired) else .ok claims) ∧
    (Json.find? "exp" claims = none → ∀ t, clock ≤ t → check token secret algorithm t = .ok claims) := by
  have hnamed : ∀ v, Json.find? "exp" claims = some v → ∃ n, v.whole? = some n ∧ ∀ t, clock ≤ t →
      check token secret algorithm t = if n * 1000 ≤ t then .error (.rejected .expired) else .ok claims := by
    intro v hv
    obtain ⟨n, hn, -⟩ := (check_eq_ok_iff.mp h).2.1.unexpired v hv
    refine ⟨n, hn, fun t ht => ?_⟩
    simp only [check_later h ht, isExpired_of_whole? hv hn, decide_eq_true_eq]
  have hlasting : Json.find? "exp" claims = none → ∀ t, clock ≤ t → check token secret algorithm t = .ok claims := by
    intro hnone t ht
    simp only [check_later h ht, isExpired_of_find?_eq_none hnone, Bool.false_eq_true, if_false]
  refine ⟨⟨fun ⟨later, hle, hno⟩ => ?_, fun hsome => ?_⟩, hnamed, hlasting⟩
  · by_contra hnone
    rw [Bool.not_eq_true, Option.isSome_eq_false_iff, Option.isNone_iff_eq_none] at hnone
    exact hno later le_rfl claims (hlasting hnone later hle)
  · obtain ⟨v, hv⟩ := Option.isSome_iff_exists.mp hsome
    obtain ⟨n, -, hexp⟩ := hnamed v hv
    refine ⟨max clock (n * 1000), le_max_left _ _, fun t ht c hc => ?_⟩
    rw [hexp t ((le_max_left _ _).trans ht), if_pos ((le_max_right _ _).trans ht)] at hc
    cases hc

end Check

/-! ## A token with an expiry and one without -/

theorem Secret.prepare_plain : Secret.prepare "secret" "HS256" = .ok .hs256 := by decide +kernel

theorem sample_token_accepted :
    Check.check (Issue.token .hs256 "secret" sampleClaims) "secret" "HS256" 5500 = .ok sampleClaims.fields := by
  rw [Check.check_token Secret.prepare_plain (by decide) (by decide), if_neg (by decide), if_neg (by decide)]

/-- The claims of the sample expire. -/
theorem sample_token_expires : ∃ later, 5500 ≤ later ∧ ∀ t, later ≤ t → ∀ c,
    Check.check (Issue.token .hs256 "secret" sampleClaims) "secret" "HS256" t ≠ .ok c :=
  (Check.accepted_tokens_last_until_their_expiry sample_token_accepted).1.mpr (by decide)

/-- All claims that a token has to have. -/
def lastingFields : List (String × Json) :=
  [("sub", .text "user"), ("role", .text "contributor"), ("wallet_type", .text "evm"), ("address", .text "0x0")]

theorem isFlat_lastingFields : Json.Reader.IsFlat lastingFields where
  keys := by decide
  values f hf := by
    simp only [lastingFields, List.mem_cons, List.not_mem_nil, or_false] at hf
    rcases hf with rfl | rfl | rfl | rfl
    · exact .text _
    · exact .text _
    · exact .text _
    · exact .text _

/-- A token that names no expiry is accepted at every time, so there is none from which on
it is refused. -/
theorem token_without_expiry_lasts_for_ever :
    (∀ t, Check.check (Issue.tokenOf .hs256 "secret" lastingFields) "secret" "HS256" t = .ok lastingFields) ∧
    ¬ ∃ later, ∀ t, later ≤ t → ∀ c,
      Check.check (Issue.tokenOf .hs256 "secret" lastingFields) "secret" "HS256" t ≠ .ok c := by
  have hall (t : Int) :
      Check.check (Issue.tokenOf .hs256 "secret" lastingFields) "secret" "HS256" t = .ok lastingFields := by
    rw [Check.check_of_authentic (Check.authentic_tokenOf Secret.prepare_plain isFlat_lastingFields)]
    rfl
  exact ⟨hall, fun ⟨later, hno⟩ => hno later le_rfl _ (hall later)⟩

end WalletLogin.Token
