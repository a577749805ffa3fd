/-
  WalletLogin.Proofs.Token.Secret — the secrets and algorithms that can be used.

  Issue and check prepare the secret for the algorithm in the same way. What the issue
  refuses for that reason, whatever the claims are, the check accepts no token of; and with
  a secret and an algorithm that can be used some claims are signed, and their token is
  accepted. So the two agree on what can be used.

  Proved:
  - `Secret.prepare_error_iff`: the secrets and algorithms that cannot be used, the empty
    secret among them.
  - `nothing_signed_iff_nothing_accepted`: where nothing is signed no token is ever accepted,
    and only there.
-/

import WalletLogin.Proofs.Token.RoundTrip

namespace WalletLogin.Token

variable {secret algorithm : String}

/-- No claims are signed with the secret and the algorithm, for no user and no time. -/
def Issue.SignsNothing (secret algorithm : String) : Prop :=
  ∀ (user : Json) (role walletType address : Option String) (ttl now : Int),
    ∃ f, Issue.issue secret algorithm (.granted user role walletType address ttl now) = .error f

/-- Claims of nobody, in force for the first second of the clock. -/
def Claims.ofFirstSecond : Claims := .granted (.text "") none none none 1 0

/-- The secrets and algorithms that cannot be used. -/
theorem Secret.prepare_error_iff : (∃ f, prepare secret algorithm = .error f) ↔ algorithm ∉ ["HS256", "HS384", "HS512"] ∨
    secret = "" ∨ isAsymmetric secret.toList = true ∨ isKeyObject secret = true := by
  have hname : Algorithm.ofName? algorithm = none ↔ algorithm ∉ ["HS256", "HS384", "HS512"] := by
    rw [Algorithm.ofName?, List.find?_eq_none]
    simp [Algorithm.all, Algorithm.name, eq_comm]
  unfold prepare
  cases ha : Algorithm.ofName? algorithm with
  | none => exact iff_of_true ⟨_, rfl⟩ (.inl (hname.mp ha))
  | some a =>
    have hmem : ¬ algorithm ∉ ["HS256", "HS384", "HS512"] := fun h => by
      rw [hname.mpr h] at ha
      cases ha
    dsimp only
    split_ifs with he hs hk
    · exact iff_of_true ⟨_, rfl⟩ (.inr (.inl he))
    · exact iff_of_true ⟨_, rfl⟩ (.inr (.inr (.inl hs)))
    · exact iff_of_true ⟨_, rfl⟩ (.inr (.inr (.inr hk)))
    · exact iff_of_false (by simp) (not_or.mpr ⟨hmem, not_or.mpr ⟨he, not_or.mpr ⟨hs, hk⟩⟩⟩)

/-- A secret that can be used with the algorithm signs some claims. -/
theorem Issue.issue_ofFirstSecond {a : Algorithm} (ha : Secret.prepare secret algorithm = .ok a) :
    issue secret algorithm .ofFirstSecond = .ok (token a secret .ofFirstSecond) := by
  have hs : secret ≠ "" := fun he => by
    obtain ⟨f, hf⟩ := Secret.prepare_error_iff.mpr (.inr (.inl he))
    cases hf.symm.trans ha
  exact issue_eq_ok_iff.mpr ⟨hs, by decide, a, ha, rfl⟩

theorem Issue.signsNothing_iff : SignsNothing secret algorithm ↔ ∃ f, Secret.prepare secret algorithm = .error f := by
  constructor
  · intro h
    cases ha : Secret.prepare secret algorithm with
    | error f => exact ⟨f, rfl⟩
    | ok a =>
      obtain ⟨f, hf⟩ := h (.text "") none none none 1 0
      cases hf.symm.trans (issue_ofFirstSecond ha)
  · rintro ⟨f, hf⟩ user role walletType address ttl now
    cases hi : issue secret algorithm (.granted user role walletType address ttl now) with
    | error f => exact ⟨f, rfl⟩
    | ok tok =>
      obtain ⟨-, -, a, ha, -⟩ := issue_eq_ok_iff.mp hi
      cases hf.symm.trans ha

/-- The token of the first second is accepted in it. -/
theorem Check.check_ofFirstSecond {a : Algorithm} (ha : Secret.prepare secret algorithm = .ok a) :
    check (Issue.token a secret .ofFirstSecond) secret algorithm 0 = .ok Claims.ofFirstSecond.fields := by
  rw [check_token ha (by decide) (by decide), if_neg (by decide), if_neg (by decide)]

/-- Where a token is accepted the secret can be used with the algorithm. -/
theorem Check.exists_prepare_of_ok {token : String} {clock : Int} {claims : List (String × Json)}
    (h : check token secret algorithm clock = .ok claims) : ∃ a, Secret.prepare secret algorithm = .ok a := by
  obtain ⟨header, content, signature, hv, -⟩ := authentic_eq_ok_iff.mp (check_eq_ok_iff.mp h).1
  obtain ⟨a, ha, -⟩ := hv.signed
  exact ⟨a, ha⟩

/-- Where no claims are signed, whatever they are, no token is accepted at any time; and some
token is accepted wherever some claims are signed. -/
theorem nothing_signed_iff_nothing_accepted (secret algorithm : String) : Issue.SignsNothing secret algorithm ↔
    ∀ token clock, ∃ f, Check.check token secret algorithm clock = .error f := by
  rw [Issue.signsNothing_iff]
  constructor
  · rintro ⟨f, hf⟩ token clock
    cases h : Check.check token secret algorithm clock with
    | error g => exact ⟨g, rfl⟩
    | ok claims =>
      obtain ⟨a, ha⟩ := Check.exists_prepare_of_ok h
      cases hf.symm.trans ha
  · intro h
    cases ha : Secret.prepare secret algorithm with
    | error f => exact ⟨f, rfl⟩
    | ok a =>
      obtain ⟨f, hf⟩ := h (Issue.token a secret .ofFirstSecond) 0
      cases hf.symm.trans (Check.check_ofFirstSecond ha)

/-- A key of another kind signs nothing, and not even the token that its text seals is
accepted. Neither does the empty text. -/
theorem keys_accept_nothing :
    (∃ f, Check.check (Issue.token .hs256 "ssh-rsa AAAA" sampleClaims) "ssh-rsa AAAA" "HS256" 5500 = .error f) ∧
      ∃ f, Check.check (Issue.token .hs256 "" sampleClaims) "" "HS256" 5500 = .error f := by
  have hkey : Issue.SignsNothing "ssh-rsa AAAA" "HS256" := Issue.signsNothing_iff.mpr ⟨.asymmetricKey, by decide +kernel⟩
  have hempty : Issue.SignsNothing "" "HS256" := Issue.signsNothing_iff.mpr ⟨.empty, by decide +kernel⟩
  exact ⟨(nothing_signed_iff_nothing_accepted _ _).mp hkey _ _, (nothing_signed_iff_nothing_accepted _ _).mp hempty _ _⟩

end WalletLogin.Token
