/-
  WalletLogin.Proofs.Token.RoundTrip — a token says what it was issued for.

  A token's header and claims are flat objects, so their segments are read back as they
  were written; no segment holds a point, so the token falls apart where it was put
  together; and the algorithm and the secret that signed it are those that the check asks
  for. What is left of the check is the clock (`check_issued`).

  Proved:
  - `check_issued`: what the check of an issued token says, at every time.
  - `tokens_say_what_they_were_issued_for`: an issued token has three segments in the
    alphabet of tokens, its check returns its claims from its issue on until it expires,
    and no other claims have the same token.
-/

import WalletLogin.Proofs.Encoding.Base64Url
import WalletLogin.Proofs.Json.RoundTrip
import WalletLogin.Proofs.Token.Authenticity

namespace WalletLogin

open Encoding

namespace Token

/-! ## Objects in a token -/

namespace Claims

/-- The members of the claims' object. -/
def fields (c : Claims) : List (String × Json) := [
  ("sub", .text c.user), ("role", Json.ofOption .text c.role), ("wallet_type", Json.ofOption .text c.walletType),
  ("address", Json.ofOption .text c.address), ("iat", .int c.issuedAt), ("exp", .int c.expiresAt)]

theorem toJson_eq (c : Claims) : c.toJson = .object c.fields := rfl

theorem isScalar_ofOption (o : Option String) : Json.Reader.IsScalar (Json.ofOption .text o) := by
  cases o with
  | none => exact .null
  | some s => exact .text s

theorem isFlat_fields {c : Claims} (hi : Issue.fits c.issuedAt = true) (he : Issue.fits c.expiresAt = true) :
    Json.Reader.IsFlat c.fields where
  keys := by simp [fields]
  values f hf := by
    simp only [fields, List.mem_cons, List.not_mem_nil, or_false] at hf
    rcases hf with rfl | rfl | rfl | rfl | rfl | rfl
    · exact .text _
    · exact isScalar_ofOption _
    · exact isScalar_ofOption _
    · exact isScalar_ofOption _
    · exact .int (of_decide_eq_true hi)
    · exact .int (of_decide_eq_true he)

theorem ofOption_text_inj {o o' : Option String} (h : Json.ofOption .text o = Json.ofOption .text o') : o = o' := by
  cases o <;> cases o' <;> simp [Json.ofOption] at h ⊢
  exact h

theorem fields_inj {c c' : Claims} (h : c.fields = c'.fields) : c = c' := by
  simp only [fields, List.cons.injEq, Prod.mk.injEq, true_and, and_true, Json.text.injEq, Json.int.injEq] at h
  obtain ⟨hu, hr, hw, ha, hi, he⟩ := h
  cases c
  cases c'
  simp only [mk.injEq]
  exact ⟨hu, ofOption_text_inj hr, ofOption_text_inj hw, ofOption_text_inj ha, hi, he⟩

end Claims

namespace Issue

def headerFields (a : Algorithm) : List (String × Json) := [("alg", .text a.name), ("typ", .text "JWT")]

theorem isFlat_headerFields (a : Algorithm) : Json.Reader.IsFlat (headerFields a) where
  keys := by simp [headerFields]
  values f hf := by
    simp only [headerFields, List.mem_cons, List.not_mem_nil, or_false] at hf
    rcases hf with rfl | rfl
    · exact .text _
    · exact .text _

/-- The object of a segment is read back. -/
theorem object_ofText_write {fs : List (String × Json)} (h : Json.Reader.IsFlat fs) :
    Check.object (Bytes.ofText (Json.Writer.write (.object fs))) = .ok fs :=
  Check.object_eq_ok_iff.mpr (Json.Reader.readBytes_write h)

theorem point_not_mem_segment (j : Json) : '.' ∉ segment j := Base64Url.point_not_mem_encode _

/-- The token of any object, as whoever holds the secret can make it. -/
def tokenOf (a : Algorithm) (secret : String) (fields : List (String × Json)) : String :=
  let input := segment (header a) ++ '.' :: segment (.object fields)
  String.ofList (input ++ '.' :: Base64Url.encode (a.sign (Bytes.ofText secret) (asciiBytes input)))

/-- The signature of the claims. -/
def signature (a : Algorithm) (secret : String) (c : Claims) : Bytes :=
  a.sign (Bytes.ofText secret) (asciiBytes (signingInput a c))

theorem toList_token (a : Algorithm) (secret : String) (c : Claims) : (token a secret c).toList =
    segment (header a) ++ '.' :: segment c.toJson ++ '.' :: Base64Url.encode (signature a secret c) := by
  simp [token, signingInput, signature]

theorem issue_eq_ok_iff {secret algorithm tok : String} {c : Claims} : issue secret algorithm c = .ok tok ↔
    secret ≠ "" ∧ (fits c.issuedAt = true ∧ fits c.expiresAt = true) ∧
      ∃ a, Secret.prepare secret algorithm = .ok a ∧ tok = token a secret c := by
  unfold issue
  by_cases hs : secret = ""
  · simp [hs]
  · by_cases hf : fits c.issuedAt = true ∧ fits c.expiresAt = true
    · cases hp : Secret.prepare secret algorithm with
      | error f => simp [hs, hf]
      | ok a => simp [hs, hf, eq_comm]
    · have hf' : (!(fits c.issuedAt && fits c.expiresAt)) = true := by
        rw [Bool.not_eq_true', Bool.and_eq_false_iff]
        grind
      simp [hs, hf, hf']

end Issue

/-! ## Checks -/

namespace Check

theorem headerAdmits_headerFields (a : Algorithm) : headerAdmits a.name (Issue.headerFields a) = true := by
  simp [headerAdmits, optional, Issue.headerFields, Json.find?]

/-- The token of an object is authentic for its secret and its algorithm, and holds the
object. -/
theorem authentic_tokenOf {secret algorithm : String} {a : Algorithm} (hp : Secret.prepare secret algorithm = .ok a)
    {fields : List (String × Json)} (h : Json.Reader.IsFlat fields) :
    authentic (Issue.tokenOf a secret fields) secret algorithm = .ok fields := by
  obtain rfl := Secret.name_of_prepare hp
  have hparts : Parts (Issue.tokenOf a secret fields) (Issue.segment (Issue.header a)) (Issue.segment (.object fields))
      (Base64Url.encode (a.sign (Bytes.ofText secret)
        (Issue.asciiBytes (Issue.segment (Issue.header a) ++ '.' :: Issue.segment (.object fields))))) :=
    ⟨by simp [Issue.tokenOf], Issue.point_not_mem_segment _, Base64Url.point_not_mem_encode _⟩
  have hheader : Encodes (Issue.segment (Issue.header a)) (Issue.headerFields a) :=
    ⟨_, Base64Url.decode?_encode _, Json.Reader.readBytes_write (Issue.isFlat_headerFields a)⟩
  have hcontent : Encodes (Issue.segment (.object fields)) fields :=
    ⟨_, Base64Url.decode?_encode _, Json.Reader.readBytes_write h⟩
  exact authentic_eq_ok_iff.mpr ⟨_, _, _, ⟨hparts, ⟨_, hheader, headerAdmits_headerFields a⟩,
    ⟨a, hp, Base64Url.decode?_encode _⟩⟩, hcontent⟩

/-- An issued token is authentic for its secret and its algorithm, and holds its claims. -/
theorem authentic_token {secret algorithm : String} {a : Algorithm} {c : Claims}
    (hp : Secret.prepare secret algorithm = .ok a) (hi : Issue.fits c.issuedAt = true) (he : Issue.fits c.expiresAt = true) :
    authentic (Issue.token a secret c) secret algorithm = .ok c.fields :=
  authentic_tokenOf hp (Claims.isFlat_fields hi he)

/-- Of the claims of a token only the times can be objected to, first that of its issue. -/
theorem judge_fields (c : Claims) (clock : Int) : judge clock c.fields =
    if clock < c.issuedAt * 1000 then .error (.rejected .invalid)
    else if c.expiresAt * 1000 ≤ clock then .error (.rejected .expired)
    else .ok c.fields := by
  have hiat : Json.find? "iat" c.fields = some (.int c.issuedAt) := by simp [Claims.fields, Json.find?]
  have hexp : Json.find? "exp" c.fields = some (.int c.expiresAt) := by simp [Claims.fields, Json.find?]
  have hnbf : Json.find? "nbf" c.fields = none := by simp [Claims.fields, Json.find?]
  have hform : isIllFormed c.fields = false := by simp [isIllFormed, optional, Claims.fields, Json.find?, isText]
  have hlacks : lacksClaim c.fields = false := by simp [lacksClaim, Claims.required, Claims.fields, Json.find?]
  have huntimely : isUntimely clock c.fields = decide (clock < c.issuedAt * 1000) := by
    simp only [isUntimely, timed, hiat, hexp, hnbf, Json.whole?, isReached, Bool.and_true]
    rw [← decide_not]
    exact decide_eq_decide.mpr Int.not_le
  have hexpired : isExpired clock c.fields = decide (c.expiresAt * 1000 ≤ clock) := by
    simp [isExpired, timed, hexp, Json.whole?, isReached]
  simp only [judge, huntimely, hexpired, hform, hlacks, decide_eq_true_eq, Bool.false_eq_true, if_false]

/-- What the check of a token says that claims were sealed into. -/
theorem check_token {secret algorithm : String} {a : Algorithm} {c : Claims} (hp : Secret.prepare secret algorithm = .ok a)
    (hi : Issue.fits c.issuedAt = true) (he : Issue.fits c.expiresAt = true) (clock : Int) :
    check (Issue.token a secret c) secret algorithm clock =
      if clock < c.issuedAt * 1000 then .error (.rejected .invalid)
      else if c.expiresAt * 1000 ≤ clock then .error (.rejected .expired)
      else .ok c.fields := by
  rw [check_of_authentic (authentic_token hp hi he)]
  exact judge_fields c clock

/-- What the check of an issued token says: it takes the token's claims from the second of
its issue on, until it expires. -/
theorem check_issued {secret algorithm tok : String} {c : Claims} (h : Issue.issue secret algorithm c = .ok tok)
    (clock : Int) : check tok secret algorithm clock =
      if clock < c.issuedAt * 1000 then .error (.rejected .invalid)
      else if c.expiresAt * 1000 ≤ clock then .error (.rejected .expired)
      else .ok c.fields := by
  obtain ⟨-, ⟨hi, he⟩, a, hp, rfl⟩ := Issue.issue_eq_ok_iff.mp h
  exact check_token hp hi he clock

end Check

/-! ## The round trip -/

theorem Issue.cut_token (a : Algorithm) (secret : String) (c : Claims) :
    Text.Pieces.cut '.' (Issue.token a secret c).toList =
      [Issue.segment (Issue.header a), Issue.segment c.toJson, Base64Url.encode (Issue.signature a secret c)] := by
  rw [Issue.toList_token, List.append_assoc, List.cons_append, Text.Pieces.cut_append (Issue.point_not_mem_segment _),
    Text.Pieces.cut_append (Issue.point_not_mem_segment _), Text.Pieces.cut_of_not_mem (Base64Url.point_not_mem_encode _)]

/-- The claims can be told from the token's second segment. -/
theorem Issue.segment_inj {c c' : Claims} (hi : Issue.fits c.issuedAt = true) (he : Issue.fits c.expiresAt = true)
    (hi' : Issue.fits c'.issuedAt = true) (he' : Issue.fits c'.expiresAt = true)
    (h : Issue.segment c.toJson = Issue.segment c'.toJson) : c = c' := by
  have hbytes : Bytes.ofText (Json.Writer.write c.toJson) = Bytes.ofText (Json.Writer.write c'.toJson) := by
    have hd := congrArg Base64Url.decode? h
    simpa only [Issue.segment, Base64Url.decode?_encode, Option.some.injEq] using hd
  have hread := congrArg Check.object hbytes
  rw [Claims.toJson_eq, Claims.toJson_eq, Issue.object_ofText_write (Claims.isFlat_fields hi he),
    Issue.object_ofText_write (Claims.isFlat_fields hi' he')] at hread
  exact Claims.fields_inj (Except.ok.inj hread)

/-- A token that was issued, with whatever secret and algorithm, has three segments, all of
letters, digits, dashes and underscores. With its secret and algorithm its check returns
the object of its claims, at every time from its issue on until it expires. And no secret
and algorithm issue it for other claims. -/
theorem tokens_say_what_they_were_issued_for {secret algorithm tok : String} {c : Claims}
    (h : Issue.issue secret algorithm c = .ok tok) :
    (∃ header content signature, Text.Pieces.cut '.' tok.toList = [header, content, signature] ∧
      ∀ s ∈ [header, content, signature], ∀ x ∈ s, Base64Url.IsUrlSafe x) ∧
    (∀ clock, c.issuedAt * 1000 ≤ clock → clock < c.expiresAt * 1000 →
      ∃ fields, Check.check tok secret algorithm clock = .ok fields ∧ .object fields = c.toJson) ∧
    ∀ secret' algorithm' c', Issue.issue secret' algorithm' c' = .ok tok → c' = c := by
  refine ⟨?_, fun clock hfrom hto => ⟨c.fields, ?_, rfl⟩, fun secret' algorithm' c' h' => ?_⟩
  · obtain ⟨-, -, a, -, rfl⟩ := Issue.issue_eq_ok_iff.mp h
    refine ⟨_, _, _, Issue.cut_token a secret c, fun s hs x hx => ?_⟩
    simp only [List.mem_cons, List.not_mem_nil, or_false] at hs
    rcases hs with rfl | rfl | rfl
    · exact Base64Url.isUrlSafe_of_mem_encode hx
    · exact Base64Url.isUrlSafe_of_mem_encode hx
    · exact Base64Url.isUrlSafe_of_mem_encode hx
  · rw [Check.check_issued h, if_neg (by omega), if_neg (by omega)]
  · obtain ⟨-, ⟨hi, he⟩, a, -, rfl⟩ := Issue.issue_eq_ok_iff.mp h
    obtain ⟨-, ⟨hi', he'⟩, a', -, htok⟩ := Issue.issue_eq_ok_iff.mp h'
    have hcut := congrArg (fun s : String => Text.Pieces.cut '.' s.toList) htok
    simp only [Issue.cut_token, List.cons.injEq, and_true] at hcut
    exact (Issue.segment_inj hi he hi' he' hcut.2.1).symm

/-- Claims of a user whose name takes every kind of escape. -/
def sampleClaims : Claims := ⟨"\"é\n\u007f😀", none, some "evm", some "", 1, 901⟩

/-- They are checked in the middle of second 5. -/
theorem sample_token_says_its_claims : ∃ fields,
    Check.check (Issue.token .hs256 "secret" sampleClaims) "secret" "HS256" 5500 = .ok fields ∧
      .object fields = sampleClaims.toJson := by
  have hp : Secret.prepare "secret" "HS256" = .ok .hs256 := by decide +kernel
  have h : Issue.issue "secret" "HS256" sampleClaims = .ok (Issue.token .hs256 "secret" sampleClaims) :=
    Issue.issue_eq_ok_iff.mpr ⟨by decide, by decide, _, hp, rfl⟩
  obtain ⟨-, hcheck, -⟩ := tokens_say_what_they_were_issued_for h
  exact hcheck 5500 (by decide) (by decide)

end Token

end WalletLogin
