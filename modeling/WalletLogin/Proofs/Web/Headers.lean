/-
  WalletLogin.Proofs.Web.Headers — the token that any header has.

  A header is trimmed first. Then the word bearer in any letter case and a space behind it
  are taken off, with the blanks that follow. Nothing else is: no character but the letters of
  the word and the space itself becomes one of them in lower case (`afterWord_cases`). The
  blanks at the end are gone by then, so something is left behind the space. And the word
  alone has lost the space that would set it apart, so it is a token like any other text.

  Proved:
  - `extract_eq_error_iff`: only blank headers are refused.
  - `headers_have_one_token`: the token of every header, which has no blanks around it.
  - `extract_word`, `the_word_alone_is_a_token`: a header of the word and blanks.
-/

import WalletLogin.Proofs.Token.Bearer
import WalletLogin.Web.Caller

namespace WalletLogin.Token.Bearer

open Text

/-- The word, in any letter case. -/
def IsWord (w : List Char) : Prop := w.map Char.toLower = "bearer".toList

instance (w : List Char) : Decidable (IsWord w) := inferInstanceAs (Decidable (_ = _))

/-- The text has the word and a space in front. -/
def HasWord (s : List Char) : Prop := ∃ w rest, IsWord w ∧ s = w ++ ' ' :: rest

theorem hasWord_of_isPrefixOf {s : List Char} (h : word.isPrefixOf (Case.lower s) = true) : HasWord s := by
  obtain ⟨t, ht⟩ := List.isPrefixOf_iff_prefix.mp h
  have hsplit : s.map Case.lowerChar = "bearer".toList ++ ([' '] ++ t) := ht.symm
  obtain ⟨w, rest, rfl, hw, hrest⟩ := List.map_eq_append_iff.mp hsplit
  obtain ⟨b, rest, rfl, hb, -⟩ := List.map_eq_append_iff.mp hrest
  obtain ⟨c, rfl, hc⟩ := List.map_eq_singleton_iff.mp hb
  obtain rfl := Case.eq_space_of_lowerChar hc
  refine ⟨w, rest, ?_, rfl⟩
  -- none of the six letters is a k, the one letter that a character beyond ASCII becomes
  have hk : 'k' ∉ "bearer".toList := by decide
  rw [IsWord, ← hw]
  refine List.map_congr_left fun c hc => Case.toLower_of_lowerChar rfl fun he => hk ?_
  rw [← hw, ← he]
  exact List.mem_map_of_mem hc

theorem afterWord_cases (s : List Char) :
    (∃ w rest, IsWord w ∧ s = w ++ ' ' :: rest ∧ afterWord s = Blank.trim rest) ∨ ¬ HasWord s ∧ afterWord s = s := by
  by_cases h : HasWord s
  · obtain ⟨w, rest, hw, rfl⟩ := h
    exact .inl ⟨w, rest, hw, rfl, afterWord_word hw rest⟩
  · exact .inr ⟨h, if_neg fun hp => h (hasWord_of_isPrefixOf hp)⟩

/-- Of a trimmed text that is not empty a token is left. -/
theorem afterWord_ne_nil {s : List Char} (h : Blank.trim s ≠ []) : afterWord (Blank.trim s) ≠ [] := by
  rcases afterWord_cases (Blank.trim s) with ⟨w, rest, -, hs, ha⟩ | ⟨-, ha⟩
  · rw [ha, Ne, Blank.trim_eq_nil_iff]
    intro hrest
    have hlast : (' ' :: rest).getLast (by simp) ∈ (Blank.trim s).getLast? := by
      rw [hs, List.getLast?_append_of_ne_nil _ (by simp), List.getLast?_eq_some_getLast (by simp)]
      rfl
    have hblank : ∀ c ∈ ' ' :: rest, Blank.isBlank c = true := List.forall_mem_cons.mpr ⟨by decide, hrest⟩
    have hnot := Blank.getLast?_trim s _ hlast
    rw [hblank _ (List.getLast_mem _)] at hnot
    cases hnot
  · rwa [ha]

theorem trim_afterWord (s : List Char) : Blank.trim (afterWord (Blank.trim s)) = afterWord (Blank.trim s) := by
  rcases afterWord_cases (Blank.trim s) with ⟨w, rest, -, -, ha⟩ | ⟨-, ha⟩
  · rw [ha, Blank.trim_trim]
  · rw [ha, Blank.trim_trim]

theorem extract_of_blank {h : String} (hh : Blank.trim h.toList = []) :
    extract (some h) = .error (if h = "" then .missing else .empty) := by
  have hno : afterWord [] = [] := rfl
  simp only [extract, Option.getD_some, hh, hno, List.isEmpty_nil, if_true]
  split_ifs <;> rfl

theorem extract_of_not_blank {h : String} (hh : Blank.trim h.toList ≠ []) :
    extract (some h) = .ok (String.ofList (afterWord (Blank.trim h.toList))) := by
  have hne : h ≠ "" := by
    rintro rfl
    exact hh rfl
  simp only [extract, Option.getD_some, hne, if_false, List.isEmpty_iff, afterWord_ne_nil hh]

/-- Only blank headers are refused. -/
theorem extract_eq_error_iff {h : String} : (∃ f, extract (some h) = .error f) ↔ Blank.trim h.toList = [] := by
  constructor
  · rintro ⟨f, hf⟩
    by_contra hh
    rw [extract_of_not_blank hh] at hf
    cases hf
  · exact fun hh => ⟨_, extract_of_blank hh⟩

/-- What stands behind the word and a space, without the blanks around it, is the token. A
blank header is refused. Any other is a token as a whole, without the blanks around it, the
word alone included. No token is empty or has blanks around it. -/
theorem headers_have_one_token (h : String) :
    (∀ w blanks t, IsWord w → Blanks blanks → Blank.trim h.toList = w ++ ' ' :: (blanks ++ t) →
      extract (some h) = .ok (String.ofList (Blank.trim t))) ∧
    (Blank.trim h.toList = [] →
      ∃ f, extract (some h) = .error f ∧ (Web.CallerFault.header f).status = 401) ∧
    (Blank.trim h.toList ≠ [] → ¬ HasWord (Blank.trim h.toList) → extract (some h) = .ok (Blank.strip h)) ∧
    ∀ token, extract (some h) = .ok token → token ≠ "" ∧ Blank.strip token = token := by
  refine ⟨fun w blanks t hw hb hs => ?_, fun hh => ?_, fun hh hno => ?_, fun token htoken => ?_⟩
  · have hne : Blank.trim h.toList ≠ [] := by
      rw [hs]
      simp
    rw [extract_of_not_blank hne, hs, afterWord_word hw, Blank.trim_blanks_append hb]
  · exact ⟨_, extract_of_blank hh, rfl⟩
  · rcases afterWord_cases (Blank.trim h.toList) with ⟨w, rest, hw, hs, -⟩ | ⟨-, ha⟩
    · exact absurd ⟨w, rest, hw, hs⟩ hno
    · rw [extract_of_not_blank hh, ha, Blank.strip]
  · by_cases hh : Blank.trim h.toList = []
    · rw [extract_of_blank hh] at htoken
      cases htoken
    · rw [extract_of_not_blank hh, Except.ok.injEq] at htoken
      rw [← htoken]
      refine ⟨fun he => afterWord_ne_nil hh ?_, ?_⟩
      · rw [← String.toList_ofList (l := afterWord (Blank.trim h.toList)), he]
        rfl
      · rw [Blank.strip, String.toList_ofList, trim_afterWord]

/-- The token behind the word in capitals, between blanks of several kinds. -/
theorem capitals_and_blanks_are_taken_off :
    IsWord "BEARER".toList ∧ Blanks ['\t', ' '] ∧
      Blank.trim "\n BEARER \t x y ".toList = "BEARER".toList ++ ' ' :: (['\t', ' '] ++ "x y".toList) ∧
      extract (some "\n BEARER \t x y ") = .ok (String.ofList (Blank.trim "x y".toList)) := by
  have hb : Blanks ['\t', ' '] := List.all_iff_forall_prop.mp (by decide)
  have hs : Blank.trim "\n BEARER \t x y ".toList = "BEARER".toList ++ ' ' :: (['\t', ' '] ++ "x y".toList) := by decide
  exact ⟨by decide, hb, hs, (headers_have_one_token _).1 _ _ _ (by decide) hb hs⟩

theorem not_hasWord_of_isWord {w : List Char} (hw : IsWord w) : ¬ HasWord w := by
  rintro ⟨v, rest, hv, rfl⟩
  have hl := congrArg List.length (show (v ++ ' ' :: rest).map Char.toLower = v.map Char.toLower from hw.trans hv.symm)
  simp at hl

/-- The word with nothing but blanks around it is a token. -/
theorem extract_word {w : List Char} (hw : IsWord w) {before after : List Char} (hb : Blanks before) (ha : Blanks after) :
    extract (some (String.ofList (before ++ w ++ after))) = .ok (String.ofList w) := by
  have hvisible : ∀ c ∈ w, Blank.IsVisible c := by
    intro c hc
    have hall : ∀ l ∈ "bearer".toList, Blank.IsVisible l := List.all_iff_forall_prop.mp (by decide)
    exact Case.isVisible_of_toLower rfl (hall _ (hw ▸ List.mem_map_of_mem hc))
  have htrim := Blank.trim_between hvisible hb ha
  have hne : w ≠ [] := by
    rintro rfl
    cases hw
  rw [extract_of_not_blank (by rwa [String.toList_ofList, htrim]), String.toList_ofList, htrim]
  rcases afterWord_cases w with ⟨v, rest, hv, he, -⟩ | ⟨-, hself⟩
  · exact absurd ⟨v, rest, hv, he⟩ (not_hasWord_of_isWord hw)
  · rw [hself]

/-- Nothing stands behind the word and the space, and still there is a token. -/
theorem the_word_alone_is_a_token : extract (some "Bearer ") = .ok "Bearer" := by
  decide +kernel

end WalletLogin.Token.Bearer
