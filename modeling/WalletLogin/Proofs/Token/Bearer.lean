/-
  WalletLogin.Proofs.Token.Bearer — the headers that carry a token.

  A header carries a token that stands in it alone, or behind the word bearer in any
  letter case and a space, with blanks around (`Carries`).

  Proved:
  - `extract_of_carries`: an issued token is taken out of every header that carries it.
-/

import Mathlib.Data.Bool.AllAny
import WalletLogin.Proofs.Text.Case
import WalletLogin.Proofs.Token.RoundTrip
import WalletLogin.Token.Bearer

namespace WalletLogin

open Encoding Text

theorem Encoding.Base64Url.IsUrlSafe.isVisible {c : Char} (h : IsUrlSafe c) : Blank.IsVisible c := by
  rcases h with h | rfl | rfl
  · have hranges : (decide (c.val ≥ 'A'.val ∧ c.val ≤ 'Z'.val) || (decide (c.val ≥ 'a'.val) && decide (c.val ≤ 'z'.val)) ||
        (decide (c.val ≥ '0'.val) && decide (c.val ≤ '9'.val))) = true := h
    simp only [Bool.or_eq_true, Bool.and_eq_true, decide_eq_true_eq, ge_iff_le, UInt32.le_iff_toNat_le] at hranges
    have hc : c.toNat = c.val.toNat := rfl
    have hbounds : 'A'.val.toNat = 65 ∧ 'Z'.val.toNat = 90 ∧ 'a'.val.toNat = 97 ∧ 'z'.val.toNat = 122 ∧
        '0'.val.toNat = 48 ∧ '9'.val.toNat = 57 := by decide
    exact ⟨by omega, by omega⟩
  · decide
  · decide

namespace Token

/-- The characters of a token are visible ones of ASCII. -/
theorem Issue.isVisible_of_mem_token {a : Algorithm} {secret : String} {c : Claims} {x : Char}
    (hx : x ∈ (Issue.token a secret c).toList) : Blank.IsVisible x := by
  rw [Issue.toList_token, List.append_assoc, List.cons_append, List.mem_append, List.mem_cons, List.mem_append,
    List.mem_cons] at hx
  rcases hx with hx | rfl | hx | rfl | hx
  · exact (Base64Url.isUrlSafe_of_mem_encode hx).isVisible
  · decide
  · exact (Base64Url.isUrlSafe_of_mem_encode hx).isVisible
  · decide
  · exact (Base64Url.isUrlSafe_of_mem_encode hx).isVisible

namespace Bearer

/-- The characters may surround a token. -/
def Blanks (s : List Char) : Prop := ∀ c ∈ s, Blank.isBlank c = true

/-- The header carries the token. -/
inductive Carries (token : String) : String → Prop
  | plain {before after : List Char} : Blanks before → Blanks after →
      Carries token (String.ofList (before ++ token.toList ++ after))
  | bearer {before word between after : List Char} : Blanks before → word.map Char.toLower = "bearer".toList →
      Blanks between → Blanks after →
      Carries token (String.ofList (before ++ (word ++ ' ' :: (between ++ token.toList)) ++ after))

/-- A text without blanks does not start with the word and a space. -/
theorem afterWord_of_visible {s : List Char} (h : ∀ c ∈ s, Blank.IsVisible c) : afterWord s = s := by
  have hno : ¬ word.isPrefixOf (Case.lower s) = true := by
    intro hp
    have hspace : ' ' ∈ Case.lower s := (List.isPrefixOf_iff_prefix.mp hp).subset (by decide)
    obtain ⟨c, hc, he⟩ := List.mem_map.mp hspace
    have hv := Case.isVisible_lowerChar (h c hc)
    rw [he] at hv
    exact absurd hv (by decide)
  rw [afterWord, if_neg hno]

theorem afterWord_word {w : List Char} (h : w.map Char.toLower = "bearer".toList) (s : List Char) :
    afterWord (w ++ ' ' :: s) = Blank.trim s := by
  have hlower : Case.lower w = "bearer".toList := by
    rw [← h, Case.lower]
    refine List.map_congr_left fun c hc => Case.lowerChar_of_toLower rfl ?_
    have hall : ∀ l ∈ "bearer".toList, l.toNat < 128 := List.all_iff_forall_prop.mp (by decide)
    exact hall _ (h ▸ List.mem_map_of_mem hc)
  have hprefix : word.isPrefixOf (Case.lower (w ++ ' ' :: s)) = true := by
    rw [List.isPrefixOf_iff_prefix, Case.lower, List.map_append, ← Case.lower, hlower]
    exact ⟨Case.lower s, rfl⟩
  have hlength : (w ++ [' ']).length = word.length := by
    have hl := congrArg List.length h
    rw [List.length_map] at hl
    rw [List.length_append, hl]
    rfl
  rw [afterWord, if_pos hprefix, ← List.singleton_append, ← List.append_assoc, List.drop_left' hlength]

/-- An issued token is taken out of every header that carries it. -/
theorem extract_of_carries {a : Algorithm} {secret : String} {c : Claims} {header : String}
    (h : Carries (Issue.token a secret c) header) : extract (some header) = .ok (Issue.token a secret c) := by
  have hblank {x : Char} (hx : x ∈ (Issue.token a secret c).toList) : Blank.isBlank x = false :=
    (Issue.isVisible_of_mem_token hx).isBlank
  have hne : (Issue.token a secret c).toList ≠ [] := by
    rw [Issue.toList_token]
    simp
  -- whatever the header holds beside the token is taken off
  have hafter : afterWord (Blank.trim header.toList) = (Issue.token a secret c).toList := by
    cases h with
    | plain hb ha =>
      rw [String.toList_ofList, Blank.trim_append hb ha hne (fun x hx => hblank (List.mem_of_mem_head? hx))
        (fun x hx => hblank (List.mem_of_mem_getLast? hx)), afterWord_of_visible fun x hx => Issue.isVisible_of_mem_token hx]
    | @bearer before w between after hb hw hm ha =>
      have hlast : ∀ x ∈ (w ++ ' ' :: (between ++ (Issue.token a secret c).toList)).getLast?, Blank.isBlank x = false := by
        intro x hx
        rw [← List.cons_append, ← List.append_assoc, List.getLast?_append, List.getLast?_eq_some_getLast hne,
          Option.some_or, ← List.getLast?_eq_some_getLast hne] at hx
        exact hblank (List.mem_of_mem_getLast? hx)
      have hhead : ∀ x ∈ (w ++ ' ' :: (between ++ (Issue.token a secret c).toList)).head?, Blank.isBlank x = false := by
        intro x hx
        cases w with
        | nil => cases hw
        | cons y w =>
          obtain rfl : y = x := Option.some.inj hx
          exact (Case.isVisible_of_toLower (List.cons.inj hw).1 (by decide)).isBlank
      have htoken := Blank.trim_append hm (a := []) (fun x hx => by cases hx) hne
        (fun x hx => hblank (List.mem_of_mem_head? hx)) (fun x hx => hblank (List.mem_of_mem_getLast? hx))
      rw [List.append_nil] at htoken
      rw [String.toList_ofList, Blank.trim_append hb ha (by simp) hhead hlast, afterWord_word hw, htoken]
  have hh : header ≠ "" := by
    rintro rfl
    exact hne hafter.symm
  simp only [extract, Option.getD_some, hh, if_false, hafter, List.isEmpty_iff, hne, String.ofList_toList]

end Bearer

end Token

end WalletLogin
