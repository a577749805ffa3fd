/-
  WalletLogin.Proofs.Json.Text — the texts that the writer writes, and their reading.

  A character is written in one of four forms (`Form`). The reader takes each of them off
  the front, whatever follows; behind the digits of a unit it has to look on, for the
  second half of a pair.

  Proved:
  - `form_escape`: the form of every character.
  - `string_chars`: a text is read back, escapes and surrogate pairs included.
  - `isPlain_string`: a written text is in ASCII.
-/

import Mathlib.Data.List.Basic
import WalletLogin.Json.Reader
import WalletLogin.Json.Writer
import WalletLogin.Proofs.Encoding.Radix
import WalletLogin.Proofs.Text.Unicode

namespace WalletLogin.Json

open Encoding Text

namespace Reader

/-! ## Units -/

theorem hexValue_hexDigit : ∀ d < 16, Hex.value? (Quoted.hexDigit d) = some d := by
  decide

theorem hexDigits_four (n : Nat) : Quoted.hexDigits 4 n =
    [Quoted.hexDigit (n / 4096 % 16), Quoted.hexDigit (n / 256 % 16), Quoted.hexDigit (n / 16 % 16),
      Quoted.hexDigit (n % 16)] := by
  simp [Quoted.hexDigits, Radix.lowDigits, Nat.div_div_eq_div_mul]

theorem hex4?_hexDigit {n : Nat} (hn : n < 0x10000) :
    hex4? (Quoted.hexDigit (n / 4096 % 16)) (Quoted.hexDigit (n / 256 % 16)) (Quoted.hexDigit (n / 16 % 16))
      (Quoted.hexDigit (n % 16)) = some n := by
  have hd (m : Nat) : Hex.value? (Quoted.hexDigit (m % 16)) = some (m % 16) := hexValue_hexDigit _ (Nat.mod_lt _ (by decide))
  simp only [hex4?, hd, Option.bind_eq_bind, Option.bind_some, Option.pure_def, Option.some.injEq]
  omega

/-- A character is no surrogate. -/
theorem toNat_cases (c : Char) : c.toNat < 0xd800 ∨ 0xdfff < c.toNat ∧ c.toNat < 0x110000 := c.valid

theorem unitChar_toNat (c : Char) : Unicode.unitChar c.toNat = c := by
  have hs : (Unicode.isHighSurrogate c.toNat || Unicode.isLowSurrogate c.toNat) = false := by
    have := toNat_cases c
    simp only [Unicode.isHighSurrogate, Unicode.isLowSurrogate, Bool.or_eq_false_iff, Bool.and_eq_false_iff,
      decide_eq_false_iff_not]
    omega
  simp [Unicode.unitChar, hs]

/-- One escape of four digits, for a character that takes one. -/
theorem escaped_unit {c : Char} (hc : c.toNat < 0x10000) (left : Nat) (x : Char) (r : List Char) :
    escaped left ('u' :: Quoted.hexDigits 4 c.toNat ++ x :: r) = .ok (c, x :: r) := by
  have hs : Unicode.isHighSurrogate c.toNat = false := by
    have := toNat_cases c
    simp only [Unicode.isHighSurrogate, Bool.and_eq_false_iff, decide_eq_false_iff_not]
    omega
  simp only [hexDigits_four, List.cons_append, List.nil_append, escaped, hex4?_hexDigit hc, hs, Bool.false_eq_true,
    if_false, unitChar_toNat]

/-- Two escapes, for a character that takes a pair of surrogates. -/
theorem escaped_pair {c : Char} (hc : 0x10000 ≤ c.toNat) (left : Nat) (x : Char) (r : List Char) :
    escaped left ('u' :: Quoted.hexDigits 4 (0xd800 + (c.toNat - 0x10000) / 0x400) ++
      (Writer.unit (0xdc00 + (c.toNat - 0x10000) % 0x400) ++ x :: r)) = .ok (c, x :: r) := by
  have hlt := toNat_cases c
  generalize hhi : 0xd800 + (c.toNat - 0x10000) / 0x400 = hi
  generalize hlo : 0xdc00 + (c.toNat - 0x10000) % 0x400 = lo
  have hhigh : Unicode.isHighSurrogate hi = true := by
    simp only [Unicode.isHighSurrogate, Bool.and_eq_true, decide_eq_true_eq]
    omega
  have hlow : Unicode.isLowSurrogate lo = true := by
    simp only [Unicode.isLowSurrogate, Bool.and_eq_true, decide_eq_true_eq]
    omega
  have hjoin : Unicode.joinSurrogates hi lo = c.toNat := by
    unfold Unicode.joinSurrogates
    omega
  have hcons : Writer.unit lo ++ x :: r = '\\' :: ('u' :: Quoted.hexDigits 4 lo ++ x :: r) := rfl
  have hpartner : partner? hi ('\\' :: ('u' :: Quoted.hexDigits 4 lo ++ x :: r)) = .ok (some (c, x :: r)) := by
    simp only [hexDigits_four, List.cons_append, List.nil_append, partner?, hex4?_hexDigit (n := lo) (by omega), hlow,
      if_true, hjoin, Char.ofNat_toNat]
  rw [hcons]
  generalize 'u' :: Quoted.hexDigits 4 lo ++ x :: r = behind at hpartner
  simp only [hexDigits_four, List.cons_append, List.nil_append, escaped, hex4?_hexDigit (n := hi) (by omega), hhigh,
    if_true, hpartner]
  rfl

/-! ## Characters -/

theorem body_backslash (left fuel : Nat) (r acc : List Char) :
    body left (fuel + 1) ('\\' :: r) acc = (do
      let (c, r) ← escaped left r
      body left fuel r (c :: acc)) := rfl

theorem body_plain {c : Char} (hq : c ≠ '"') (hb : c ≠ '\\') (hc : 32 ≤ c.toNat) (left fuel : Nat) (r acc : List Char) :
    body left (fuel + 1) (c :: r) acc = body left fuel r (c :: acc) := by
  rw [body, if_neg (by omega)]
  · exact hq
  · exact hb

/-- The forms in which a character is written: a letter of its own, itself, or the digits
of one unit or of two. -/
inductive Form (c : Char) : List Char → Prop
  | letter {e : Char} : plainEscape? e = some c → e ≠ 'u' → Unicode.IsPlain e → Form c ['\\', e]
  | plain : c ≠ '"' → c ≠ '\\' → 32 ≤ c.toNat → c.toNat ≤ 126 → Form c [c]
  | unit : c.toNat < 0x10000 → Form c (Writer.unit c.toNat)
  | pair : 0x10000 ≤ c.toNat → Form c (Writer.unit (0xd800 + (c.toNat - 0x10000) / 0x400) ++
      Writer.unit (0xdc00 + (c.toNat - 0x10000) % 0x400))

theorem form_escape (c : Char) : Form c (Writer.escape c) := by
  have hcode {n : Nat} (h : c.toNat = n) : some (Char.ofNat n) = some c := by rw [← h, Char.ofNat_toNat]
  unfold Writer.escape
  split
  case isTrue h => exact .letter (by rw [h]; rfl) (by decide) (by decide)
  split
  case isTrue h => exact .letter (by rw [h]; rfl) (by decide) (by decide)
  split
  case isTrue h => exact .letter (by rw [h]; rfl) (by decide) (by decide)
  split
  case isTrue h => exact .letter (by rw [h]; rfl) (by decide) (by decide)
  split
  case isTrue h => exact .letter (by rw [h]; rfl) (by decide) (by decide)
  split
  case isTrue h => exact .letter (hcode h) (by decide) (by decide)
  split
  case isTrue h => exact .letter (hcode h) (by decide) (by decide)
  split
  case isTrue h => exact .plain ‹_› ‹_› h.1 h.2
  unfold Writer.escapeCode
  split
  case isTrue h => exact .unit h
  case isFalse h => exact .pair (Nat.le_of_not_lt h)

/-- An escape by a letter. -/
theorem escaped_letter {e d : Char} (h : plainEscape? e = some d) (hu : e ≠ 'u') (left : Nat) (r : List Char) :
    escaped left (e :: r) = .ok (d, r) := by
  unfold escaped
  split
  case h_1 he => cases he
  case h_2 he => exact absurd (List.cons.inj he).1 hu
  case h_3 he =>
    cases he
    rw [h]

/-- The reader takes one escaped character off; something has to follow it, as the closing
quote does. -/
theorem body_escape (left fuel : Nat) (c x : Char) (r acc : List Char) :
    body left (fuel + 1) (Writer.escape c ++ x :: r) acc = body left fuel (x :: r) (c :: acc) := by
  have hform := form_escape c
  generalize Writer.escape c = s at hform ⊢
  cases hform with
  | letter h hu =>
    rw [List.cons_append, List.cons_append, body_backslash, escaped_letter h hu]
    rfl
  | plain hq hb hlow => exact body_plain hq hb hlow left fuel _ acc
  | unit h =>
    rw [Writer.unit, List.cons_append, body_backslash, escaped_unit h]
    rfl
  | pair h =>
    rw [List.append_assoc, Writer.unit, List.cons_append, body_backslash, escaped_pair h]
    rfl

theorem one_le_length_escape (c : Char) : 1 ≤ (Writer.escape c).length := by
  have hform := form_escape c
  generalize Writer.escape c = s at hform ⊢
  cases hform <;> simp [Writer.unit]

theorem body_chars (left : Nat) (cs : List Char) (rest acc : List Char) {fuel : Nat} (hf : cs.length < fuel) :
    body left fuel (cs.flatMap Writer.escape ++ '"' :: rest) acc = .ok (String.ofList (acc.reverse ++ cs), rest) := by
  induction cs generalizing fuel acc with
  | nil =>
    obtain ⟨f, rfl⟩ : ∃ f, fuel = f + 1 := ⟨fuel - 1, by simp at hf; omega⟩
    rw [List.append_nil]
    rfl
  | cons c cs ih =>
    obtain ⟨f, rfl⟩ : ∃ f, fuel = f + 1 := ⟨fuel - 1, by simp at hf; omega⟩
    -- what follows the character starts with an escape or the closing quote
    obtain ⟨x, r, hx⟩ : ∃ x r, cs.flatMap Writer.escape ++ '"' :: rest = x :: r := by
      cases h : cs.flatMap Writer.escape ++ '"' :: rest with
      | nil => simp at h
      | cons x r => exact ⟨x, r, rfl⟩
    rw [List.flatMap_cons, List.append_assoc, hx, body_escape, ← hx, ih _ (by simpa using hf)]
    simp

theorem length_le_flatMap_escape (cs : List Char) : cs.length ≤ (cs.flatMap Writer.escape).length := by
  induction cs with
  | nil => simp
  | cons c cs ih =>
    have := one_le_length_escape c
    rw [List.flatMap_cons, List.length_append, List.length_cons]
    omega

/-- A text is read back from behind its opening quote on. -/
theorem string_chars (s : String) (rest : List Char) :
    string (s.toList.flatMap Writer.escape ++ '"' :: rest) = .ok (s, rest) := by
  have hf := length_le_flatMap_escape s.toList
  rw [string, body_chars _ _ _ _ (by simp only [List.length_append, List.length_cons]; omega), List.reverse_nil,
    List.nil_append, String.ofList_toList]

/-! ## Bytes -/

theorem isPlain_hexDigit : ∀ d < 16, Unicode.IsPlain (Quoted.hexDigit d) := by
  decide

theorem isPlain_unit {n : Nat} {d : Char} (hd : d ∈ Writer.unit n) : Unicode.IsPlain d := by
  rcases List.mem_cons.mp hd with rfl | hd
  · decide
  · rcases List.mem_cons.mp hd with rfl | hd
    · decide
    · obtain ⟨k, hk, rfl⟩ := List.mem_map.mp hd
      exact isPlain_hexDigit k (Radix.lowDigits_lt (by decide) hk)

theorem isPlain_escape {c d : Char} (hd : d ∈ Writer.escape c) : Unicode.IsPlain d := by
  have hform := form_escape c
  generalize Writer.escape c = s at hform hd
  cases hform with
  | letter _ _ he =>
    rcases List.mem_pair.mp hd with rfl | rfl
    · decide
    · exact he
  | plain _ _ hlow hhigh =>
    obtain rfl := List.mem_singleton.mp hd
    exact ⟨by omega, by omega⟩
  | unit => exact isPlain_unit hd
  | pair =>
    rcases List.mem_append.mp hd with hd | hd
    · exact isPlain_unit hd
    · exact isPlain_unit hd

theorem isPlain_string {s : String} {d : Char} (hd : d ∈ Writer.string s) : Unicode.IsPlain d := by
  simp only [Writer.string, List.cons_append, List.mem_cons, List.mem_append, List.mem_flatMap, List.not_mem_nil,
    or_false] at hd
  rcases hd with rfl | ⟨c, -, hd⟩ | rfl
  · decide
  · exact isPlain_escape hd
  · decide

end Reader

end WalletLogin.Json
