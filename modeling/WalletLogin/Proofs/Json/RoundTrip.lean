/-
  WalletLogin.Proofs.Json.RoundTrip — what the writer writes, the reader reads.

  A token's header and claims are flat: objects whose values are texts, whole numbers,
  truth values or null (`IsScalar`). The reader takes each of them off the front of the
  written text and leaves what follows, whatever that is; only a number has to be told
  by what follows it, a comma or a brace (`Closes`).

  Proved:
  - `value_chars`: every scalar is read back.
  - `readBytes_write`: a flat object with distinct keys is read back from the bytes of
    its text, with its members in their order.
-/

import Mathlib.Data.Bool.AllAny
import Mathlib.Data.List.TakeWhile
import WalletLogin.Proofs.Json.Text

namespace WalletLogin.Json

open Encoding Text

namespace Reader

/-! ## Numbers -/

/-- What stands behind a member of an object. -/
def Closes (s : List Char) : Prop := ∃ r, s = ',' :: r ∨ s = '}' :: r

theorem isDigit_char : ∀ d < 10, isDigit (Decimal.Digit.char d) = true := by
  decide

theorem toNat_char : ∀ d < 10, (Decimal.Digit.char d).toNat - 48 = d := by
  decide

theorem char_ne_zero : ∀ d < 10, d ≠ 0 → Decimal.Digit.char d ≠ '0' := by
  decide

theorem isDigit_renderNat {n : Nat} {c : Char} (hc : c ∈ Decimal.Digit.renderNat n) : isDigit c = true := by
  unfold Decimal.Digit.renderNat at hc
  split at hc
  · obtain rfl := List.mem_singleton.mp hc
    decide
  · obtain ⟨d, hd, rfl⟩ := List.mem_map.mp hc
    rw [Decimal.Digit.digits_eq] at hd
    exact isDigit_char d (Radix.digits_lt (by decide) hd)

theorem digitValue_map_char {ds : List Nat} (hd : ∀ d ∈ ds, d < 10) :
    digitValue (ds.map Decimal.Digit.char) = Radix.value 10 ds := by
  induction ds using List.reverseRecOn with
  | nil => rfl
  | append_singleton ds d ih =>
    have hlast := toNat_char d (hd d (List.mem_append_right _ (List.mem_singleton_self d)))
    have hfirst := ih fun x hx => hd x (List.mem_append_left _ hx)
    unfold digitValue at hfirst ⊢
    rw [Radix.value_concat, List.map_append, List.foldl_append, hfirst]
    simp [hlast]

theorem digitValue_renderNat (n : Nat) : digitValue (Decimal.Digit.renderNat n) = n := by
  unfold Decimal.Digit.renderNat
  split
  · rename_i hn
    exact hn.symm
  · rw [Decimal.Digit.digits_eq, digitValue_map_char fun d hd => Radix.digits_lt (by decide) hd,
      Radix.value_digits (by decide)]

/-- A written number starts with a digit, which is a zero only if it is alone. -/
theorem renderNat_eq_cons (n : Nat) :
    ∃ c r, Decimal.Digit.renderNat n = c :: r ∧ (c = '0' → r = []) := by
  unfold Decimal.Digit.renderNat
  split
  · exact ⟨'0', [], rfl, fun _ => rfl⟩
  · rename_i hn
    have hd := Radix.head?_digits_ne_zero (by decide : 2 ≤ 10) n
    have hv := Radix.value_digits (by decide : 2 ≤ 10) n
    have hlt : ∀ d ∈ Radix.digits 10 n, d < 10 := fun d hd => Radix.digits_lt (by decide) hd
    rw [Decimal.Digit.digits_eq]
    cases hds : Radix.digits 10 n with
    | nil =>
      rw [hds] at hv
      exact absurd hv.symm hn
    | cons d ds =>
      rw [hds] at hd hlt
      refine ⟨_, _, rfl, fun hc => absurd hc (char_ne_zero d (hlt d List.mem_cons_self) ?_)⟩
      rintro rfl
      exact hd rfl

theorem wholePart?_renderNat (n : Nat) {rest : List Char} (hr : Closes rest) :
    wholePart? (Decimal.Digit.renderNat n ++ rest) = some (Decimal.Digit.renderNat n, rest) := by
  have hall : ∀ c ∈ Decimal.Digit.renderNat n, isDigit c = true := fun c hc => isDigit_renderNat hc
  have htake : (Decimal.Digit.renderNat n ++ rest).takeWhile isDigit = Decimal.Digit.renderNat n := by
    rw [List.takeWhile_append_of_pos hall]
    obtain ⟨r, rfl | rfl⟩ := hr <;> exact List.append_nil _
  have hdrop : (Decimal.Digit.renderNat n ++ rest).dropWhile isDigit = rest := by
    rw [List.dropWhile_append_of_pos hall]
    obtain ⟨r, rfl | rfl⟩ := hr <;> rfl
  obtain ⟨c, r, hcr, hz⟩ := renderNat_eq_cons n
  rw [hcr] at hall htake hdrop ⊢
  by_cases hc : c = '0'
  · obtain rfl := hz hc
    subst hc
    rfl
  · rw [List.cons_append] at htake hdrop ⊢
    rw [wholePart?, if_pos (hall c List.mem_cons_self), htake, hdrop]
    exact hc

theorem number_renderNat {n : Nat} (hn : (Decimal.Digit.digits n).length ≤ Decimal.Digit.digitLimit) (neg : Bool)
    (start : List Char) {rest : List Char} (hr : Closes rest) :
    number neg start (Decimal.Digit.renderNat n ++ rest) = .ok (.int (if neg then -(n : Int) else n), rest) := by
  have hfraction : fractionPart rest = (none, rest) := by
    obtain ⟨r, rfl | rfl⟩ := hr <;> rfl
  have hexponent : exponentPart rest = (none, rest) := by
    obtain ⟨r, rfl | rfl⟩ := hr <;> rfl
  have hlength : (Decimal.Digit.renderNat n).length ≤ Decimal.Digit.digitLimit := by
    unfold Decimal.Digit.renderNat
    split
    · decide
    · rwa [List.length_map]
  simp only [number, wholePart?_renderNat n hr, hfraction, hexponent, Option.isNone_none, Bool.and_self, if_true,
    if_pos hlength, digitValue_renderNat]

/-! ## Scalars -/

theorem ne_of_isDigit {c x : Char} (hc : isDigit c = true) (hx : isDigit x = false) : x ≠ c := by
  rintro rfl
  rw [hc] at hx
  cases hx

/-- No word starts with a digit, and none with a dash and a digit. -/
theorem word?_of_isDigit {c : Char} (hc : isDigit c = true) (s : List Char) :
    word? (c :: s) = none ∧ word? ('-' :: c :: s) = none := by
  have hne {x : Char} (hx : isDigit x = false) : x ≠ c := ne_of_isDigit hc hx
  constructor
  · simp [word?, words, hne (x := 'n') rfl, hne (x := 't') rfl, hne (x := 'f') rfl, hne (x := 'N') rfl, hne (x := 'I') rfl,
      hne (x := '-') rfl]
  · simp [word?, words, hne (x := 'I') rfl]

theorem scalar_renderInt {n : Int} (hn : (Decimal.Digit.digits n.natAbs).length ≤ Decimal.Digit.digitLimit)
    {rest : List Char} (hr : Closes rest) : scalar (Decimal.Digit.renderInt n ++ rest) = .ok (.int n, rest) := by
  obtain ⟨c, r, hcr, -⟩ := renderNat_eq_cons n.natAbs
  have hc : isDigit c = true := isDigit_renderNat (n := n.natAbs) (hcr ▸ List.mem_cons_self)
  obtain ⟨hword, hword'⟩ := word?_of_isDigit hc (r ++ rest)
  have hnum := number_renderNat hn
  rw [hcr] at hnum
  unfold Decimal.Digit.renderInt
  rw [hcr]
  split
  · rename_i hneg
    have hval : -(n.natAbs : Int) = n := by omega
    simp only [List.cons_append, scalar, hword']
    rw [← List.cons_append, hnum true _ hr, if_pos rfl, hval]
  · rename_i hneg
    have hval : (n.natAbs : Int) = n := by omega
    simp only [List.cons_append, scalar, hword]
    split
    · rename_i he
      exact absurd (List.cons.inj he).1.symm (ne_of_isDigit hc rfl)
    · rw [← List.cons_append, hnum false _ hr, if_neg Bool.false_ne_true, hval]

/-- The values that a token's header and claims have. -/
inductive IsScalar : Json → Prop
  | null : IsScalar .null
  | bool (b : Bool) : IsScalar (.bool b)
  | int {n : Int} : (Decimal.Digit.digits n.natAbs).length ≤ Decimal.Digit.digitLimit → IsScalar (.int n)
  | text (s : String) : IsScalar (.text s)

theorem renderInt_eq_cons (n : Int) : ∃ c r, Decimal.Digit.renderInt n = c :: r ∧ (c = '-' ∨ isDigit c = true) := by
  obtain ⟨c, r, hcr, -⟩ := renderNat_eq_cons n.natAbs
  have hc : isDigit c = true := isDigit_renderNat (n := n.natAbs) (hcr ▸ List.mem_cons_self)
  rw [Decimal.Digit.renderInt, hcr]
  split
  · exact ⟨_, _, rfl, Or.inl rfl⟩
  · exact ⟨_, _, rfl, Or.inr hc⟩

/-- No text that stands for a scalar starts with a blank. -/
theorem chars_eq_cons {v : Json} (hv : IsScalar v) : ∃ c r, Writer.chars v = c :: r ∧ isSpace c = false := by
  cases hv with
  | null => exact ⟨_, _, rfl, rfl⟩
  | bool b => cases b <;> exact ⟨_, _, rfl, rfl⟩
  | text s => exact ⟨_, _, rfl, rfl⟩
  | @int n _ =>
    obtain ⟨c, r, hcr, hc⟩ := renderInt_eq_cons n
    refine ⟨c, r, hcr, ?_⟩
    rcases hc with rfl | hc
    · rfl
    · have hne {x : Char} (hx : isDigit x = false) : c ≠ x := (ne_of_isDigit hc hx).symm
      simp [isSpace, hne (x := ' ') rfl, hne (x := '\t') rfl, hne (x := '\n') rfl, hne (x := '\r') rfl]

/-- A scalar is read back in front of whatever closes its member. -/
theorem value_chars {v : Json} (hv : IsScalar v) (fuel room : Nat) {rest : List Char} (hr : Closes rest) :
    value (fuel + 1) room (Writer.chars v ++ rest) = .ok (v, rest) := by
  cases hv with
  | null => rfl
  | bool b => cases b <;> rfl
  | text s =>
    have hs : Writer.chars (.text s) ++ rest = '"' :: (s.toList.flatMap Writer.escape ++ '"' :: rest) := by
      simp [Writer.chars, Writer.string]
    rw [hs, value, string_chars]
    rfl
  | @int n hn =>
    obtain ⟨c, r, hcr, hc⟩ := renderInt_eq_cons n
    have hne {x : Char} (hx : isDigit x = false) (hd : '-' ≠ x) : ∀ s, c :: (r ++ rest) = x :: s → False := by
      intro s he
      rcases hc with rfl | hc
      · exact hd (List.cons.inj he).1
      · exact (ne_of_isDigit hc hx) (List.cons.inj he).1.symm
    rw [Writer.chars, ← scalar_renderInt hn hr, hcr, List.cons_append, value]
    · exact hne rfl (by decide)
    · exact hne rfl (by decide)
    · exact hne rfl (by decide)

/-! ## Objects -/

theorem skip_cons {c : Char} (hc : isSpace c = false) (s : List Char) : skip (c :: s) = c :: s := by
  simp [skip, hc]

theorem put_of_new {key : String} {value : Json} {fs : List (String × Json)} (h : key ∉ fs.map Prod.fst) :
    put key value fs = fs ++ [(key, value)] := by
  induction fs with
  | nil => rfl
  | cons f fs ih =>
    obtain ⟨k, v⟩ := f
    rw [List.map_cons, List.mem_cons, not_or] at h
    rw [put, if_neg (Ne.symm h.1), ih h.2, List.cons_append]

theorem skip_closes {s : List Char} (h : Closes s) : skip s = s := by
  obtain ⟨r, rfl | rfl⟩ := h <;> rfl

theorem skip_chars {v : Json} (hv : IsScalar v) (rest : List Char) :
    skip (Writer.chars v ++ rest) = Writer.chars v ++ rest := by
  obtain ⟨c, r, hcr, hc⟩ := chars_eq_cons hv
  rw [hcr, List.cons_append, skip_cons hc]

/-- What the reader makes of what closes a member. -/
def closing (fuel room : Nat) (acc : List (String × Json)) : List Char → Except Fault (Json × List Char)
  | '}' :: r => .ok (.object acc, r)
  | ',' :: r => members fuel room (skip r) acc
  | r => fail r

/-- One member is read, up to what closes it. -/
theorem members_step (key : String) {v : Json} (hv : IsScalar v) (fuel room : Nat) {rest : List Char} (hr : Closes rest)
    (acc : List (String × Json)) :
    members (fuel + 2) room (Writer.string key ++ ':' :: Writer.chars v ++ rest) acc =
      closing (fuel + 1) room (put key v acc) rest := by
  have hk : Writer.string key ++ ':' :: Writer.chars v ++ rest =
      '"' :: (key.toList.flatMap Writer.escape ++ '"' :: (':' :: (Writer.chars v ++ rest))) := by
    simp [Writer.string]
  have hcolon : skip (':' :: (Writer.chars v ++ rest)) = ':' :: (Writer.chars v ++ rest) := rfl
  rw [hk, members]
  simp only [string_chars, bind, Except.bind, hcolon, skip_chars hv, value_chars hv fuel room hr, skip_closes hr]
  obtain ⟨r, rfl | rfl⟩ := hr <;> rfl

/-- The members of a flat object are read one after the other. -/
theorem members_chars {fs : List (String × Json)} (hne : fs ≠ []) (hv : ∀ f ∈ fs, IsScalar f.2)
    (hk : (fs.map Prod.fst).Nodup) (acc : List (String × Json)) (hacc : ∀ f ∈ fs, f.1 ∉ acc.map Prod.fst) {fuel : Nat}
    (hf : fs.length < fuel) (room : Nat) (rest : List Char) :
    members fuel room (Writer.members fs ++ '}' :: rest) acc = .ok (.object (acc ++ fs), rest) := by
  induction fs generalizing acc fuel with
  | nil => exact absurd rfl hne
  | cons f fs ih =>
    obtain ⟨key, v⟩ := f
    obtain ⟨n, rfl⟩ : ∃ n, fuel = n + 2 := ⟨fuel - 2, by simp at hf; omega⟩
    rw [List.map_cons, List.nodup_cons] at hk
    have hv₀ : IsScalar v := hv _ List.mem_cons_self
    have hput : put key v acc = acc ++ [(key, v)] := put_of_new (hacc _ List.mem_cons_self)
    cases fs with
    | nil =>
      rw [Writer.members, members_step key hv₀ n room ⟨rest, Or.inr rfl⟩, hput, closing]
    | cons g fs =>
      have hcloses : Closes (',' :: (Writer.members (g :: fs) ++ '}' :: rest)) := ⟨_, Or.inl rfl⟩
      have hstep := members_step key hv₀ n room hcloses acc
      have hskip : skip (Writer.members (g :: fs) ++ '}' :: rest) = Writer.members (g :: fs) ++ '}' :: rest := by
        obtain ⟨k', v'⟩ := g
        cases fs <;> rfl
      have hs : Writer.members ((key, v) :: g :: fs) ++ '}' :: rest =
          Writer.string key ++ ':' :: Writer.chars v ++ ',' :: (Writer.members (g :: fs) ++ '}' :: rest) := by
        rw [Writer.members]
        · simp
        · exact List.cons_ne_nil g fs
      rw [hs, hstep]
      rw [closing, hskip, hput, ih (List.cons_ne_nil g fs) (fun f hf => hv f (List.mem_cons_of_mem _ hf)) hk.2, List.append_assoc]
      · rfl
      · intro x hx
        rw [List.map_append, List.mem_append, not_or]
        refine ⟨hacc x (List.mem_cons_of_mem _ hx), fun hmem => hk.1 ?_⟩
        rw [← List.mem_singleton.mp hmem]
        exact List.mem_map_of_mem hx
      · simpa using hf

/-- An object of which every value is a scalar, with a key of its own each. -/
structure IsFlat (fs : List (String × Json)) : Prop where
  keys : (fs.map Prod.fst).Nodup
  values : ∀ f ∈ fs, IsScalar f.2

theorem length_le_members (fs : List (String × Json)) : fs.length ≤ (Writer.members fs).length := by
  induction fs with
  | nil => exact Nat.zero_le _
  | cons f fs ih =>
    obtain ⟨k, v⟩ := f
    cases fs with
    | nil => simp [Writer.members, Writer.string]
    | cons g fs =>
      rw [Writer.members]
      · simp only [List.length_cons, List.length_append] at ih ⊢
        omega
      · exact List.cons_ne_nil g fs

/-- An object that is not empty is read by its members. -/
theorem value_brace (fuel room : Nat) (r : List Char) :
    value (fuel + 1) (room + 1) ('{' :: '"' :: r) = members fuel room ('"' :: r) [] := rfl

theorem read_chars {fs : List (String × Json)} (h : IsFlat fs) : read (Writer.chars (.object fs)) = .ok (.object fs) := by
  have hlength := length_le_members fs
  have hs : Writer.chars (.object fs) = '{' :: (Writer.members fs ++ '}' :: []) := by simp [Writer.chars]
  have hskip : skip (Writer.chars (.object fs)) = Writer.chars (.object fs) := by
    rw [hs, skip_cons rfl]
  rw [read, hskip, hs]
  cases fs with
  | nil => rfl
  | cons f fs =>
    obtain ⟨k, v⟩ := f
    have hfuel : ((k, v) :: fs).length < 2 * ('{' :: (Writer.members ((k, v) :: fs) ++ ['}'])).length := by
      simp at hlength ⊢
      omega
    have hmem := members_chars (List.cons_ne_nil (k, v) fs) h.values h.keys [] (by simp) hfuel 959 []
    have hquote : ∃ r, Writer.members ((k, v) :: fs) ++ ['}'] = '"' :: r := by
      cases fs <;> exact ⟨_, rfl⟩
    obtain ⟨r, hr⟩ := hquote
    have hroom : nestingLimit = 959 + 1 := rfl
    rw [hr] at hmem ⊢
    rw [hroom, value_brace, hmem]
    rfl

/-! ## Bytes -/

theorem isPlain_char : ∀ d < 10, Unicode.IsPlain (Decimal.Digit.char d) := by
  decide

theorem isPlain_renderNat {n : Nat} {d : Char} (hd : d ∈ Decimal.Digit.renderNat n) : Unicode.IsPlain d := by
  unfold Decimal.Digit.renderNat at hd
  split at hd
  · obtain rfl := List.mem_singleton.mp hd
    decide
  · obtain ⟨k, hk, rfl⟩ := List.mem_map.mp hd
    rw [Decimal.Digit.digits_eq] at hk
    exact isPlain_char k (Radix.digits_lt (by decide) hk)

theorem isPlain_chars {v : Json} (hv : IsScalar v) {d : Char} (hd : d ∈ Writer.chars v) : Unicode.IsPlain d := by
  cases hv with
  | null =>
    have hall : ∀ c ∈ Writer.chars .null, Unicode.IsPlain c := List.all_iff_forall_prop.mp (by decide)
    exact hall d hd
  | bool b =>
    have hall : ∀ c ∈ Writer.chars (.bool b), Unicode.IsPlain c := List.all_iff_forall_prop.mp (by cases b <;> decide)
    exact hall d hd
  | text s => exact isPlain_string hd
  | @int n _ =>
    rw [Writer.chars, Decimal.Digit.renderInt] at hd
    split at hd
    · rcases List.mem_cons.mp hd with rfl | hd
      · decide
      · exact isPlain_renderNat hd
    · exact isPlain_renderNat hd

theorem isPlain_members {fs : List (String × Json)} (hv : ∀ f ∈ fs, IsScalar f.2) {d : Char}
    (hd : d ∈ Writer.members fs) : Unicode.IsPlain d := by
  have hmember {k : String} {v : Json} (hv : IsScalar v) (hd : d ∈ Writer.string k ++ ':' :: Writer.chars v) :
      Unicode.IsPlain d := by
    rw [List.mem_append, List.mem_cons] at hd
    rcases hd with hd | rfl | hd
    · exact isPlain_string hd
    · decide
    · exact isPlain_chars hv hd
  induction fs with
  | nil => cases hd
  | cons f fs ih =>
    obtain ⟨k, v⟩ := f
    cases fs with
    | nil => exact hmember (hv _ List.mem_cons_self) hd
    | cons g fs =>
      rw [Writer.members] at hd
      · rw [List.mem_append, List.mem_cons] at hd
        rcases hd with hd | rfl | hd
        · exact hmember (hv _ List.mem_cons_self) hd
        · decide
        · exact ih (fun f hf => hv f (List.mem_cons_of_mem _ hf)) hd
      · exact List.cons_ne_nil g fs

/-- A flat object is read back from the bytes of its text. -/
theorem readBytes_write {fs : List (String × Json)} (h : IsFlat fs) :
    readBytes (Bytes.ofText (Writer.write (.object fs))) = .ok (.object fs) := by
  have hplain : ∀ c ∈ (Writer.write (.object fs)).toList, Unicode.IsPlain c := by
    intro c hc
    simp only [Writer.write, String.toList_ofList, Writer.chars, List.cons_append, List.mem_cons, List.mem_append,
      List.not_mem_nil, or_false] at hc
    rcases hc with rfl | hc | rfl
    · decide
    · exact isPlain_members h.values hc
    · decide
  rw [readBytes, Unicode.ofBytes?_ofText hplain]
  simp only [Writer.write, String.toList_ofList, read_chars h]

end Reader

end WalletLogin.Json
