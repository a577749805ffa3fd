/-
  WalletLogin.Proofs.Web.Conversion — what becomes of the parts of a record that is
  converted.

  Every value but null has a text, and becomes it where a text is to stand. Where a whole
  number is to stand, a value becomes the number it stands for, and the default of the field
  if it stands for none; but an infinity, which stands for none either, is not replaced and
  ends the reading (`an_infinity_is_not_replaced`). Issues are raised by nulls, by fields that
  are missing and by values that are no list or no object where one is to stand.

  Proved:
  - `read_at`: what is made of a part is found in its place.
  - `read_explained`: whatever keeps a value from being read has its cause in a part of it.
  - `simple_parts_are_converted`: the parts of a record of a model, and what it fails for.
-/

import WalletLogin.Proofs.Web.Shapes

namespace WalletLogin.Web

namespace Shape

/-! ## Causes -/

/-- No conversion gives the value the shape. -/
inductive Amiss : Shape → Json → Complaint → Prop
  | text : Amiss .text .null .notText
  | whole : Amiss .whole .null .notWhole
  | optionalText {k} : k ≠ .null → (∀ s, k ≠ .text s) → Amiss .optionalText k .notText
  | listOf {s k} : (∀ xs, k ≠ .list xs) → Amiss (.listOf s) k .notList
  | record {fields k} : (∀ members, k ≠ .object members) → Amiss (.record fields) k .notObject

/-- The issue is about a part that is amiss, or about a field without a default that is not
there. -/
inductive Blames (d : Option Json) (s : Shape) (j : Json) : Issue → Prop
  | amiss {p e t k c} : At d s j p e t k → Amiss t k c → Blames d s j ⟨c, p⟩
  | missing {p e fields members name t} : At d s j p e (.record fields) (.object members) → (name, t, none) ∈ fields →
      Json.find? name members = none → Blames d s j ⟨.missing, p ++ [.field name]⟩

/-- An infinity is where a whole number is to stand. -/
def IsInfinity : Shape → Json → Prop
  | .whole, .float (.infinite _) => True
  | _, _ => False

/-- An object that is to be a record has a member of the reserved name. -/
def IsReserved : Shape → Json → Prop
  | .record _, .object members => Json.find? reservedName members ≠ none
  | _, _ => False

/-- Every issue, the overflow and the clash of names have the causes given. -/
def Explained (issue : Issue → Prop) (overflow reserved : Prop) : Misfit → Prop
  | .issues is => is ≠ [] ∧ ∀ i ∈ is, issue i
  | .overflow => overflow
  | .reserved => reserved

section Causes

variable {issue issue' : Issue → Prop} {overflow overflow' reserved reserved' : Prop} {m : Misfit}

theorem Explained.mono (h : Explained issue overflow reserved m) (hi : ∀ i, issue i → issue' i)
    (ho : overflow → overflow') (hr : reserved → reserved') : Explained issue' overflow' reserved' m := by
  cases m with
  | issues is => exact ⟨h.1, fun i hmem => hi i (h.2 i hmem)⟩
  | overflow => exact ho h
  | reserved => exact hr h

theorem Explained.single {i : Issue} (h : issue i) : Explained issue overflow reserved (.issues [i]) :=
  ⟨List.cons_ne_nil i [], fun _ hmem => List.mem_singleton.mp hmem ▸ h⟩

theorem both_error {α β γ : Type} {f : α → β → γ} {x : Except Misfit α} {y : Except Misfit β} (h : both f x y = .error m)
    (hx : ∀ a, x = .error a → Explained issue overflow reserved a)
    (hy : ∀ b, y = .error b → Explained issue overflow reserved b) : Explained issue overflow reserved m := by
  cases x with
  | ok a =>
    cases y with
    | ok b => cases h
    | error b => exact Except.error.inj h ▸ hy b rfl
  | error a =>
    have ha := hx a rfl
    cases a with
    | issues is =>
      cases y with
      | ok b => exact Except.error.inj h ▸ ha
      | error b =>
        have hb := hy b rfl
        cases b with
        | issues js =>
          rw [← Except.error.inj h]
          exact ⟨by simp [ha.1], fun i hi => (List.mem_append.mp hi).elim (ha.2 i) (hb.2 i)⟩
        | overflow => exact Except.error.inj h ▸ hb
        | reserved => exact Except.error.inj h ▸ hb
    | overflow => exact Except.error.inj h ▸ ha
    | reserved => exact Except.error.inj h ▸ ha

theorem under_error {α : Type} {p : Place} {x : Except Misfit α} (h : under p x = .error m)
    (hx : ∀ a, x = .error a → Explained (fun i => issue (i.under p)) overflow reserved a) :
    Explained issue overflow reserved m := by
  unfold under at h
  split at h
  case h_1 is =>
    obtain ⟨hne, his⟩ := hx (.issues is) rfl
    rw [← Except.error.inj h]
    exact ⟨by simp [hne], fun i hi => by
      obtain ⟨k, hk, rfl⟩ := List.mem_map.mp hi
      exact his k hk⟩
  case h_2 hno =>
    have hm := hx m h
    cases m with
    | issues is => exact absurd h (hno is)
    | overflow => exact hm
    | reserved => exact hm

theorem map_error {α β : Type} {g : α → β} {x : Except Misfit α} (h : x.map g = .error m) : x = .error m := by
  cases x with
  | error a => exact congrArg Except.error (Except.error.inj h)
  | ok a => cases h

theorem readList_error {f : Json → Except Misfit Json} {n : Nat} {xs : List Json} (h : readList f n xs = .error m)
    (hf : ∀ k x a, xs[k]? = some x → f x = .error a →
      Explained (fun i => issue (i.under (.index (n + k)))) overflow reserved a) :
    Explained issue overflow reserved m := by
  induction xs generalizing n m with
  | nil => cases h
  | cons x xs ih =>
    rw [readList] at h
    refine both_error h (fun a ha => under_error ha fun b hb => hf 0 x b rfl hb) fun b hb => ih hb fun k y a hy ha => ?_
    rw [Nat.add_right_comm, Nat.add_assoc]
    exact hf (k + 1) y a hy ha

theorem readFields_error {r : Reading} {members : List (String × Json)} {fields : List (String × Shape × Option Json)}
    (h : readFields r members fields = .error m) (hf : ∀ f ∈ fields, ∀ a, readField r members f = .error a →
      Explained (fun i => issue (i.under (.field f.1))) overflow reserved a) :
    Explained issue overflow reserved m := by
  induction fields generalizing m with
  | nil => cases h
  | cons f fields ih =>
    rw [List.forall_mem_cons] at hf
    rw [readFields_cons] at h
    exact both_error h (fun a ha => under_error ha hf.1) fun b hb => ih hb hf.2

end Causes

section Inside

variable {d c : Option Json} {s : Shape} {v x : Json} {i : Issue} {name : String} {members : List (String × Json)}
  {fields : List (String × Shape × Option Json)} {xs : List Json} {n : Nat}

theorem Blames.field (hf : (name, s, c) ∈ fields) (hv : Json.find? name members = some v) (h : Blames c s v i) :
    Blames d (.record fields) (.object members) (i.under (.field name)) := by
  cases h with
  | amiss hat ha => exact .amiss (.field hf hv hat) ha
  | missing hat hmem hno => exact .missing (.field hf hv hat) hmem hno

theorem Blames.element (hx : xs[n]? = some x) (h : Blames none s x i) :
    Blames d (.listOf s) (.list xs) (i.under (.index n)) := by
  cases h with
  | amiss hat ha => exact .amiss (.element hx hat) ha
  | missing hat hmem hno => exact .missing (.element hx hat) hmem hno

end Inside

/-! ## Simple parts -/

/-- The whole number that a value stands for, or else the default. -/
def wholeOr (default : Option Json) (j : Json) : Json :=
  match j.whole? with
  | some n => .int n
  | none => default.getD .null

theorem read_converting_text {d : Option Json} {j : Json} (hj : j ≠ .null) :
    read .converting d .text j = .ok (.text (Json.Display.display j)) := by
  rw [read]
  cases j with
  | null => exact absurd rfl hj
  | _ => rfl

theorem read_converting_whole {d : Option Json} {j : Json} (hj : j ≠ .null) (hi : ∀ neg, j ≠ .float (.infinite neg)) :
    read .converting d .whole j = .ok (wholeOr d j) := by
  have hc : convertedWhole d j = match j.whole? with
      | some n => .ok (.int n)
      | none => .ok (d.getD .null) := by
    unfold convertedWhole
    split
    case h_1 => exact absurd rfl hj
    case h_2 neg => exact absurd rfl (hi neg)
    case h_3 => rfl
  rw [read, readWhole, if_pos rfl, hc, wholeOr]
  cases j.whole? <;> rfl

/-! ## Whole values -/

/-- What is made of a part is found in its place. -/
theorem read_at {d e : Option Json} {s t : Shape} {j k v : Json} {p : List Place} (hs : Sound d s)
    (h : read .converting d s j = .ok v) (hat : At d s j p e t k) :
    ∃ w, At d s v p e t w ∧ read .converting e t k = .ok w := by
  induction hat generalizing v with
  | here => exact ⟨v, .here, h⟩
  | @field d fields members name s c u p e t k hf hu _ ih =>
    obtain ⟨_, values, hj, rfl, -, hvalues⟩ := read_record_eq_ok_iff.mp h
    obtain rfl := Json.object.inj hj
    cases hs with
    | record _ hn _ hfields =>
      obtain ⟨w, hw, hread⟩ := exists_value hvalues hn hf
      rw [readField_some hu, nested_converting] at hread
      obtain ⟨x, hx, hk⟩ := ih (hfields _ hf) hread
      exact ⟨x, .field hf hw hx, hk⟩
  | @element d s xs n x p e t k hx _ ih =>
    obtain ⟨_, ys, hj, rfl, hys⟩ := read_listOf_eq_ok_iff.mp h
    obtain rfl := Json.list.inj hj
    cases hs with
    | listOf _ hs =>
      obtain ⟨hn, rfl⟩ := List.getElem?_eq_some_iff.mp hx
      obtain ⟨hl, hread⟩ := List.forall₂_iff_get.mp hys
      obtain ⟨w, hw, hk⟩ := ih hs (hread n hn (hl ▸ hn))
      exact ⟨w, .element (List.getElem?_eq_getElem _) hw, hk⟩

/-- Whatever keeps a value from being read has its cause in a part of it. -/
theorem read_explained {d : Option Json} {s : Shape} (hs : Sound d s) {j : Json} {m : Misfit}
    (h : read .converting d s j = .error m) :
    Explained (Blames d s j) (Somewhere IsInfinity d s j) (Somewhere IsReserved d s j) m := by
  induction hs generalizing j m with
  | text =>
    by_cases hj : j = .null
    · subst hj
      obtain rfl : Misfit.issues [⟨.notText, []⟩] = m := Except.error.inj (by rwa [read] at h)
      exact .single (.amiss .here .text)
    · rw [read_converting_text hj] at h
      cases h
  | optionalText =>
    rw [read] at h
    unfold readOptionalText at h
    split at h
    case h_1 => cases h
    case h_2 => cases h
    case h_3 htext hnull =>
      obtain rfl := Except.error.inj h
      exact .single (.amiss .here (.optionalText hnull htext))
  | whole n =>
    by_cases hj : j = .null
    · subst hj
      obtain rfl : Misfit.issues [⟨.notWhole, []⟩] = m := Except.error.inj (by rwa [read] at h)
      exact .single (.amiss .here .whole)
    · by_cases hi : ∃ neg, j = .float (.infinite neg)
      · obtain ⟨neg, rfl⟩ := hi
        obtain rfl : Misfit.overflow = m := Except.error.inj (by rwa [read] at h)
        exact ⟨[], _, _, _, .here, trivial⟩
      · rw [read_converting_whole hj (not_exists.mp hi)] at h
        cases h
  | listOf _ _ ih =>
    cases j with
    | list xs =>
      rw [read] at h
      refine readList_error (map_error h) fun n x a hx ha => (ih ha).mono (fun i hi => ?_) (.element hx) (.element hx)
      rw [Nat.zero_add]
      exact hi.element hx
    | _ =>
      rw [read_listOf_of_not_list (by simp)] at h
      obtain rfl := Except.error.inj h
      exact .single (.amiss .here (.listOf (by simp)))
  | @record d fields _ _ _ _ ih =>
    cases j with
    | object members =>
      cases hr : Json.find? reservedName members with
      | some u =>
        rw [read_record_reserved hr] at h
        obtain rfl := Except.error.inj h
        exact ⟨[], _, _, _, .here, by simp [IsReserved, hr]⟩
      | none =>
        rw [read_record fun _ => hr] at h
        refine readFields_error (map_error h) fun f hf a ha => ?_
        obtain ⟨name, s, c⟩ := f
        cases hv : Json.find? name members with
        | some v =>
          rw [readField_some hv, nested_converting] at ha
          exact (ih _ hf ha).mono (fun i hi => hi.field hf hv) (.field hf hv) (.field hf hv)
        | none =>
          rw [readField_none hv] at ha
          cases c with
          | some u => cases ha
          | none =>
            obtain rfl := Except.error.inj ha
            exact .single (.missing .here hf hv)
    | _ =>
      rw [read_record_of_not_object (by simp)] at h
      obtain rfl := Except.error.inj h
      exact .single (.amiss .here (.record (by simp)))

end Shape

namespace Model

open Shape

/-- In a record that is made of the values in an object, the text of a value stands for it
where a text is to stand, and where a whole number is to stand the number that it stands for
or else the default of the field; neither for null, which has no text, nor for an infinity.
If no record is made, then for nulls where text or whole numbers are to stand, for missing
fields without a default, for values that are no list or no object where one is to stand, for
an infinity where a whole number is, or for a member of the reserved name. -/
theorem simple_parts_are_converted (m : Model) (members : List (String × Json)) :
    match m.read .converting (.object members) with
    | .ok v => ∀ p e k, k ≠ .null →
        (At none m.shape (.object members) p e .text k → At none m.shape v p e .text (.text (Json.Display.display k))) ∧
        (At none m.shape (.object members) p e .whole k →
          (∀ neg, k ≠ .float (.infinite neg)) ∧ At none m.shape v p e .whole (wholeOr e k))
    | .error f => Explained (Blames none m.shape (.object members)) (Somewhere IsInfinity none m.shape (.object members))
        (Somewhere IsReserved none m.shape (.object members)) f := by
  cases h : m.read .converting (.object members) with
  | error f => exact read_explained m.sound h
  | ok v =>
    refine fun p e k hk => ⟨fun hat => ?_, fun hat => ?_⟩
    · obtain ⟨w, hw, hread⟩ := read_at m.sound h hat
      rw [read_converting_text hk] at hread
      exact Except.ok.inj hread ▸ hw
    · obtain ⟨w, hw, hread⟩ := read_at m.sound h hat
      have hi : ∀ neg, k ≠ .float (.infinite neg) := by
        rintro neg rfl
        rw [Shape.read] at hread
        cases hread
      rw [read_converting_whole hk hi] at hread
      exact ⟨hi, Except.ok.inj hread ▸ hw⟩

/-- An infinity stands for no whole number, and still the default does not take its place, as
it does with what is no number at all. -/
theorem an_infinity_is_not_replaced :
    (Json.float (.infinite false)).whole? = none ∧
      nonceResponse.read .converting (.object [("expires_at", .float (.infinite false))]) = .error .overflow ∧
      nonceResponse.read .converting (.object [("expires_at", .float .nan)]) =
        .ok (.object [("nonce", .text ""), ("message", .text ""), ("expires_at", .int 0)]) :=
  ⟨rfl, rfl, rfl⟩

namespace Loose

/-- Values of several kinds where texts are to stand. -/
def members : List (String × Json) :=
  [("token", .int (-5)), ("user", .object [("id", .list [.bool true, .null]), ("seen", .null)]), ("wallet", .object [])]

/-- The record that is made of them. -/
def made : Json := .object [("token", .text "-5"), ("token_type", .text "bearer"),
  ("user", .object [("id", .text "[True, None]"), ("role", .text "")]),
  ("wallet", .object [("wallet_type", .text ""), ("address", .text "")])]

theorem read_members : authResponse.read .converting (.object members) = .ok made := rfl

theorem id_at : At none authResponse.shape (.object members) [.field "user", .field "id"] (some (.text "")) .text
    (.list [.bool true, .null]) :=
  .field (.tail _ (.tail _ (.head _))) rfl (.field (.head _) rfl .here)

end Loose

open Loose in
/-- A list, two records deep, is found as its text where it was. -/
theorem a_list_becomes_its_text :
    authResponse.read .converting (.object members) = .ok made ∧ Json.list [.bool true, .null] ≠ .null ∧
      At none authResponse.shape (.object members) [.field "user", .field "id"] (some (.text "")) .text
        (.list [.bool true, .null]) ∧
      At none authResponse.shape made [.field "user", .field "id"] (some (.text "")) .text
        (.text (Json.Display.display (.list [.bool true, .null]))) := by
  have hne : Json.list [.bool true, .null] ≠ .null := by simp
  have h := simple_parts_are_converted .authResponse members
  rw [read_members] at h
  exact ⟨read_members, hne, id_at, (h _ _ _ hne).1 id_at⟩

end Model

end WalletLogin.Web
