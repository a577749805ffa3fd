/-
  WalletLogin.Proofs.Web.Shapes — what stands where in a value that is to have a shape.

  A value that is to have a shape has parts that are to have shapes of their own: the members
  named by the fields of a record, with the defaults of these fields, and the elements of a
  list, which have none (`At`). Reading goes through these parts and puts what it makes of
  each into the same place.

  The shapes of the models are well made (`Sound`, `Model.sound`): no two fields of a record
  have one name and none has the reserved one, every default is of its field's shape, and a
  whole number always has a default.

  Proved:
  - `readFields_eq_ok_iff`, `readList_eq_ok_iff`: a record is read if and only if every field
    is, a list if and only if every element is.
  - `readFields_congr`, `readList_congr`: nothing but the fields and the elements counts.
-/

import Mathlib.Data.List.Forall2
import Mathlib.Tactic.SplitIfs
import WalletLogin.Web.Model

namespace WalletLogin

theorem Json.find?_eq_none_iff {key : String} {members : List (String × Json)} :
    Json.find? key members = none ↔ key ∉ members.map (·.1) := by
  induction members with
  | nil => simp [Json.find?]
  | cons m members ih =>
    obtain ⟨k, v⟩ := m
    rw [Json.find?, List.map_cons, List.mem_cons, not_or, ← ih]
    split_ifs with hk
    · simp [hk]
    · simp [Ne.symm hk]

namespace Web

namespace Shape

/-! ## Parts -/

/-- The value `j`, which is to have the shape `s` (and as a field the default `d`), has behind
the places the part `k`, which is to have the shape `t` (and as a field the default `e`). -/
inductive At : Option Json → Shape → Json → List Place → Option Json → Shape → Json → Prop
  | here {d s j} : At d s j [] d s j
  | field {d fields members name s c v p e t k} : (name, s, c) ∈ fields → Json.find? name members = some v →
      At c s v p e t k → At d (.record fields) (.object members) (.field name :: p) e t k
  | element {d s xs n x p e t k} : xs[n]? = some x → At none s x p e t k →
      At d (.listOf s) (.list xs) (.index n :: p) e t k

/-- Of a value or a part of it, and the shape that it is to have, the statement is true. -/
def Somewhere (P : Shape → Json → Prop) (d : Option Json) (s : Shape) (j : Json) : Prop :=
  ∃ p e t k, At d s j p e t k ∧ P t k

/-- Of a value and all its parts, with the shapes that they are to have, the statement is true. -/
def Throughout (P : Shape → Json → Prop) (d : Option Json) (s : Shape) (j : Json) : Prop :=
  ∀ p e t k, At d s j p e t k → P t k

section Parts

variable {P : Shape → Json → Prop} {d c : Option Json} {s : Shape} {j v x : Json} {name : String}
  {members : List (String × Json)} {fields : List (String × Shape × Option Json)} {xs : List Json} {n : Nat}

theorem not_somewhere_iff : ¬ Somewhere P d s j ↔ Throughout (fun t k => ¬ P t k) d s j := by
  simp only [Somewhere, Throughout, not_exists, not_and]

theorem Somewhere.field (hf : (name, s, c) ∈ fields) (hv : Json.find? name members = some v) :
    Somewhere P c s v → Somewhere P d (.record fields) (.object members)
  | ⟨_, e, t, k, h, hp⟩ => ⟨_, e, t, k, .field hf hv h, hp⟩

theorem Somewhere.element (hx : xs[n]? = some x) : Somewhere P none s x → Somewhere P d (.listOf s) (.list xs)
  | ⟨_, e, t, k, h, hp⟩ => ⟨_, e, t, k, .element hx h, hp⟩

theorem Throughout.self (h : Throughout P d s j) : P s j := h _ _ _ _ .here

theorem throughout_text (h : P .text j) : Throughout P d .text j := by
  rintro p e t k ⟨⟩
  exact h

theorem throughout_listOf_iff : Throughout P d (.listOf s) (.list xs) ↔
    P (.listOf s) (.list xs) ∧ ∀ x ∈ xs, Throughout P none s x := by
  constructor
  · refine fun h => ⟨h.self, fun x hx => ?_⟩
    obtain ⟨n, hn⟩ := List.mem_iff_getElem?.mp hx
    exact fun _ _ _ _ hat => h _ _ _ _ (.element hn hat)
  · rintro ⟨hself, h⟩ p e t k hat
    cases hat with
    | here => exact hself
    | element hx hat => exact h _ (List.mem_of_getElem? hx) _ _ _ _ hat

theorem throughout_record_iff : Throughout P d (.record fields) (.object members) ↔ P (.record fields) (.object members) ∧
    ∀ f ∈ fields, ∀ v, Json.find? f.1 members = some v → Throughout P f.2.2 f.2.1 v := by
  constructor
  · exact fun h => ⟨h.self, fun f hf v hv _ _ _ _ hat => h _ _ _ _ (.field hf hv hat)⟩
  · rintro ⟨hself, h⟩ p e t k hat
    cases hat with
    | here => exact hself
    | field hf hv hat => exact h _ hf _ hv _ _ _ _ hat

end Parts

/-- Every reading takes the value as it is. -/
def Settled (s : Shape) (v : Json) : Prop := ∀ r d, read r d s v = .ok v

/-- A shape, with the default of its field, that is well made. -/
inductive Sound : Option Json → Shape → Prop
  | text {d} : (∀ v ∈ d, Settled .text v) → Sound d .text
  | optionalText {d} : (∀ v ∈ d, Settled .optionalText v) → Sound d .optionalText
  | whole (n : Int) : Sound (some (.int n)) .whole
  | listOf {d s} : (∀ v ∈ d, Settled (.listOf s) v) → Sound none s → Sound d (.listOf s)
  | record {d fields} : (∀ v ∈ d, Settled (.record fields) v) → (fields.map (·.1)).Nodup →
      reservedName ∉ fields.map (·.1) → (∀ f ∈ fields, Sound f.2.2 f.2.1) → Sound d (.record fields)

/-! ## Steps of a reading -/

section Steps

variable {α β γ : Type} {f : α → β → γ} {x : Except Misfit α} {y : Except Misfit β}

@[simp] theorem both_ok (f : α → β → γ) (a : α) (b : β) : both f (.ok a) (.ok b) = .ok (f a b) := rfl

@[simp] theorem under_ok (p : Place) (a : α) : under p (.ok a : Except Misfit α) = .ok a := rfl

theorem both_eq_ok_iff {c : γ} : both f x y = .ok c ↔ ∃ a b, x = .ok a ∧ y = .ok b ∧ f a b = c := by
  constructor
  · intro h
    unfold both at h
    split at h
    case h_1 a b => exact ⟨a, b, rfl, rfl, Except.ok.inj h⟩
    all_goals cases h
  · rintro ⟨a, b, rfl, rfl, rfl⟩
    rfl

theorem under_eq_ok_iff {p : Place} {a : α} : under p x = .ok a ↔ x = .ok a := by
  rcases x with (is | _ | _) | b
  · exact iff_of_false (by simp [under]) (by simp)
  · rfl
  · rfl
  · rfl

theorem map_eq_ok_iff {g : α → β} {b : β} : x.map g = .ok b ↔ ∃ a, x = .ok a ∧ g a = b := by
  cases x with
  | error m => simp [Except.map]
  | ok a => simp [Except.map]

end Steps

section Reading

variable {r r' : Reading} {d : Option Json} {s : Shape} {members members' values : List (String × Json)}
  {fields : List (String × Shape × Option Json)}

@[simp] theorem read_text (r : Reading) (default : Option Json) (s : String) :
    read r default .text (.text s) = .ok (.text s) := by
  rw [read, readText]

@[simp] theorem nested_converting (s : Shape) : nested .converting s = .converting := by
  cases s <;> rfl

/-! ## Lists -/

theorem readList_eq_ok_iff {f : Json → Except Misfit Json} {xs ys : List Json} {n : Nat} :
    readList f n xs = .ok ys ↔ List.Forall₂ (fun x y => f x = .ok y) xs ys := by
  induction xs generalizing n ys with
  | nil => simp [readList, eq_comm]
  | cons x xs ih =>
    rw [readList, both_eq_ok_iff, List.forall₂_cons_left_iff]
    simp only [under_eq_ok_iff, ih]
    constructor
    · rintro ⟨y, ys, hy, hys, rfl⟩
      exact ⟨y, ys, hy, hys, rfl⟩
    · rintro ⟨y, ys, hy, hys, rfl⟩
      exact ⟨y, ys, hy, hys, rfl⟩

theorem readList_congr {f g : Json → Except Misfit Json} {xs : List Json} (h : ∀ x ∈ xs, f x = g x) (n : Nat) :
    readList f n xs = readList g n xs := by
  induction xs generalizing n with
  | nil => rfl
  | cons x xs ih =>
    rw [List.forall_mem_cons] at h
    rw [readList, readList, h.1, ih h.2]

theorem readList_ok {f : Json → Except Misfit Json} {js : List Json} (h : ∀ j ∈ js, f j = .ok j) (n : Nat) :
    readList f n js = .ok js :=
  readList_eq_ok_iff.mpr (List.forall₂_same.mpr h)

theorem read_listOf {js : List Json} (h : ∀ j ∈ js, read (inside r) none s j = .ok j) :
    read r d (.listOf s) (.list js) = .ok (.list js) := by
  rw [read, readList_ok h]
  rfl

theorem read_listOf_of_not_list {j : Json} (h : ∀ xs, j ≠ .list xs) : read r d (.listOf s) j = complain .notList := by
  cases j with
  | list xs => exact absurd rfl (h xs)
  | _ => simp [read]

theorem read_listOf_eq_ok_iff {j v : Json} : read r d (.listOf s) j = .ok v ↔
    ∃ xs ys, j = .list xs ∧ v = .list ys ∧ List.Forall₂ (fun x y => read (inside r) none s x = .ok y) xs ys := by
  constructor
  · intro h
    cases j with
    | list xs =>
      rw [read, map_eq_ok_iff] at h
      obtain ⟨ys, hys, rfl⟩ := h
      exact ⟨xs, ys, rfl, rfl, readList_eq_ok_iff.mp hys⟩
    | _ =>
      rw [read_listOf_of_not_list (by simp)] at h
      cases h
  · rintro ⟨xs, ys, rfl, rfl, h⟩
    rw [read, readList_eq_ok_iff.mpr h]
    rfl

/-! ## Records -/

/-- The value of a field. -/
def readField (r : Reading) (members : List (String × Json)) (f : String × Shape × Option Json) : Except Misfit Json :=
  match Json.find? f.1 members, f.2.2 with
  | some j, _ => read (nested r f.2.1) f.2.2 f.2.1 j
  | none, some d => .ok d
  | none, none => complain .missing

theorem readField_some {f : String × Shape × Option Json} {v : Json} (h : Json.find? f.1 members = some v) :
    readField r members f = read (nested r f.2.1) f.2.2 f.2.1 v := by
  rw [readField, h]

theorem readField_none {f : String × Shape × Option Json} (h : Json.find? f.1 members = none) :
    readField r members f = f.2.2.elim (complain .missing) .ok := by
  rw [readField, h]
  cases f.2.2 <;> rfl

theorem readFields_cons (f : String × Shape × Option Json) : readFields r members (f :: fields) =
    both (fun v vs => (f.1, v) :: vs) (under (.field f.1) (readField r members f)) (readFields r members fields) := by
  obtain ⟨name, s, d⟩ := f
  cases hfind : Json.find? name members <;> cases d <;> simp only [readFields, readField, hfind]

theorem readFields_eq_ok_iff : readFields r members fields = .ok values ↔
    List.Forall₂ (fun f v => v.1 = f.1 ∧ readField r members f = .ok v.2) fields values := by
  induction fields generalizing values with
  | nil => simp [readFields, eq_comm]
  | cons f fields ih =>
    rw [readFields_cons, both_eq_ok_iff, List.forall₂_cons_left_iff]
    simp only [under_eq_ok_iff, ih]
    constructor
    · rintro ⟨v, vs, hv, hvs, rfl⟩
      exact ⟨(f.1, v), vs, ⟨rfl, hv⟩, hvs, rfl⟩
    · rintro ⟨⟨name, v⟩, vs, ⟨rfl, hv⟩, hvs, rfl⟩
      exact ⟨v, vs, hv, hvs, rfl⟩

theorem readFields_congr (h : ∀ f ∈ fields, readField r members f = readField r' members' f) :
    readFields r members fields = readFields r' members' fields := by
  induction fields with
  | nil => rfl
  | cons f fields ih =>
    rw [List.forall_mem_cons] at h
    rw [readFields_cons, readFields_cons, h.1, ih h.2]

theorem read_record (hr : r = .converting → Json.find? reservedName members = none) :
    read r d (.record fields) (.object members) = (readFields r members fields).map .object := by
  have hno : ¬ (r = .converting ∧ (Json.find? reservedName members).isSome = true) := by
    rintro ⟨hc, hsome⟩
    rw [hr hc] at hsome
    cases hsome
  rw [read, if_neg hno]

theorem read_record_reserved {v : Json} (h : Json.find? reservedName members = some v) :
    read .converting d (.record fields) (.object members) = .error .reserved := by
  rw [read, if_pos ⟨rfl, by rw [h, Option.isSome_some]⟩]

theorem read_record_of_not_object {j : Json} (h : ∀ members, j ≠ .object members) :
    read r d (.record fields) j = complain .notObject := by
  cases j with
  | object members => exact absurd rfl (h members)
  | _ => simp [read]

theorem read_record_eq_ok_iff {j v : Json} : read r d (.record fields) j = .ok v ↔
    ∃ members values, j = .object members ∧ v = .object values ∧
      (r = .converting → Json.find? reservedName members = none) ∧
      List.Forall₂ (fun f v => v.1 = f.1 ∧ readField r members f = .ok v.2) fields values := by
  constructor
  · intro h
    cases j with
    | object members =>
      have hr : r = .converting → Json.find? reservedName members = none := by
        rintro rfl
        by_contra hsome
        obtain ⟨u, hu⟩ := Option.ne_none_iff_exists'.mp hsome
        rw [read_record_reserved hu] at h
        cases h
      rw [read_record hr, map_eq_ok_iff] at h
      obtain ⟨values, hvalues, rfl⟩ := h
      exact ⟨members, values, rfl, rfl, hr, readFields_eq_ok_iff.mp hvalues⟩
    | _ =>
      rw [read_record_of_not_object (by simp)] at h
      cases h
  · rintro ⟨members, values, rfl, rfl, hr, h⟩
    rw [read_record hr, readFields_eq_ok_iff.mpr h]
    rfl

/-- Where the names differ, the value of a field is found under its name. -/
theorem exists_value (h : List.Forall₂ (fun f v => v.1 = f.1 ∧ readField r members f = .ok v.2) fields values)
    (hn : (fields.map (·.1)).Nodup) {f : String × Shape × Option Json} (hf : f ∈ fields) :
    ∃ v, Json.find? f.1 values = some v ∧ readField r members f = .ok v := by
  induction h with
  | nil => cases hf
  | @cons g v fields values hv _ ih =>
    obtain ⟨name, v⟩ := v
    obtain ⟨rfl, hv⟩ := hv
    rw [List.map_cons, List.nodup_cons] at hn
    rcases List.mem_cons.mp hf with rfl | hf
    · exact ⟨v, if_pos rfl, hv⟩
    · have hne : g.1 ≠ f.1 := fun he => hn.1 (he ▸ List.mem_map_of_mem hf)
      rw [Json.find?, if_neg hne]
      exact ih hn.2 hf

theorem names_of_forall₂ (h : List.Forall₂ (fun f v => v.1 = f.1 ∧ readField r members f = .ok v.2) fields values) :
    values.map (·.1) = fields.map (·.1) := by
  induction h with
  | nil => rfl
  | cons hv _ ih => rw [List.map_cons, List.map_cons, hv.1, ih]

end Reading

/-! ## Well-made shapes -/

theorem settled_text (s : String) : Settled .text (.text s) := fun r d => read_text r d s

theorem settled_int (n : Int) : Settled .whole (.int n) := by
  intro r d
  rw [read, readWhole]
  split_ifs <;> rfl

theorem settled_null : Settled .optionalText .null := by
  intro r d
  rw [read, readOptionalText]

theorem settled_empty (s : Shape) : Settled (.listOf s) (.list []) := fun _ _ => read_listOf fun _ h => by cases h

theorem Settled.default {s : Shape} {v : Json} (h : Settled s v) : ∀ u ∈ some v, Settled s u := by
  intro u hu
  rw [Option.mem_some_iff] at hu
  exact hu ▸ h

/-- A default is of its field's shape. -/
theorem Sound.settled {d : Option Json} {s : Shape} (h : Sound d s) : ∀ v ∈ d, Settled s v := by
  cases h with
  | text hd => exact hd
  | optionalText hd => exact hd
  | whole n => exact (settled_int n).default
  | listOf hd _ => exact hd
  | record hd _ _ _ => exact hd

theorem sound_text (s : String) : Sound (some (.text s)) .text := .text (settled_text s).default

theorem sound_record {fields : List (String × Shape × Option Json)} (hn : (fields.map (·.1)).Nodup)
    (hr : reservedName ∉ fields.map (·.1)) (hf : ∀ f ∈ fields, Sound f.2.2 f.2.1) : Sound none (.record fields) :=
  .record (fun v hv => by cases hv) hn hr hf

end Shape

namespace Model

open Shape (Sound sound_text sound_record)

theorem sound_user : Sound none (.record userFields) :=
  sound_record (by decide) (by decide) (by simp [userFields, text, sound_text])

theorem sound_wallet : Sound none (.record walletFields) :=
  sound_record (by decide) (by decide) (by simp [walletFields, text, sound_text])

/-- The shapes of all models are well made. -/
theorem sound (m : Model) : Sound none m.shape := by
  have htoken : Sound none .text := .text fun v hv => by cases hv
  have hexpiry : Sound (some (.int 0)) .whole := .whole 0
  have hkey : Sound (some .null) .optionalText := .optionalText Shape.settled_null.default
  have hwallets : Sound (some (.list [])) (.listOf (.record walletFields)) :=
    .listOf (Shape.settled_empty _).default sound_wallet
  cases m with
  | nonceRequest => exact sound_wallet
  | verifyRequest => exact sound_record (by decide) (by decide) (by simp [fields, walletFields, text, sound_text, hkey])
  | nonceResponse => exact sound_record (by decide) (by decide) (by simp [fields, text, sound_text, hexpiry])
  | userResponse => exact sound_user
  | walletResponse => exact sound_wallet
  | authResponse =>
    exact sound_record (by decide) (by decide) (by simp [fields, sound_text, htoken, sound_user, sound_wallet])
  | meResponse => exact sound_record (by decide) (by decide) (by simp [fields, userFields, text, sound_text, hwallets])
  | healthCheck => exact sound_record (by decide) (by decide) (by simp [fields, sound_text])

end Model

end Web

end WalletLogin
