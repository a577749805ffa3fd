/-
  WalletLogin.Proofs.Web.Records — records that need no conversion, and the ways to read
  them.

  A record fits a shape if texts, whole numbers, lists and objects are where the shape has
  them (`Fits`); which of its fields are there, and which others, does not matter. Then there
  is nothing to convert, and it is read alike as an object that is converted, as a row with
  objects inside and as a row with rows inside. But for one name: a row may have an attribute
  of the reserved name, which is left out like any other that is not a field, while an object
  with such a member is not converted at all.

  What is read has the fields of its shape and no others, each of the kind it is to be, so it
  is read again as it is.

  Proved:
  - `read_eq_read`: every reading of a record that fits and has no reserved name is the same.
  - `settled_of_read`: what one reading returns every reading returns again.
  - `records_are_read_alike`: the ways to make a record of a model.
  - `the_reserved_name_is_for_rows_only`: an object with a member too many.
-/

import WalletLogin.Proofs.Web.Conversion

namespace WalletLogin.Web

namespace Shape

/-! ## Records that fit -/

/-- The value is of the kind that the shape has. -/
def Admits : Shape → Json → Prop
  | .text, .text _ => True
  | .optionalText, .text _ => True
  | .optionalText, .null => True
  | .whole, .int _ => True
  | .listOf _, .list _ => True
  | .record _, .object _ => True
  | _, _ => False

/-- The object lacks no field that has no default. -/
def LacksNothing : Shape → Json → Prop
  | .record fields, .object members => ∀ name t, (name, t, none) ∈ fields → Json.find? name members ≠ none
  | _, _ => True

/-- Every part is of the kind that its shape has. -/
def Fits : Option Json → Shape → Json → Prop := Throughout Admits

/-- No record inside lacks a field that has no default. -/
def Complete : Option Json → Shape → Json → Prop := Throughout LacksNothing

/-- The members without that of the reserved name. -/
def unreserved (members : List (String × Json)) : List (String × Json) := members.filter (·.1 ≠ reservedName)

section Fitting

variable {d : Option Json} {s : Shape} {j k : Json} {name : String} {members : List (String × Json)}
  {fields : List (String × Shape × Option Json)}

theorem settled_of_text (h : Admits .text j) : Settled .text j := by
  cases j with
  | text t => exact settled_text t
  | _ => cases h

theorem settled_of_optionalText (h : Admits .optionalText j) : Settled .optionalText j := by
  cases j with
  | text t =>
    intro r d
    rw [read, readOptionalText]
  | null => exact settled_null
  | _ => cases h

theorem settled_of_whole (h : Admits .whole j) : Settled .whole j := by
  cases j with
  | int n => exact settled_int n
  | _ => cases h

theorem Amiss.not_admits {c : Complaint} (h : Amiss s k c) : ¬ s.Admits k := by
  cases h with
  | text => exact id
  | whole => exact id
  | optionalText hnull htext => cases k <;> simp_all [Admits]
  | listOf hno => cases k <;> simp_all [Admits]
  | record hno => cases k <;> simp_all [Admits]

theorem IsInfinity.not_admits (h : IsInfinity s k) : ¬ s.Admits k := by
  unfold IsInfinity at h
  split at h
  case h_1 => exact id
  case h_2 => exact absurd h id

/-! ## Readings alike -/

/-- Every reading of a record that fits and has no reserved name is the same. -/
theorem read_eq_read (hs : Sound d s) (h : Fits d s j) (hno : ¬ Somewhere IsReserved d s j) (r r' : Reading) :
    read r d s j = read r' d s j := by
  rw [not_somewhere_iff] at hno
  induction hs generalizing j r r' with
  | text => rw [settled_of_text h.self, settled_of_text h.self]
  | optionalText => rw [settled_of_optionalText h.self, settled_of_optionalText h.self]
  | whole n => rw [settled_of_whole h.self, settled_of_whole h.self]
  | listOf _ _ ih =>
    cases j with
    | list xs =>
      have hx := (throughout_listOf_iff.mp h).2
      have hnox := (throughout_listOf_iff.mp hno).2
      rw [read, read, readList_congr fun x hmem => ih (hx x hmem) (hnox x hmem) _ (inside r')]
    | _ => exact absurd h.self id
  | @record d fields _ _ _ _ ih =>
    cases j with
    | object members =>
      obtain ⟨hself, hnof⟩ := throughout_record_iff.mp hno
      have hfree : Json.find? reservedName members = none := not_not.mp hself
      have hfits := (throughout_record_iff.mp h).2
      rw [read_record fun _ => hfree, read_record fun _ => hfree]
      refine congrArg _ (readFields_congr fun f hf => ?_)
      cases hv : Json.find? f.1 members with
      | none => rw [readField_none hv, readField_none hv]
      | some v =>
        rw [readField_some hv, readField_some hv]
        exact ih f hf (hfits f hf v hv) (hnof f hf v hv) _ _
    | _ => exact absurd h.self id

/-- What is inside a row that holds objects is converted, as it is inside an object. -/
theorem readField_attributes (h : Fits d (.record fields) (.object members)) {f : String × Shape × Option Json}
    (hf : f ∈ fields) : readField .attributes members f = readField .converting members f := by
  obtain ⟨name, s, c⟩ := f
  cases hv : Json.find? name members with
  | none => rw [readField_none hv, readField_none hv]
  | some v =>
    rw [readField_some hv, readField_some hv]
    have hfits := (throughout_record_iff.mp h).2 _ hf v hv
    cases s with
    | text => exact (settled_of_text hfits.self _ _).trans (settled_of_text hfits.self _ _).symm
    | optionalText => exact (settled_of_optionalText hfits.self _ _).trans (settled_of_optionalText hfits.self _ _).symm
    | whole => exact (settled_of_whole hfits.self _ _).trans (settled_of_whole hfits.self _ _).symm
    | listOf s =>
      cases v with
      | list xs =>
        show read .attributes c (.listOf s) (.list xs) = read .converting c (.listOf s) (.list xs)
        rw [read, read, inside, inside]
      | _ => exact absurd hfits.self id
    | record fields => rfl

theorem find?_unreserved (hne : name ≠ reservedName) : Json.find? name (unreserved members) = Json.find? name members := by
  induction members with
  | nil => rfl
  | cons m members ih =>
    obtain ⟨key, v⟩ := m
    by_cases hkey : key = reservedName
    · rw [unreserved, List.filter_cons_of_neg (by simp [hkey]), ← unreserved, ih, Json.find?,
        if_neg fun he => hne (he.symm.trans hkey)]
    · rw [unreserved, List.filter_cons_of_pos (by simp [hkey]), ← unreserved, Json.find?, Json.find?, ih]

theorem find?_reserved_unreserved : Json.find? reservedName (unreserved members) = none := by
  rw [Json.find?_eq_none_iff, unreserved]
  intro h
  obtain ⟨m, hm, he⟩ := List.mem_map.mp h
  exact of_decide_eq_true (List.mem_filter.mp hm).2 he

theorem unreserved_eq_self (h : Json.find? reservedName members = none) : unreserved members = members :=
  List.filter_eq_self.mpr fun _ hm =>
    decide_eq_true fun he => Json.find?_eq_none_iff.mp h (he ▸ List.mem_map_of_mem hm)

/-- A row that holds objects is read as the object without the reserved name. -/
theorem read_attributes (hs : Sound d (.record fields)) (h : Fits d (.record fields) (.object members)) :
    read .attributes d (.record fields) (.object members) =
      read .converting d (.record fields) (.object (unreserved members)) := by
  cases hs with
  | record _ _ hr _ =>
    rw [read_record (fun hc => by cases hc), read_record fun _ => find?_reserved_unreserved]
    refine congrArg _ (readFields_congr fun f hf => ?_)
    have hne : f.1 ≠ reservedName := fun he => hr (he ▸ List.mem_map_of_mem hf)
    rw [readField_attributes h hf, readField, readField, find?_unreserved hne]

/-- A record that fits, lacks nothing and has no reserved name is read. -/
theorem exists_read (hs : Sound d s) (h : Fits d s j) (hc : Complete d s j) (hno : ¬ Somewhere IsReserved d s j)
    (r : Reading) : ∃ v, read r d s j = .ok v := by
  rw [read_eq_read hs h hno r .converting]
  cases hread : read .converting d s j with
  | ok v => exact ⟨v, rfl⟩
  | error m =>
    have hm := read_explained hs hread
    cases m with
    | issues is =>
      obtain ⟨i, hi⟩ := List.exists_mem_of_ne_nil is hm.1
      cases hm.2 i hi with
      | amiss hat ha => exact absurd (h _ _ _ _ hat) ha.not_admits
      | missing hat hmem hnone => exact absurd hnone (hc _ _ _ _ hat _ _ hmem)
    | overflow =>
      obtain ⟨p, e, t, k, hat, hinf⟩ := hm
      exact absurd (h _ _ _ _ hat) hinf.not_admits
    | reserved => exact absurd hm hno

end Fitting

/-! ## Reading again -/

section Again

variable {d : Option Json} {s : Shape} {r : Reading} {j v : Json}

theorem admits_of_exactWhole (h : exactWhole j = .ok v) : Admits .whole v := by
  cases j with
  | int n => exact Except.ok.inj h ▸ trivial
  | bool b => exact Except.ok.inj h ▸ trivial
  | float x =>
    simp only [exactWhole, wholeOfFloat] at h
    split at h
    case h_1 => cases h
    case h_2 n _ =>
      split_ifs at h
      · exact Except.ok.inj h ▸ trivial
      · cases h
  | text t =>
    simp only [exactWhole, wholeOfText] at h
    split at h
    case h_1 => exact Except.ok.inj h ▸ trivial
    all_goals cases h
  | _ => cases h

theorem admits_of_convertedWhole {n : Int} (h : convertedWhole (some (.int n)) j = .ok v) : Admits .whole v := by
  unfold convertedWhole at h
  split at h
  case h_1 => cases h
  case h_2 => cases h
  case h_3 =>
    split at h
    · exact Except.ok.inj h ▸ trivial
    · exact Except.ok.inj h ▸ trivial

theorem admits_of_readText (h : readText r j = .ok v) : Admits .text v := by
  unfold readText at h
  split at h
  case h_1 => exact Except.ok.inj h ▸ trivial
  case h_2 => cases h
  case h_3 =>
    split_ifs at h
    · exact Except.ok.inj h ▸ trivial
    · cases h

theorem admits_of_readOptionalText (h : readOptionalText j = .ok v) : Admits .optionalText v := by
  unfold readOptionalText at h
  split at h
  case h_1 => exact Except.ok.inj h ▸ trivial
  case h_2 => exact Except.ok.inj h ▸ trivial
  case h_3 => cases h

/-- What one reading returns every reading returns again. -/
theorem settled_of_read (hs : Sound d s) (h : read r d s j = .ok v) : Settled s v := by
  induction hs generalizing r j v with
  | text =>
    rw [read] at h
    exact settled_of_text (admits_of_readText h)
  | optionalText =>
    rw [read] at h
    exact settled_of_optionalText (admits_of_readOptionalText h)
  | whole n =>
    rw [read, readWhole] at h
    split_ifs at h
    · exact settled_of_whole (admits_of_convertedWhole h)
    · exact settled_of_whole (admits_of_exactWhole h)
  | listOf _ _ ih =>
    obtain ⟨xs, ys, rfl, rfl, hys⟩ := read_listOf_eq_ok_iff.mp h
    obtain ⟨hl, hread⟩ := List.forall₂_iff_get.mp hys
    refine fun _ _ => read_listOf fun y hy => ?_
    obtain ⟨n, hn, rfl⟩ := List.mem_iff_getElem.mp hy
    exact ih (hread n (hl ▸ hn) hn) _ _
  | @record d fields _ hn hr hfields ih =>
    obtain ⟨members, values, rfl, rfl, -, hvalues⟩ := read_record_eq_ok_iff.mp h
    have hfree : Json.find? reservedName values = none := by
      rw [Json.find?_eq_none_iff, names_of_forall₂ hvalues]
      exact hr
    refine fun r' _ => read_record_eq_ok_iff.mpr ⟨values, values, rfl, rfl, fun _ => hfree, ?_⟩
    obtain ⟨hl, hread⟩ := List.forall₂_iff_get.mp hvalues
    refine List.forall₂_iff_get.mpr ⟨hl, fun n hf hv => ⟨(hread n hf hv).1, ?_⟩⟩
    have hmem := List.get_mem fields ⟨n, hf⟩
    obtain ⟨w, hw, hsame⟩ := exists_value hvalues hn hmem
    have hvalue := (hread n hf hv).2
    obtain rfl := Except.ok.inj (hsame.symm.trans hvalue)
    rw [readField_some hw]
    -- the value comes from a member, or it is the default
    cases hu : Json.find? (fields.get ⟨n, hf⟩).1 members with
    | some u =>
      rw [readField_some hu] at hvalue
      exact ih _ hmem hvalue _ _
    | none =>
      rw [readField_none hu] at hvalue
      cases hc : (fields.get ⟨n, hf⟩).2.2 with
      | none =>
        rw [hc] at hvalue
        cases hvalue
      | some c =>
        rw [hc] at hvalue
        obtain rfl := Except.ok.inj hvalue
        exact (hfields _ hmem).settled _ hc _ _

end Again

end Shape

namespace Model

open Shape

/-- A record that fits is read alike as a row with objects inside, as a row with rows inside
and as an object that is converted, and if it lacks nothing there is something to return. But
an object with a member of the reserved name is not converted, where a row is read as if it
had no such attribute. Whatever is returned, of whatever and in whatever way, is converted
into itself. -/
theorem records_are_read_alike (m : Model) :
    (∀ members, Fits none m.shape (.object members) →
      (Json.find? reservedName members = none →
        m.read .attributes (.object members) = m.read .converting (.object members)) ∧
      (Json.find? reservedName members ≠ none → m.read .converting (.object members) = .error .reserved ∧
        m.read .attributes (.object members) = m.read .converting (.object (unreserved members))) ∧
      (¬ Somewhere IsReserved none m.shape (.object members) →
        m.read .rows (.object members) = m.read .converting (.object members) ∧
        (Complete none m.shape (.object members) → ∃ v, m.read .converting (.object members) = .ok v))) ∧
    ∀ r j v, m.read r j = .ok v → m.read .converting v = .ok v := by
  refine ⟨fun members h => ⟨fun hno => ?_, fun hsome => ⟨?_, ?_⟩, fun hno => ⟨?_, fun hc => ?_⟩⟩, fun r j v h => ?_⟩
  · have hread := read_attributes m.sound h
    rwa [unreserved_eq_self hno] at hread
  · obtain ⟨u, hu⟩ := Option.ne_none_iff_exists'.mp hsome
    exact read_record_reserved hu
  · exact read_attributes m.sound h
  · exact read_eq_read m.sound h hno _ _
  · exact exists_read m.sound h hc hno _
  · exact settled_of_read m.sound h _ _

namespace Profile

/-- A user without an id, with a wallet and more than is asked for. -/
def members : List (String × Json) :=
  [("role", .text "contributor"), ("last_login_at", .int 0),
    ("wallets", .list [.object [("address", .text "0x00"), ("public_key", .null), ("wallet_type", .text "evm")]])]

theorem throughout {P : Shape → Json → Prop} (htext : ∀ s, P .text (.text s)) (hlist : ∀ s xs, P (.listOf s) (.list xs))
    (hrecord : ∀ fields ms, (∀ f ∈ fields, f.2.2 ≠ none) → Json.find? reservedName ms = none →
      P (.record fields) (.object ms)) : Throughout P none meResponse.shape (.object members) := by
  refine throughout_record_iff.mpr ⟨hrecord _ _ (by simp [fields, userFields, text]) rfl, fun f hf v hv => ?_⟩
  simp only [fields, userFields, List.mem_append, List.mem_cons, List.not_mem_nil, or_false] at hf
  rcases hf with (rfl | rfl) | rfl
  · cases hv
  · cases hv
    exact throughout_text (htext _)
  · cases hv
    refine throughout_listOf_iff.mpr ⟨hlist _ _, fun x hx => ?_⟩
    obtain rfl := List.mem_singleton.mp hx
    refine throughout_record_iff.mpr ⟨hrecord _ _ (by simp [walletFields, text]) rfl, fun f hf v hv => ?_⟩
    simp only [walletFields, List.mem_cons, List.not_mem_nil, or_false] at hf
    rcases hf with rfl | rfl <;> cases hv <;> exact throughout_text (htext _)

theorem fits : Fits none meResponse.shape (.object members) :=
  throughout (fun _ => trivial) (fun _ _ => trivial) fun _ _ _ _ => trivial

theorem complete : Complete none meResponse.shape (.object members) :=
  throughout (fun _ => trivial) (fun _ _ => trivial) fun _ _ hd _ _ _ hmem => absurd rfl (hd _ hmem)

theorem not_reserved : ¬ Somewhere IsReserved none meResponse.shape (.object members) :=
  not_somewhere_iff.mpr (throughout (fun _ => id) (fun _ _ => id) fun _ _ _ hno => not_not.mpr hno)

end Profile

open Profile in
/-- A profile is read alike in the three ways, and what is returned is returned again. -/
theorem a_profile_is_read_alike :
    Fits none meResponse.shape (.object members) ∧ ¬ Somewhere IsReserved none meResponse.shape (.object members) ∧
      Complete none meResponse.shape (.object members) ∧ Json.find? reservedName members = none ∧
      meResponse.read .attributes (.object members) = meResponse.read .converting (.object members) ∧
      meResponse.read .rows (.object members) = meResponse.read .converting (.object members) ∧
      ∃ v, meResponse.read .converting (.object members) = .ok v ∧ meResponse.read .converting v = .ok v := by
  obtain ⟨hrecords, hagain⟩ := records_are_read_alike .meResponse
  obtain ⟨hattributes, -, hrows⟩ := hrecords members fits
  obtain ⟨v, hv⟩ := (hrows not_reserved).2 complete
  exact ⟨fits, not_reserved, complete, rfl, hattributes rfl, (hrows not_reserved).1, v, hv, hagain _ _ _ hv⟩

/-- The row has an attribute more than is asked for; so has the object, and is not converted. -/
theorem the_reserved_name_is_for_rows_only :
    Fits none userResponse.shape (.object [("id", .text "u"), ("role", .text "r"), ("self", .text "x")]) ∧
      userResponse.read .attributes (.object [("id", .text "u"), ("role", .text "r"), ("self", .text "x")]) =
        .ok (.object [("id", .text "u"), ("role", .text "r")]) ∧
      userResponse.read .converting (.object [("id", .text "u"), ("role", .text "r"), ("self", .text "x")]) =
        .error .reserved := by
  refine ⟨throughout_record_iff.mpr ⟨trivial, fun f hf v hv => ?_⟩, rfl, rfl⟩
  simp only [fields, userFields, List.mem_cons, List.not_mem_nil, or_false] at hf
  rcases hf with rfl | rfl <;> cases hv <;> exact throughout_text trivial

end Model

end WalletLogin.Web
