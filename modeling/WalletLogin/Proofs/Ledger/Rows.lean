/-
  WalletLogin.Proofs.Ledger.Rows — what the statements on the nonce table do to its
  rows, where every nonce has one row.

  Proved:
  - `spendable_eq_one_iff`: the conditional statement finds one row exactly when a live
    row of the owner bears the nonce, and leaves the table as it is when it finds none
    (`spend_eq_self`).
  - `spend_keeps` / `withNonce_keeps`: a row stays as it was stored, and once it is
    consumed it never changes again (`Ages`); so tables only grow (`Keeps`).
-/

import Mathlib.Data.List.Nodup
import WalletLogin.Ledger.Tables

namespace WalletLogin.Ledger

/-- Where the keys of a list differ, the first element with a key is the only one. -/
theorem find?_eq_some_iff_mem {α κ : Type} [DecidableEq κ] (key : α → κ) {l : List α} (hd : (l.map key).Nodup)
    {k : κ} {a : α} : l.find? (fun x => key x = k) = some a ↔ a ∈ l ∧ key a = k := by
  induction l with
  | nil => simp
  | cons b l ih =>
    rw [List.map_cons, List.nodup_cons] at hd
    by_cases hb : key b = k
    · rw [List.find?_cons_of_pos (by simpa using hb)]
      refine ⟨fun h => by cases h; exact ⟨List.mem_cons_self, hb⟩, fun ⟨ha, hk⟩ => ?_⟩
      rcases List.mem_cons.mp ha with rfl | ha
      · rfl
      · exact absurd (List.mem_map.mpr ⟨a, ha, hk.trans hb.symm⟩) hd.1
    · rw [List.find?_cons_of_neg (by simpa using hb), ih hd.2, List.mem_cons]
      refine ⟨fun ⟨ha, hk⟩ => ⟨Or.inr ha, hk⟩, fun ⟨ha, hk⟩ => ⟨ha.resolve_left ?_, hk⟩⟩
      rintro rfl
      exact hb hk

theorem find?_eq_none_iff_forall {α κ : Type} [DecidableEq κ] (key : α → κ) {l : List α} {k : κ} :
    l.find? (fun x => key x = k) = none ↔ ∀ a ∈ l, key a ≠ k := by
  simp [List.find?_eq_none]

/-- Where the keys of a list differ, an element is the only one with its key. -/
theorem filter_eq_singleton {α κ : Type} [DecidableEq κ] (key : α → κ) {l : List α} (hd : (l.map key).Nodup) {a : α}
    (ha : a ∈ l) : l.filter (fun x => key x = key a) = [a] := by
  induction l with
  | nil => cases ha
  | cons b l ih =>
    rw [List.map_cons, List.nodup_cons] at hd
    have hkey : ∀ x ∈ l, key x ≠ key b := fun x hx he => hd.1 (List.mem_map.mpr ⟨x, hx, he⟩)
    rcases List.mem_cons.mp ha with rfl | ha
    · rw [List.filter_cons_of_pos (by simp), List.filter_eq_nil_iff.mpr fun x hx => by simpa using hkey x hx]
    · rw [List.filter_cons_of_neg (by simpa using Ne.symm (hkey a ha)), ih hd.2 ha]

/-- A key that no element has is free for a new one. -/
theorem nodup_map_append {α κ : Type} (key : α → κ) {l : List α} {a : α} (hd : (l.map key).Nodup)
    (hk : ∀ b ∈ l, key b ≠ key a) : ((l ++ [a]).map key).Nodup := by
  rw [List.map_append, List.map_cons, List.map_nil, List.nodup_append]
  refine ⟨hd, List.nodup_singleton _, fun x hx y hy => ?_⟩
  obtain ⟨b, hb, rfl⟩ := List.mem_map.mp hx
  rw [List.mem_singleton.mp hy]
  exact hk b hb

namespace NonceRow

theorem isLive_iff {r : NonceRow} {o : Owner} {now : Int} :
    r.isLive o now = true ↔ r.owner = o ∧ r.consumedAt = none ∧ now < r.expiresAt := by
  simp [isLive, and_assoc]

/-- The row as the conditional statement of an owner leaves it. -/
def marked (o : Owner) (nonce : String) (now : Int) (r : NonceRow) : NonceRow :=
  if r.nonce = nonce ∧ r.isLive o now then { r with consumedAt := some now } else r

/-- `r'` is `r` at a later time: consumed perhaps, and unchanged if it was. -/
structure Ages (r r' : NonceRow) : Prop where
  nonce : r'.nonce = r.nonce
  owner : r'.owner = r.owner
  createdAt : r'.createdAt = r.createdAt
  expiresAt : r'.expiresAt = r.expiresAt
  consumed : r.consumedAt.isSome → r' = r

theorem Ages.refl (r : NonceRow) : Ages r r := ⟨rfl, rfl, rfl, rfl, fun _ => rfl⟩

theorem Ages.trans {r₁ r₂ r₃ : NonceRow} (h : Ages r₁ r₂) (h' : Ages r₂ r₃) : Ages r₁ r₃ where
  nonce := h'.nonce.trans h.nonce
  owner := h'.owner.trans h.owner
  createdAt := h'.createdAt.trans h.createdAt
  expiresAt := h'.expiresAt.trans h.expiresAt
  consumed hc := by
    have he := h.consumed hc
    subst he
    exact h'.consumed hc

theorem ages_marked (o : Owner) (nonce : String) (now : Int) (r : NonceRow) : Ages r (r.marked o nonce now) := by
  unfold marked
  split
  · rename_i h
    have hn := (isLive_iff.mp h.2).2.1
    exact ⟨rfl, rfl, rfl, rfl, fun hc => by rw [hn] at hc; cases hc⟩
  · exact Ages.refl r

@[simp] theorem marked_nonce (o : Owner) (nonce : String) (now : Int) (r : NonceRow) :
    (r.marked o nonce now).nonce = r.nonce := (ages_marked o nonce now r).nonce

@[simp] theorem marked_owner (o : Owner) (nonce : String) (now : Int) (r : NonceRow) :
    (r.marked o nonce now).owner = r.owner := (ages_marked o nonce now r).owner

@[simp] theorem marked_expiresAt (o : Owner) (nonce : String) (now : Int) (r : NonceRow) :
    (r.marked o nonce now).expiresAt = r.expiresAt := (ages_marked o nonce now r).expiresAt

end NonceRow

namespace Tables

/-- Every nonce has one row. -/
def NoncesDiffer (t : Tables) : Prop := (t.nonces.map (·.nonce)).Nodup

/-- A live row of the owner bears the nonce. -/
def Redeemable (t : Tables) (o : Owner) (nonce : String) (now : Int) : Prop :=
  ∃ r ∈ t.nonces, r.nonce = nonce ∧ r.isLive o now = true

theorem mem_of_findNonce? {t : Tables} {nonce : String} {r : NonceRow} (h : t.findNonce? nonce = some r) :
    r ∈ t.nonces ∧ r.nonce = nonce :=
  ⟨List.mem_of_find?_eq_some h, by simpa using List.find?_some h⟩

theorem findNonce?_eq_some_iff {t : Tables} (hd : t.NoncesDiffer) {nonce : String} {r : NonceRow} :
    t.findNonce? nonce = some r ↔ r ∈ t.nonces ∧ r.nonce = nonce :=
  find?_eq_some_iff_mem NonceRow.nonce hd

theorem findNonce?_eq_none_iff {t : Tables} {nonce : String} :
    t.findNonce? nonce = none ↔ ∀ r ∈ t.nonces, r.nonce ≠ nonce :=
  find?_eq_none_iff_forall NonceRow.nonce

/-! ## Storing -/

/-- The tables with one more nonce row. -/
def withNonce (t : Tables) (r : NonceRow) : Tables := { t with nonces := t.nonces ++ [r] }

@[simp] theorem withNonce_nonces (t : Tables) (r : NonceRow) : (t.withNonce r).nonces = t.nonces ++ [r] := rfl

theorem addNonce?_eq_some_iff {t t' : Tables} {r : NonceRow} :
    t.addNonce? r = some t' ↔ t.findNonce? r.nonce = none ∧ t' = t.withNonce r := by
  unfold addNonce?
  cases h : t.findNonce? r.nonce with
  | none => simp [withNonce, eq_comm]
  | some r' => simp

theorem addNonce?_eq_none_iff {t : Tables} {r : NonceRow} :
    t.addNonce? r = none ↔ t.findNonce? r.nonce ≠ none := by
  unfold addNonce?
  cases t.findNonce? r.nonce <;> simp

theorem withNonce_differ {t : Tables} (hd : t.NoncesDiffer) {r : NonceRow} (hn : t.findNonce? r.nonce = none) :
    (t.withNonce r).NoncesDiffer :=
  nodup_map_append NonceRow.nonce hd (findNonce?_eq_none_iff.mp hn)

/-- A row is found behind those that were there. -/
theorem findNonce?_withNonce_eq (t : Tables) (r : NonceRow) (nonce : String) :
    (t.withNonce r).findNonce? nonce = (t.findNonce? nonce).or (if r.nonce = nonce then some r else none) := by
  unfold findNonce? withNonce
  rw [List.find?_append, List.find?_singleton]
  by_cases h : r.nonce = nonce <;> simp [h]

theorem findNonce?_withNonce {t : Tables} (hd : t.NoncesDiffer) {r : NonceRow} (hn : t.findNonce? r.nonce = none) :
    (t.withNonce r).findNonce? r.nonce = some r :=
  (findNonce?_eq_some_iff (withNonce_differ hd hn)).mpr ⟨by simp, rfl⟩

/-! ## Spending -/

theorem spend_nonces (t : Tables) (o : Owner) (nonce : String) (now : Int) :
    (t.spend o nonce now).nonces = t.nonces.map (NonceRow.marked o nonce now) := rfl

theorem mem_spend {t : Tables} {o : Owner} {nonce : String} {now : Int} {r' : NonceRow} :
    r' ∈ (t.spend o nonce now).nonces ↔ ∃ r ∈ t.nonces, r.marked o nonce now = r' := by
  rw [spend_nonces, List.mem_map]

theorem spend_differ {t : Tables} (hd : t.NoncesDiffer) (o : Owner) (nonce : String) (now : Int) :
    (t.spend o nonce now).NoncesDiffer := by
  have hk : (t.spend o nonce now).nonces.map (·.nonce) = t.nonces.map (·.nonce) := by
    rw [spend_nonces, List.map_map]
    exact List.map_congr_left fun r _ => NonceRow.marked_nonce o nonce now r
  unfold NoncesDiffer
  rw [hk]
  exact hd

/-- Nothing happens where no live row bears the nonce. -/
theorem spend_eq_self {t : Tables} {o : Owner} {nonce : String} {now : Int} (h : ¬ t.Redeemable o nonce now) :
    t.spend o nonce now = t := by
  have hid : ∀ r ∈ t.nonces, NonceRow.marked o nonce now r = r := by
    intro r hr
    unfold NonceRow.marked
    rw [if_neg fun hc => h ⟨r, hr, hc.1, hc.2⟩]
  have hn : (t.spend o nonce now).nonces = t.nonces := by
    rw [spend_nonces, List.map_congr_left hid, List.map_id']
  cases t
  simp only [spend] at hn ⊢
  rw [hn]

/-- The statement finds at most one row, as a nonce has only one. -/
theorem spendable_eq_one_iff {t : Tables} (hd : t.NoncesDiffer) {o : Owner} {nonce : String} {now : Int} :
    t.spendable o nonce now = 1 ↔ t.Redeemable o nonce now := by
  unfold spendable Redeemable NoncesDiffer at *
  generalize t.nonces = l at hd ⊢
  induction l with
  | nil => simp
  | cons r l ih =>
    rw [List.map_cons, List.nodup_cons] at hd
    by_cases hr : r.nonce = nonce ∧ r.isLive o now = true
    · have hz : l.countP (fun r => r.nonce = nonce ∧ r.isLive o now = true) = 0 := by
        rw [List.countP_eq_zero]
        intro x hx hc
        have hx' : x.nonce = nonce := (of_decide_eq_true hc).1
        exact hd.1 (List.mem_map.mpr ⟨x, hx, hx'.trans hr.1.symm⟩)
      rw [List.countP_cons_of_pos (by simpa using hr), hz]
      simpa using Or.inl hr
    · rw [List.countP_cons_of_neg (by simpa using hr), ih hd.2]
      constructor
      · rintro ⟨x, hx, h⟩
        exact ⟨x, List.mem_cons_of_mem _ hx, h⟩
      · rintro ⟨x, hx, h⟩
        rcases List.mem_cons.mp hx with rfl | hx
        · exact absurd h hr
        · exact ⟨x, hx, h⟩

/-- The redeemed row afterwards. -/
theorem findNonce?_spend {t : Tables} (hd : t.NoncesDiffer) {o : Owner} {nonce : String} {now : Int} {r : NonceRow}
    (hr : r ∈ t.nonces) (hn : r.nonce = nonce) (hl : r.isLive o now = true) :
    (t.spend o nonce now).findNonce? nonce = some { r with consumedAt := some now } := by
  refine (findNonce?_eq_some_iff (spend_differ hd o nonce now)).mpr ⟨?_, hn⟩
  exact mem_spend.mpr ⟨r, hr, by rw [NonceRow.marked, if_pos ⟨hn, hl⟩]⟩

/-! ## Growing -/

/-- No nonce row of `t` is lost in `t'`, and a consumed one stays as it is. -/
def Keeps (t t' : Tables) : Prop := ∀ r ∈ t.nonces, ∃ r' ∈ t'.nonces, r.Ages r'

theorem Keeps.refl (t : Tables) : Keeps t t := fun r hr => ⟨r, hr, .refl r⟩

theorem Keeps.trans {t₁ t₂ t₃ : Tables} (h : Keeps t₁ t₂) (h' : Keeps t₂ t₃) : Keeps t₁ t₃ := by
  intro r hr
  obtain ⟨r₂, hr₂, ha⟩ := h r hr
  obtain ⟨r₃, hr₃, ha'⟩ := h' r₂ hr₂
  exact ⟨r₃, hr₃, ha.trans ha'⟩

theorem withNonce_keeps (t : Tables) (r : NonceRow) : Keeps t (t.withNonce r) :=
  fun x hx => ⟨x, List.mem_append_left _ hx, .refl x⟩

theorem spend_keeps (t : Tables) (o : Owner) (nonce : String) (now : Int) : Keeps t (t.spend o nonce now) :=
  fun r hr => ⟨_, mem_spend.mpr ⟨r, hr, rfl⟩, r.ages_marked o nonce now⟩

/-- A nonce that was spent cannot be redeemed, by anyone, at any time. -/
theorem Keeps.not_redeemable {t t' : Tables} (hk : Keeps t t') (hd : t'.NoncesDiffer) {nonce : String} {r : NonceRow}
    (hr : t.findNonce? nonce = some r) (hc : r.consumedAt.isSome) (o : Owner) (now : Int) :
    ¬ t'.Redeemable o nonce now := by
  rintro ⟨x, hx, hn, hl⟩
  obtain ⟨hm, hrn⟩ := mem_of_findNonce? hr
  obtain ⟨r', hr', ha⟩ := hk r hm
  have he : r' = x := List.inj_on_of_nodup_map hd hr' hx ((ha.nonce.trans hrn).trans hn.symm)
  rw [← he, ha.consumed hc, NonceRow.isLive_iff] at hl
  rw [hl.2.1] at hc
  cases hc

end Tables

end WalletLogin.Ledger
