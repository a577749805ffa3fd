/-
  WalletLogin.Proofs.Wallet.Shelley — Shelley addresses and all that spells them.

  The header tells the parts and the kind of each, and the parts have their lengths from
  it, but for the three numbers of a pointer, of which each says where it ends: any zeros
  may stand in front of it, and groups that end no number may follow the third. No header
  starts an array, so no spelling is taken for a Byron address.

  Each reader is stated against the spellings, which do not mention it: of a pointer
  (`Pointer.Spells`), of the parts (`Shelley.Spells`), of an address in bytes (`SpelledBy`)
  and in a text (`Spelled`). What is written is one of the spellings.

  Proved:
  - `ofBytes?_eq_some_iff`, `ofText?_eq_some_iff`: an address is read from its spellings and
    from nothing else.
  - `ofText?_text`, `text_injective`: a text that is not too long is a text of its address,
    and of no other.
  - `length_text_le`: only an address with a pointer can have a text that is too long.
-/

import Mathlib.Data.Bool.AllAny
import WalletLogin.Proofs.Encoding.Bech32
import WalletLogin.Proofs.Encoding.Cbor.Leaves
import WalletLogin.Wallet.Cardano.Address

namespace WalletLogin.Wallet.Cardano

open Encoding

/-! ## Pointers -/

namespace Pointer

theorem numbers_markAll {ds : List Nat} (hd : ∀ d ∈ ds, d < 128) (acc : Nat) (r : Bytes) :
    numbers acc (markAll ds ++ r) = numbers (ds.foldl (fun n d => n * 128 + d) acc) r := by
  induction ds generalizing acc with
  | nil => rfl
  | cons d ds ih =>
    rw [List.forall_mem_cons] at hd
    have hbyte : (UInt8.ofNat (128 + d)).toNat = 128 + d := UInt8.toNat_ofNat_of_lt' (show 128 + d < 256 by omega)
    have hmod : (128 + d) % 128 = d := by omega
    rw [markAll, List.map_cons, List.cons_append, numbers]
    simp only [hbyte, hmod]
    rw [if_neg (by omega), ← markAll, ih hd.2]
    rfl

/-- A number ends where it says. -/
theorem numbers_writeNumber (n : Nat) (r : Bytes) : numbers 0 (writeNumber n ++ r) = n :: numbers 0 r := by
  have hlast : (UInt8.ofNat (n % 128)).toNat = n % 128 := UInt8.toNat_ofNat_of_lt' (show n % 128 < 256 by omega)
  have hvalue : (Radix.digits 128 (n / 128)).foldl (fun m d => m * 128 + d) 0 = n / 128 :=
    Radix.value_digits (by decide) (n / 128)
  have hmod : n / 128 * 128 + n % 128 % 128 = n := by omega
  rw [writeNumber, List.append_assoc, numbers_markAll fun d hd => Radix.digits_lt (by decide) hd, hvalue,
    List.singleton_append, numbers]
  simp only [hlast, hmod]
  rw [if_pos (by omega)]

/-- A number behind groups of zeros. -/
def padded (zeros n : Nat) : Bytes := markAll (List.replicate zeros 0) ++ writeNumber n

theorem numbers_padded (zeros n : Nat) (r : Bytes) : numbers 0 (padded zeros n ++ r) = n :: numbers 0 r := by
  have hzero : (List.replicate zeros 0).foldl (fun m d => m * 128 + d) 0 = 0 := by
    have hvalue := Radix.value_replicate_zero 128 zeros []
    rwa [List.append_nil] at hvalue
  have hmarks : ∀ d ∈ List.replicate zeros 0, d < 128 := fun d hd => by
    rw [List.eq_of_mem_replicate hd]
    decide
  rw [padded, List.append_assoc, numbers_markAll hmarks, hzero, numbers_writeNumber]

theorem markAll_toNat {x : UInt8} (hx : ¬ x.toNat < 128) : [x] = markAll [x.toNat % 128] := by
  have hsum : 128 + x.toNat % 128 = x.toNat := by
    have := x.toNat_lt
    omega
  rw [markAll, List.map_singleton, hsum, UInt8.ofNat_toNat]

/-- Where no number ends, every group is marked. -/
theorem numbers_eq_nil {b : Bytes} {acc : Nat} (h : numbers acc b = []) : ∃ ds, (∀ d ∈ ds, d < 128) ∧ b = markAll ds := by
  induction b generalizing acc with
  | nil => exact ⟨[], by simp, rfl⟩
  | cons x r ih =>
    rw [numbers] at h
    by_cases hx : x.toNat < 128
    · rw [if_pos hx] at h
      cases h
    · rw [if_neg hx] at h
      obtain ⟨ds, hds, rfl⟩ := ih h
      refine ⟨x.toNat % 128 :: ds, List.forall_mem_cons.mpr ⟨Nat.mod_lt _ (by decide), hds⟩, ?_⟩
      exact congrArg (· ++ markAll ds) (markAll_toNat hx)

/-- The groups of the first number, of which the last is not marked. -/
theorem numbers_eq_cons {b : Bytes} {acc n : Nat} {ns : List Nat} (h : numbers acc b = n :: ns) :
    ∃ ds d r, (∀ e ∈ ds, e < 128) ∧ d < 128 ∧ b = markAll ds ++ [UInt8.ofNat d] ++ r ∧
      n = ds.foldl (fun m e => m * 128 + e) acc * 128 + d ∧ ns = numbers 0 r := by
  induction b generalizing acc with
  | nil => cases h
  | cons x r ih =>
    rw [numbers] at h
    by_cases hx : x.toNat < 128
    · rw [if_pos hx] at h
      obtain ⟨rfl, rfl⟩ := List.cons.inj h
      refine ⟨[], x.toNat, r, by simp, hx, ?_, ?_, rfl⟩
      · rw [UInt8.ofNat_toNat]
        rfl
      · rw [Nat.mod_eq_of_lt hx, List.foldl_nil]
    · rw [if_neg hx] at h
      obtain ⟨ds, d, r', hds, hd, rfl, rfl, rfl⟩ := ih h
      refine ⟨x.toNat % 128 :: ds, d, r', List.forall_mem_cons.mpr ⟨Nat.mod_lt _ (by decide), hds⟩, hd, ?_, rfl, rfl⟩
      exact congrArg (· ++ (markAll ds ++ [UInt8.ofNat d] ++ r')) (markAll_toNat hx)

theorem exists_padded {b : Bytes} {n : Nat} {ns : List Nat} (h : numbers 0 b = n :: ns) :
    ∃ zeros r, b = padded zeros n ++ r ∧ numbers 0 r = ns := by
  obtain ⟨ds, d, r, hds, hd, rfl, rfl, rfl⟩ := numbers_eq_cons h
  obtain ⟨zeros, es, rfl, hz⟩ := Radix.exists_zeros_append ds
  have hes : ∀ e ∈ es, e < 128 := fun e he => hds e (List.mem_append_right _ he)
  have hvalue : (List.replicate zeros 0 ++ es).foldl (fun m e => m * 128 + e) 0 = Radix.value 128 es :=
    Radix.value_replicate_zero 128 zeros es
  have hdiv : (Radix.value 128 es * 128 + d) / 128 = Radix.value 128 es := by omega
  have hmod : (Radix.value 128 es * 128 + d) % 128 = d := by omega
  refine ⟨zeros, r, ?_, rfl⟩
  rw [hvalue, padded, writeNumber, hdiv, hmod, Radix.digits_value (by decide) hes hz, ← List.append_assoc]
  simp only [markAll, List.map_append]

/-- The bytes spell the three numbers, with any zeros in front of each, and what follows them
is no number. -/
def Spells (p : Pointer) (b : Bytes) : Prop :=
  ∃ i j k ds, (∀ d ∈ ds, d < 128) ∧
    b = padded i p.slot ++ (padded j p.transaction ++ (padded k p.certificate ++ markAll ds))

theorem read?_eq_some_iff {p : Pointer} {b : Bytes} : read? b = some p ↔ p.Spells b := by
  constructor
  · intro h
    unfold read? at h
    split at h
    case h_2 => cases h
    case h_1 s t c hnumbers =>
      cases h
      obtain ⟨i, r₁, rfl, h₁⟩ := exists_padded hnumbers
      obtain ⟨j, r₂, rfl, h₂⟩ := exists_padded h₁
      obtain ⟨k, r₃, rfl, h₃⟩ := exists_padded h₂
      obtain ⟨ds, hds, rfl⟩ := numbers_eq_nil h₃
      exact ⟨i, j, k, ds, hds, rfl⟩
  · rintro ⟨i, j, k, ds, hds, rfl⟩
    have htail := numbers_markAll hds 0 []
    rw [List.append_nil, numbers] at htail
    rw [read?, numbers_padded, numbers_padded, numbers_padded, htail]

theorem spells_write (p : Pointer) : p.Spells p.write :=
  ⟨0, 0, 0, [], by simp, by simp [write, padded, markAll]⟩

end Pointer

namespace Shelley

/-! ## Parts -/

/-- The hashes have their length. -/
def HasHashes : Parts → Prop
  | .base p s => p.hash.length = hashLength ∧ s.hash.length = hashLength
  | .pointer p _ => p.hash.length = hashLength
  | .payment p => p.hash.length = hashLength
  | .stake s => s.hash.length = hashLength

theorem hash?_eq_some_iff {isScript : Bool} {b : Bytes} {c : Credential} :
    hash? isScript b = some c ↔ b.length = hashLength ∧ c = ⟨isScript, b⟩ := by
  unfold hash?
  split
  case isTrue h => simp [h, eq_comm]
  case isFalse h => simp [h]

/-- The bytes spell the parts: they are the hashes, and a pointer in any of its spellings. -/
def Spells : Parts → Bytes → Prop
  | .base p s, b => b = p.hash ++ s.hash
  | .pointer p s, b => ∃ q, s.Spells q ∧ b = p.hash ++ q
  | .payment p, b => b = p.hash
  | .stake s, b => b = s.hash

theorem spells_payload (p : Parts) : Spells p (payload p) := by
  cases p with
  | pointer p s => exact ⟨_, s.spells_write, rfl⟩
  | _ => rfl

theorem both_eq_some_iff {x y : Bool} {b : Bytes} {p : Parts} :
    parts?.both b x y = some p ↔
      ∃ c d, p = .base ⟨x, c⟩ ⟨y, d⟩ ∧ c.length = hashLength ∧ d.length = hashLength ∧ b = c ++ d := by
  simp only [parts?.both, Option.bind_eq_bind, Option.bind_eq_some_iff, Option.pure_def, Option.some.injEq,
    hash?_eq_some_iff]
  constructor
  · rintro ⟨_, ⟨hc, rfl⟩, _, ⟨hd, rfl⟩, rfl⟩
    exact ⟨_, _, rfl, hc, hd, (List.take_append_drop _ b).symm⟩
  · rintro ⟨c, d, rfl, hc, hd, rfl⟩
    refine ⟨_, ⟨?_, rfl⟩, _, ⟨?_, rfl⟩, ?_⟩
    · rw [List.take_left' hc, hc]
    · rw [List.drop_left' hc, hd]
    · rw [List.take_left' hc, List.drop_left' hc]

theorem pointing_eq_some_iff {x : Bool} {b : Bytes} {p : Parts} :
    parts?.pointing b x = some p ↔
      ∃ c s q, p = .pointer ⟨x, c⟩ s ∧ c.length = hashLength ∧ s.Spells q ∧ b = c ++ q := by
  simp only [parts?.pointing, Option.bind_eq_bind, Option.bind_eq_some_iff, Option.pure_def, Option.some.injEq,
    hash?_eq_some_iff, Pointer.read?_eq_some_iff]
  constructor
  · rintro ⟨_, ⟨hc, rfl⟩, s, hs, rfl⟩
    exact ⟨_, s, _, rfl, hc, hs, (List.take_append_drop _ b).symm⟩
  · rintro ⟨c, s, q, rfl, hc, hs, rfl⟩
    refine ⟨_, ⟨?_, rfl⟩, s, ?_, ?_⟩
    · rw [List.take_left' hc, hc]
    · rwa [List.drop_left' hc]
    · rw [List.take_left' hc]

theorem one_eq_some_iff {x : Bool} {b : Bytes} {make : Credential → Parts} {p : Parts} :
    (hash? x b).map make = some p ↔ p = make ⟨x, b⟩ ∧ b.length = hashLength := by
  rw [Option.map_eq_some_iff]
  simp only [hash?_eq_some_iff]
  constructor
  · rintro ⟨_, ⟨hl, rfl⟩, rfl⟩
    exact ⟨rfl, hl⟩
  · rintro ⟨rfl, hl⟩
    exact ⟨_, ⟨hl, rfl⟩, rfl⟩

/-- The parts are those that their type announces. -/
theorem parts?_eq_some_iff {t : Nat} {b : Bytes} {p : Parts} :
    parts? t b = some p ↔ t = type p ∧ HasHashes p ∧ Spells p b := by
  constructor
  · intro h
    unfold parts? at h
    split at h
    case h_11 => cases h
    case h_1 | h_2 | h_3 | h_4 =>
      obtain ⟨c, d, rfl, hc, hd, rfl⟩ := both_eq_some_iff.mp h
      exact ⟨rfl, ⟨hc, hd⟩, rfl⟩
    case h_5 | h_6 =>
      obtain ⟨c, s, q, rfl, hc, hs, rfl⟩ := pointing_eq_some_iff.mp h
      exact ⟨rfl, hc, q, hs, rfl⟩
    case h_7 | h_8 | h_9 | h_10 =>
      obtain ⟨rfl, hl⟩ := one_eq_some_iff.mp h
      exact ⟨rfl, hl, rfl⟩
  · rintro ⟨rfl, hl, hs⟩
    cases p with
    | base p s =>
      obtain ⟨px, ph⟩ := p
      obtain ⟨sx, sh⟩ := s
      have hboth : parts?.both b px sx = some (.base ⟨px, ph⟩ ⟨sx, sh⟩) :=
        both_eq_some_iff.mpr ⟨ph, sh, rfl, hl.1, hl.2, hs⟩
      cases px <;> cases sx <;> exact hboth
    | pointer p s =>
      obtain ⟨px, ph⟩ := p
      obtain ⟨q, hq, hb⟩ := hs
      have hpointing : parts?.pointing b px = some (.pointer ⟨px, ph⟩ s) :=
        pointing_eq_some_iff.mpr ⟨ph, s, q, rfl, hl, hq, hb⟩
      cases px <;> exact hpointing
    | payment p =>
      obtain ⟨px, ph⟩ := p
      obtain rfl : b = ph := hs
      have hone : (hash? px b).map Parts.payment = some (.payment ⟨px, b⟩) := one_eq_some_iff.mpr ⟨rfl, hl⟩
      cases px <;> exact hone
    | stake s =>
      obtain ⟨sx, sh⟩ := s
      obtain rfl : b = sh := hs
      have hone : (hash? sx b).map Parts.stake = some (.stake ⟨sx, b⟩) := one_eq_some_iff.mpr ⟨rfl, hl⟩
      cases sx <;> exact hone

/-! ## Bytes -/

theorem type_lt (p : Parts) : type p < 8 ∨ type p = 14 ∨ type p = 15 := by
  unfold type
  split <;> split_ifs <;> omega

theorem code_lt (n : Network) : n.code < 2 := by
  cases n <;> decide

theorem ofCode?_code (n : Network) : Network.ofCode? n.code = some n := by
  cases n <;> rfl

theorem header_toNat (a : Shelley) :
    (UInt8.ofNat (16 * type a.parts + a.network.code)).toNat = 16 * type a.parts + a.network.code := by
  have ht := type_lt a.parts
  have hc := code_lt a.network
  exact UInt8.toNat_ofNat_of_lt' (show _ < 256 by omega)

theorem ofCode?_eq_some_iff {c : Nat} {n : Network} : Network.ofCode? c = some n ↔ c = n.code := by
  constructor
  · intro h
    unfold Network.ofCode? at h
    split at h <;> cases h <;> rfl
  · rintro rfl
    exact ofCode?_code n

/-- The bytes behind the header spell the parts. -/
def SpelledBy (a : Shelley) : Bytes → Prop
  | [] => False
  | x :: r => x = UInt8.ofNat (16 * type a.parts + a.network.code) ∧ Spells a.parts r

theorem spelledBy_toBytes (a : Shelley) : a.SpelledBy a.toBytes := ⟨rfl, spells_payload a.parts⟩

/-- The bytes of an address are those that spell it. -/
theorem ofBytes?_eq_some_iff {a : Shelley} {b : Bytes} : ofBytes? b = some a ↔ HasHashes a.parts ∧ a.SpelledBy b := by
  cases b with
  | nil =>
    constructor
    · intro h
      cases h
    · rintro ⟨-, ⟨⟩⟩
  | cons x r =>
    simp only [ofBytes?, Option.bind_eq_bind, Option.bind_eq_some_iff, Option.pure_def, Option.some.injEq,
      ofCode?_eq_some_iff, parts?_eq_some_iff]
    constructor
    · rintro ⟨n, hn, p, ⟨ht, hl, hs⟩, rfl⟩
      refine ⟨hl, ?_, hs⟩
      have hheader : 16 * type p + n.code = x.toNat := by omega
      rw [hheader, UInt8.ofNat_toNat]
    · rintro ⟨hl, rfl, hs⟩
      have hc := code_lt a.network
      rw [header_toNat]
      exact ⟨a.network, by omega, a.parts, ⟨by omega, hl, hs⟩, rfl⟩

/-- What was written of an address is that address. -/
theorem ofBytes?_toBytes {a : Shelley} (h : HasHashes a.parts) : ofBytes? a.toBytes = some a :=
  ofBytes?_eq_some_iff.mpr ⟨h, a.spelledBy_toBytes⟩

section SpelledBy

variable {a : Shelley} {b : Bytes} (hs : a.SpelledBy b)
include hs

/-- The header of a Shelley address does not start an array. -/
theorem SpelledBy.byron_ofBytes?_eq_none : Byron.ofBytes? b = none := by
  cases b with
  | nil => cases hs
  | cons x r =>
    obtain ⟨rfl, -⟩ := hs
    have hmajor : (UInt8.ofNat (16 * type a.parts + a.network.code)).toNat / 32 < 4 ∨
        (UInt8.ofNat (16 * type a.parts + a.network.code)).toNat / 32 = 7 := by
      have ht := type_lt a.parts
      have hc := code_lt a.network
      rw [header_toNat]
      omega
    unfold Byron.ofBytes?
    split
    case h_2 => rfl
    case h_1 hread => cases Cbor.isLeaf_of_read? hmajor hread

/-- Behind the header stands at least one hash. -/
theorem SpelledBy.two_le_length (h : HasHashes a.parts) : 2 ≤ b.length := by
  cases b with
  | nil => cases hs
  | cons x r =>
    obtain ⟨-, hs⟩ := hs
    have hr : 28 ≤ r.length := by
      cases hp : a.parts with
      | base p s =>
        rw [hp] at h hs
        rw [show r = p.hash ++ s.hash from hs, List.length_append]
        have hl : p.hash.length = 28 := h.1
        omega
      | pointer p s =>
        rw [hp] at h hs
        obtain ⟨q, -, rfl⟩ := hs
        have hl : p.hash.length = 28 := h
        rw [List.length_append]
        omega
      | payment p =>
        rw [hp] at h hs
        rw [show r = p.hash from hs]
        exact Nat.le_of_eq (Eq.symm h)
      | stake s =>
        rw [hp] at h hs
        rw [show r = s.hash from hs]
        exact Nat.le_of_eq (Eq.symm h)
    rw [List.length_cons]
    omega

end SpelledBy

/-! ## Texts -/

/-- What the texts begin with. -/
def beginnings : List (List Char) := ["addr".toList, "addr_test".toList, "stake".toList, "stake_test".toList]

theorem readable_mem (a : Shelley) : a.readable ∈ beginnings := by
  obtain ⟨network, parts⟩ := a
  cases network <;> cases parts <;> simp [readable, beginnings]

theorem isReadable_readable (a : Shelley) : Bech32.IsReadable a.readable := by
  have hall : ∀ r ∈ beginnings, r ≠ [] ∧
      r.all (fun c => Text.Blank.IsVisible c ∧ Text.Case.lowerChar c = c) = true := by decide
  obtain ⟨hne, hchars⟩ := hall _ a.readable_mem
  rw [List.all_iff_forall_prop] at hchars
  exact ⟨hne, fun c hc => (hchars c hc).1, fun c hc => (hchars c hc).2⟩

theorem length_readable_le (a : Shelley) : a.readable.length ≤ 9 ∨ a.readable.length ≤ 10 ∧ ∃ s, a.parts = .stake s := by
  obtain ⟨network, parts⟩ := a
  cases network <;> cases parts <;> simp [readable]

/-- An address without a pointer has a text. -/
theorem length_text_le {a : Shelley} (h : HasHashes a.parts) (hp : ∀ p s, a.parts ≠ .pointer p s) :
    a.text.length ≤ Bech32.maxLength := by
  obtain ⟨network, parts⟩ := a
  have hr := length_readable_le ⟨network, parts⟩
  rw [text, Bech32.length_encode, Bech32.maxLength]
  cases parts with
  | base p s =>
    obtain ⟨hph, hsh⟩ := h
    rw [hashLength] at hph hsh
    simp only [toBytes, payload, List.length_cons, List.length_append, hph, hsh, reduceCtorEq, exists_false, and_false,
      or_false] at hr ⊢
    omega
  | pointer p s => exact absurd rfl (hp p s)
  | payment p =>
    have hph : p.hash.length = 28 := h
    simp only [toBytes, payload, List.length_cons, hph] at hr ⊢
    omega
  | stake s =>
    have hsh : s.hash.length = 28 := h
    simp only [toBytes, payload, List.length_cons, hsh] at hr ⊢
    omega

/-- The text spells the address: behind any readable part, in one letter case and with either
checksum, its bytes spell it. -/
def Spelled (a : Shelley) (s : List Char) : Prop := ∃ readable b, Bech32.Spells s readable b ∧ a.SpelledBy b

/-- A text with a Byron beginning has both letter cases. -/
theorem isAdmissible_of_byron {s : List Char} (h : Address.byronBeginnings.any (·.isPrefixOf s) = true) :
    Bech32.isAdmissible s = false := by
  have hall : ∀ b ∈ Address.byronBeginnings, b.any Bech32.isUpper = true ∧ b.any Bech32.isLower = true := by decide
  obtain ⟨b, hb, hprefix⟩ := List.any_eq_true.mp h
  obtain ⟨t, rfl⟩ := List.isPrefixOf_iff_prefix.mp hprefix
  obtain ⟨hupper, hlower⟩ := hall b hb
  simp [Bech32.isAdmissible, List.any_append, hupper, hlower]

/-- The texts of an address are those that spell it. -/
theorem ofText?_eq_some_iff {a : Shelley} {s : List Char} :
    Address.ofText? s = some (.shelley a) ↔ HasHashes a.parts ∧ a.Spelled s := by
  have hbyron : ∀ t, Address.ofByronText? t ≠ some (.shelley a) := by
    intro t h
    unfold Address.ofByronText? at h
    split at h
    case h_1 => simp at h
    case h_2 => cases h
  constructor
  · intro h
    unfold Address.ofText? at h
    split at h
    case isTrue => exact absurd h (hbyron s)
    case isFalse =>
      split at h
      case h_2 => exact absurd h (hbyron s)
      case h_1 readable b hread =>
        rw [Address.ofBytes?, Option.or_eq_some_iff] at h
        rcases h with h | ⟨-, h⟩
        · simp at h
        · obtain ⟨a', ha, he⟩ := Option.map_eq_some_iff.mp h
          cases he
          obtain ⟨hl, hs⟩ := ofBytes?_eq_some_iff.mp ha
          exact ⟨hl, readable, b, Bech32.decode?_eq_some_iff.mp hread, hs⟩
  · rintro ⟨hl, readable, b, hread, hs⟩
    have hbeginning : ¬ Address.byronBeginnings.any (·.isPrefixOf s) = true := fun h => by
      have hadmissible := hread.admissible
      rw [isAdmissible_of_byron h] at hadmissible
      cases hadmissible
    rw [Address.ofText?, if_neg hbeginning, Bech32.decode?_eq_some_iff.mpr hread]
    simp only [Address.ofBytes?, hs.byron_ofBytes?_eq_none, ofBytes?_eq_some_iff.mpr ⟨hl, hs⟩, Option.map_none,
      Option.map_some, Option.none_or]

/-- The address can be read from its text, if that is not too long. -/
theorem ofText?_text {a : Shelley} (h : HasHashes a.parts) (hl : a.text.length ≤ Bech32.maxLength) :
    Address.ofText? a.text = some (.shelley a) :=
  ofText?_eq_some_iff.mpr ⟨h, _, _,
    Bech32.spells_encode a.isReadable_readable .plain (a.spelledBy_toBytes.two_le_length h) hl, a.spelledBy_toBytes⟩

/-- Two addresses have two texts. -/
theorem text_injective {a b : Shelley} (ha : HasHashes a.parts) (hb : HasHashes b.parts) (h : a.text = b.text) : a = b := by
  have hbytes := (Bech32.encode_injective a.isReadable_readable.1 b.isReadable_readable.1 h).2
  have hread := ofBytes?_toBytes ha
  rw [hbytes, ofBytes?_toBytes hb] at hread
  exact Eq.symm (Option.some.inj hread)

end Shelley

end WalletLogin.Wallet.Cardano
