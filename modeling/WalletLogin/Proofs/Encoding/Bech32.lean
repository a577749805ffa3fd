/-
  WalletLogin.Proofs.Encoding.Bech32 — the checksum of a text in bech32, and bytes that
  come back from their text.

  The remainder is linear in the last six groups, which no step has pushed out yet
  (`remainder_xor`). So six zeros show what the groups have to be for the remainder to be
  the constant.

  Proved:
  - `verifies_iff`: six groups verify exactly when they are the checksum.
  - `decode?_eq_some_iff`: a text is read exactly when it is, in lower case, what one of the
    variants writes.
  - `encode_injective`: a text tells the readable part and the bytes.
-/

import WalletLogin.Encoding.Bech32
import WalletLogin.Proofs.Bytes
import WalletLogin.Proofs.Encoding.Bits
import WalletLogin.Proofs.Text.Case
import WalletLogin.Proofs.Text.Pieces

namespace WalletLogin.Encoding.Bech32

open Text

/-! ## The remainder -/

/-- High and low bits do not mix. -/
theorem two_pow_mul_add_xor {n v w : Nat} (hv : v < 2 ^ n) (hw : w < 2 ^ n) (a b : Nat) :
    (2 ^ n * a + v) ^^^ (2 ^ n * b + w) = 2 ^ n * (a ^^^ b) + (v ^^^ w) := by
  apply Nat.eq_of_testBit_eq
  intro j
  rw [Nat.testBit_xor, Nat.testBit_two_pow_mul_add _ hv, Nat.testBit_two_pow_mul_add _ hw,
    Nat.testBit_two_pow_mul_add _ (Nat.xor_lt_two_pow hv hw)]
  split <;> rw [Nat.testBit_xor]

theorem low_eq : low = 2 ^ 25 := rfl

/-- What has not been pushed out is moved up by a step. -/
theorem step_xor {c d v : Nat} (hd : d < low) (hv : v < 32) : step (c ^^^ d) v = step c 0 ^^^ (d * 32 + v) := by
  have hdiv : (c ^^^ d) / low = c / low := by
    rw [low_eq, Nat.xor_div_two_pow, ← low_eq, Nat.div_eq_of_lt hd, Nat.xor_zero]
  have hmod : (c ^^^ d) % low = c % low ^^^ d := by
    rw [low_eq, Nat.xor_mod_two_pow, ← low_eq, Nat.mod_eq_of_lt hd]
  have hjoin (x y : Nat) : (32 * x + 0) ^^^ (32 * y + v) = 32 * (x ^^^ y) + v := by
    have h := two_pow_mul_add_xor (n := 5) (v := 0) (w := v) (by decide) hv x y
    rwa [Nat.zero_xor] at h
  have hgroup : (c % low ^^^ d) * 32 ^^^ v = (c % low) * 32 ^^^ (d * 32 + v) := by
    have hmoved := hjoin (c % low ^^^ d) 0
    rw [Nat.xor_zero, Nat.mul_zero, Nat.zero_add, Nat.add_zero] at hmoved
    rw [Nat.mul_comm _ 32, hmoved, ← hjoin, Nat.add_zero, Nat.mul_comm _ 32, Nat.mul_comm d]
  rw [step, step, hdiv, hmod, hgroup, Nat.xor_zero, Nat.xor_assoc, Nat.xor_assoc, Nat.xor_comm (d * 32 + v)]

/-- Six groups, the first of which may have been taken in before, as `d`. -/
theorem remainder_xor (c : Nat) {d : Nat} {vs : List Nat} (hl : vs.length ≤ checksumLength)
    (hd : d < 32 ^ (checksumLength - vs.length)) (hv : ∀ v ∈ vs, v < 32) :
    remainder (c ^^^ d) vs =
      remainder c (List.replicate vs.length 0) ^^^ vs.foldl (fun n v => n * 32 + v) d := by
  induction vs generalizing c d with
  | nil => rfl
  | cons v vs ih =>
    rw [List.forall_mem_cons] at hv
    rw [List.length_cons] at hl hd
    have hstep : checksumLength - vs.length = checksumLength - (vs.length + 1) + 1 := by omega
    have hd' : d * 32 + v < 32 ^ (checksumLength - vs.length) := by
      rw [hstep, Nat.pow_succ]
      omega
    have hlow : d < low := by
      refine hd.trans_le ?_
      rw [low_eq, show 32 = 2 ^ 5 from rfl, ← Nat.pow_mul]
      exact Nat.pow_le_pow_right (by decide) (by rw [checksumLength] at *; omega)
    rw [remainder, List.foldl_cons, step_xor hlow hv.1, ← remainder, ih _ (by omega) hd' hv.2]
    rfl

theorem feedback_lt (top : Nat) : feedback top generators 0 < 2 ^ 30 := by
  have hzero : (0 : Nat) < 2 ^ 30 := by decide
  simp only [feedback, generators]
  refine Nat.xor_lt_two_pow ?_ (Nat.xor_lt_two_pow ?_ (Nat.xor_lt_two_pow ?_ (Nat.xor_lt_two_pow ?_
    (Nat.xor_lt_two_pow ?_ hzero)))) <;> split <;> decide

theorem step_lt {c v : Nat} (hv : v < 2 ^ 30) : step c v < 2 ^ 30 := by
  have hc : c % low < low := Nat.mod_lt _ (by decide)
  rw [low_eq] at hc
  have hmove : c % low * 32 < 2 ^ 30 := by
    rw [low_eq]
    omega
  exact Nat.xor_lt_two_pow (Nat.xor_lt_two_pow hmove hv) (feedback_lt _)

theorem remainder_lt {c : Nat} {vs : List Nat} (hc : c < 2 ^ 30) (hv : ∀ v ∈ vs, v < 2 ^ 30) : remainder c vs < 2 ^ 30 := by
  induction vs generalizing c with
  | nil => exact hc
  | cons v vs ih =>
    rw [List.forall_mem_cons] at hv
    exact ih (step_lt hv.1) hv.2

theorem remainder_append (c : Nat) (vs ws : List Nat) : remainder c (vs ++ ws) = remainder (remainder c vs) ws :=
  List.foldl_append

/-! ## The checksum -/

variable {readable : List Char} {ns : List Nat}

theorem expand_lt {n : Nat} (hn : n ∈ expand readable) : n < 2 ^ 30 := by
  have hchar (c : Char) : c.toNat / 32 < 2 ^ 30 ∧ c.toNat % 32 < 2 ^ 30 := by
    have hc : c.toNat < 2 ^ 32 := c.val.toNat_lt
    omega
  rcases List.mem_append.mp hn with hn | hn
  · obtain ⟨c, -, rfl⟩ := List.mem_map.mp hn
    exact (hchar c).1
  · rcases List.mem_cons.mp hn with rfl | hn
    · decide
    · obtain ⟨c, -, rfl⟩ := List.mem_map.mp hn
      exact (hchar c).2

theorem length_checksum (v : Variant) (readable : List Char) (ns : List Nat) :
    (checksum v readable ns).length = checksumLength := Radix.length_lowDigits _ _ _

theorem checksum_lt {v : Variant} {n : Nat} (hn : n ∈ checksum v readable ns) : n < 32 :=
  Radix.lowDigits_lt (by decide) hn

/-- Six groups verify exactly when they are the checksum of those before them. -/
theorem verifies_iff {v : Variant} {cs : List Nat} (hns : ∀ n ∈ ns, n < 32) (hl : cs.length = checksumLength)
    (hcs : ∀ n ∈ cs, n < 32) : verifies v readable (ns ++ cs) = true ↔ cs = checksum v readable ns := by
  -- what six zeros leave
  let z := remainder 1 (expand readable ++ ns ++ List.replicate checksumLength 0)
  have hz : z < 2 ^ 30 := by
    refine remainder_lt (by decide) fun n hn => ?_
    rw [List.mem_append, List.mem_append] at hn
    rcases hn with (hn | hn) | hn
    · exact expand_lt hn
    · exact (hns n hn).trans (by decide)
    · rw [List.eq_of_mem_replicate hn]
      decide
  have hconstant : v.constant < 2 ^ 30 := by cases v <;> decide
  have hlow : z ^^^ v.constant < 32 ^ checksumLength := Nat.xor_lt_two_pow hz hconstant
  have hremainder : remainder 1 (expand readable ++ (ns ++ cs)) = z ^^^ Radix.value 32 cs := by
    have h := remainder_xor (remainder 1 (expand readable ++ ns)) hl.le (d := 0) (by rw [hl]; decide) hcs
    rwa [Nat.xor_zero, hl, ← remainder_append, ← remainder_append, List.append_assoc (expand readable) ns cs] at h
  rw [verifies, decide_eq_true_eq, hremainder]
  constructor
  · intro h
    have hvalue : Radix.value 32 cs = z ^^^ v.constant := by
      rw [← h, ← Nat.xor_assoc, Nat.xor_self, Nat.zero_xor]
    have hdigits := Radix.lowDigits_value hcs
    rw [hvalue, hl] at hdigits
    exact hdigits.symm
  · rintro rfl
    have hvalue : Radix.value 32 (checksum v readable ns) = (z ^^^ v.constant) % 32 ^ checksumLength :=
      Radix.value_lowDigits 32 checksumLength _
    rw [hvalue, Nat.mod_eq_of_lt hlow, ← Nat.xor_assoc, Nat.xor_self, Nat.zero_xor]

/-- Groups that verify end in the checksum of the others. -/
theorem eq_append_checksum {v : Variant} (hns : ∀ n ∈ ns, n < 32) (hl : checksumLength ≤ ns.length)
    (hv : verifies v readable ns = true) :
    ns = ns.take (ns.length - checksumLength) ++ checksum v readable (ns.take (ns.length - checksumLength)) := by
  have hfirst : ∀ n ∈ ns.take (ns.length - checksumLength), n < 32 := fun n hn => hns n (List.mem_of_mem_take hn)
  have hlast : (ns.drop (ns.length - checksumLength)).length = checksumLength := by
    rw [List.length_drop, Nat.sub_sub_self hl]
  rw [← List.take_append_drop (ns.length - checksumLength) ns,
    verifies_iff hfirst hlast fun n hn => hns n (List.mem_of_mem_drop hn)] at hv
  rw [← hv, List.take_append_drop]

/-- Either variant may have been meant. -/
theorem verifies_either :
    (verifies .plain readable ns || verifies .modified readable ns) = true ↔ ∃ v, verifies v readable ns = true := by
  rw [Bool.or_eq_true]
  constructor
  · rintro (h | h)
    · exact ⟨_, h⟩
    · exact ⟨_, h⟩
  · rintro ⟨v, h⟩
    cases v
    · exact .inl h
    · exact .inr h

/-! ## Texts -/

theorem value?_char : ∀ n < 32, value? (char n) = some n := by
  decide

theorem isVisible_char : ∀ n < 32, Blank.IsVisible (char n) := by
  decide

theorem lowerChar_char : ∀ n < 32, Case.lowerChar (char n) = char n := by
  decide

theorem char_ne_one : ∀ n < 32, char n ≠ '1' := by
  decide

theorem exists_char {c : Char} {n : Nat} (h : value? c = some n) : ∃ m, m < 32 ∧ char m = c := by
  have hcharset : charset = (List.range 32).map char := by decide
  have hc : c ∈ charset := List.isSome_idxOf?.mp (Option.isSome_of_eq_some h)
  rw [hcharset] at hc
  simpa using hc

/-- A readable part that stays as it is when it is written and read. -/
structure IsReadable (readable : List Char) : Prop where
  notEmpty : readable ≠ []
  visible : ∀ c ∈ readable, Blank.IsVisible c
  lower : ∀ c ∈ readable, Case.lowerChar c = c

/-- The groups of a text, with their checksum. -/
def data (v : Variant) (readable : List Char) (b : Bytes) : List Nat :=
  let ns := Bits.gatherPadded 5 (Bits.spread 8 (b.map UInt8.toNat))
  ns ++ checksum v readable ns

theorem encode_eq (v : Variant) (readable : List Char) (b : Bytes) :
    encode v readable b = readable ++ '1' :: (data v readable b).map char := rfl

theorem length_encode (v : Variant) (readable : List Char) (b : Bytes) :
    (encode v readable b).length = readable.length + 7 + (b.length * 8 + (5 - b.length * 8 % 5) % 5) / 5 := by
  rw [encode_eq, List.length_append, List.length_cons, List.length_map, data, List.length_append, length_checksum,
    Bits.length_gatherPadded, Bits.length_spread, List.length_map, checksumLength]
  omega

theorem data_lt {v : Variant} {b : Bytes} {n : Nat} (hn : n ∈ data v readable b) : n < 32 := by
  rcases List.mem_append.mp hn with hn | hn
  · exact Bits.gatherPadded_lt hn
  · exact checksum_lt hn

/-- The characters of a written text have no upper case and are visible. -/
theorem mem_encode (hr : IsReadable readable) {v : Variant} {b : Bytes} {c : Char} (hc : c ∈ encode v readable b) :
    Blank.IsVisible c ∧ Case.lowerChar c = c := by
  rw [encode_eq, List.mem_append, List.mem_cons] at hc
  rcases hc with hc | rfl | hc
  · exact ⟨hr.visible c hc, hr.lower c hc⟩
  · decide
  · obtain ⟨n, hn, rfl⟩ := List.mem_map.mp hc
    exact ⟨isVisible_char n (data_lt hn), lowerChar_char n (data_lt hn)⟩

theorem isUpper_eq_false {c : Char} (h : Case.lowerChar c = c) : isUpper c = false := by
  by_contra hc
  rw [Bool.not_eq_false, isUpper, Bool.and_eq_true, decide_eq_true_eq, decide_eq_true_eq] at hc
  exact of_ascii (fun c => 'A' ≤ c ∧ c ≤ 'Z' → Case.lowerChar c ≠ c) (by decide) (ascii_of_le hc.2 (by decide)) hc h

theorem isAdmissible_encode (hr : IsReadable readable) (v : Variant) {b : Bytes}
    (hl : (encode v readable b).length ≤ maxLength) : isAdmissible (encode v readable b) = true := by
  have hvisible : (encode v readable b).all (fun c => 33 ≤ c.toNat && c.toNat ≤ 126) = true :=
    List.all_eq_true.mpr fun c hc => by
      obtain ⟨hlow, hhigh⟩ := (mem_encode hr hc).1
      simp only [Bool.and_eq_true, decide_eq_true_eq]
      exact ⟨hlow, Nat.le_of_lt_succ hhigh⟩
  have hupper : (encode v readable b).any isUpper = false :=
    List.any_eq_false.mpr fun c hc => by simp [isUpper_eq_false (mem_encode hr hc).2]
  rw [isAdmissible, hvisible, hupper, decide_eq_true hl]
  rfl

theorem split_eq_iff {s rest : List Char} (hne : readable ≠ []) :
    split s = (readable, rest) ↔ s = readable ++ '1' :: rest ∧ '1' ∉ rest := by
  constructor
  · intro h
    obtain ⟨hreadable, hrest⟩ := Prod.mk.inj h
    have hone : '1' ∈ s.reverse := by
      by_contra hone
      have hdrop : s.reverse.dropWhile (· ≠ '1') = [] :=
        List.dropWhile_eq_nil_iff.mpr fun c hc => by simpa using fun he : c = '1' => hone (he ▸ hc)
      rw [hdrop] at hreadable
      exact hne hreadable.symm
    have hcut := congrArg List.reverse (Pieces.eq_takeWhile_append hone)
    rw [List.reverse_reverse, List.reverse_append, List.reverse_cons, hreadable, hrest, List.append_assoc,
      List.singleton_append] at hcut
    refine ⟨hcut, ?_⟩
    rw [← hrest, List.mem_reverse]
    exact Pieces.not_mem_takeWhile _ _
  · rintro ⟨rfl, hone⟩
    have hrev : (readable ++ '1' :: rest).reverse = rest.reverse ++ '1' :: readable.reverse := by simp
    rw [← List.mem_reverse] at hone
    rw [split, hrev]
    simp only [Pieces.takeWhile_before hone, Pieces.dropWhile_before hone, List.drop_one, List.tail_cons,
      List.reverse_reverse]

theorem one_not_mem {ns : List Nat} (hns : ∀ n ∈ ns, n < 32) : '1' ∉ ns.map char := fun h => by
  obtain ⟨n, hn, hc⟩ := List.mem_map.mp h
  exact char_ne_one n (hns n hn) hc

theorem mapM_value?_eq_some {s : List Char} (h : s.mapM value? = some ns) : (∀ n ∈ ns, n < 32) ∧ s = ns.map char := by
  have hall := Radix.forall_of_mapM_eq_pure (fun hx => Option.bind_eq_some_iff.mp hx) h
  obtain ⟨ms, hms, rfl⟩ := Radix.exists_map_eq fun c hc => exists_char (hall c hc).choose_spec
  rw [Radix.mapM_map_pure fun n hn => value?_char n (hms n hn)] at h
  obtain rfl : ms = ns := Option.some.inj h
  exact ⟨hms, rfl⟩

/-- The groups of a text are those that it is written with, by either variant, and its
checksum is that of the variant. -/
theorem parts?_eq_some_iff {s : List Char} :
    parts? s = some (readable, ns) ↔ isAdmissible s = true ∧ readable ≠ [] ∧ (∀ n ∈ ns, n < 32) ∧
      ∃ v, Case.lower s = readable ++ '1' :: (ns ++ checksum v readable ns).map char := by
  constructor
  · intro h
    unfold parts? at h
    cases hsplit : split (Case.lower s) with
    | mk r rest =>
      by_cases hadmissible : isAdmissible s = true
      case neg => simp [hadmissible] at h
      by_cases hsize : (r.isEmpty || decide (rest.length < checksumLength)) = true
      case pos => simp [hadmissible, hsplit, hsize] at h
      simp only [hadmissible, hsplit, hsize, Bool.not_true, Bool.false_eq_true, if_false, Option.bind_eq_bind] at h
      rw [Option.bind_eq_some_iff] at h
      obtain ⟨ms, hread, h⟩ := h
      split at h
      case isFalse => cases h
      case isTrue hverifies =>
        obtain ⟨rfl, rfl⟩ := Prod.mk.inj (Option.some.inj h)
        rw [Bool.or_eq_true, not_or, List.isEmpty_iff, decide_eq_true_eq, Nat.not_lt] at hsize
        obtain ⟨hne, hlength⟩ := hsize
        obtain ⟨hcut, -⟩ := (split_eq_iff hne).mp hsplit
        obtain ⟨hms, rfl⟩ := mapM_value?_eq_some hread
        obtain ⟨v, hv⟩ := verifies_either.mp hverifies
        have hends := eq_append_checksum hms (by rwa [List.length_map] at hlength) hv
        refine ⟨hadmissible, hne, fun n hn => hms n (List.mem_of_mem_take hn), v, ?_⟩
        rw [← hends, hcut]
  · rintro ⟨hadmissible, hne, hns, v, hlower⟩
    have hgroups : ∀ n ∈ ns ++ checksum v readable ns, n < 32 := fun n hn =>
      (List.mem_append.mp hn).elim (hns n) checksum_lt
    have hsplit := (split_eq_iff hne).mpr ⟨hlower, one_not_mem hgroups⟩
    have hmap : ((ns ++ checksum v readable ns).map char).mapM value? = some (ns ++ checksum v readable ns) :=
      Radix.mapM_map_pure fun n hn => value?_char n (hgroups n hn)
    have hlength : (ns ++ checksum v readable ns).length = ns.length + checksumLength := by
      rw [List.length_append, length_checksum]
    have hparts : (readable.isEmpty || decide (((ns ++ checksum v readable ns).map char).length < checksumLength)) = false := by
      simp [hne, length_checksum]
    have hverifies := verifies_either.mpr
      ⟨v, (verifies_iff (v := v) hns (length_checksum v readable ns) fun n hn => checksum_lt hn).mpr rfl⟩
    unfold parts?
    rw [hadmissible, hsplit]
    simp only [Option.bind_eq_bind, Bool.not_true, Bool.false_eq_true, if_false, Option.bind_some, hparts, hmap, hverifies,
      if_true, hlength, Nat.add_sub_cancel, Option.pure_def, List.take_left]

/-- The text spells the bytes behind the readable part: it is written in one letter case, by
either variant. -/
structure Spells (s readable : List Char) (b : Bytes) : Prop where
  admissible : isAdmissible s = true
  notEmpty : readable ≠ []
  length : 2 ≤ b.length
  written : ∃ v, Case.lower s = encode v readable b

theorem decode?_eq_some_iff {s : List Char} {b : Bytes} : decode? s = some (readable, b) ↔ Spells s readable b := by
  constructor
  · intro h
    simp only [decode?, Option.bind_eq_bind, Option.bind_eq_some_iff] at h
    obtain ⟨⟨r, ns⟩, hparts, h⟩ := h
    split at h
    case isFalse => cases h
    case isTrue hrest =>
      simp only [Bool.and_eq_true, decide_eq_true_eq, List.all_eq_true] at hrest
      obtain ⟨⟨hlength, hzero⟩, hbytes⟩ := hrest
      obtain ⟨rfl, rfl⟩ := Prod.mk.inj (Option.some.inj h)
      obtain ⟨hadmissible, hne, hns, v, hlower⟩ := parts?_eq_some_iff.mp hparts
      have hbyte : ∀ n ∈ (Bits.gather 8 (Bits.spread 5 ns)).1, n < 256 := fun n hn => Bits.groups_lt hn
      have hpadded := Bits.gatherPadded_spread_gather (w := 8) hns hlength hzero
      rw [← Bytes.map_toNat_ofNat hbyte] at hpadded
      refine ⟨hadmissible, hne, by rwa [List.length_map], v, ?_⟩
      rw [hlower, encode, hpadded]
  · rintro ⟨hadmissible, hne, hb, v, hlower⟩
    have hbyte : ∀ n ∈ b.map UInt8.toNat, n < 2 ^ 8 := fun n hn => Bytes.lt_of_mem_map_toNat hn
    have hgather := Bits.gather_spread_gatherPadded (show 0 < 5 by decide) (show 5 ≤ 8 by decide) hbyte
    have hrest : (decide ((Bits.filling 5 (Bits.spread 8 (b.map UInt8.toNat))).length < 5) &&
        (Bits.filling 5 (Bits.spread 8 (b.map UInt8.toNat))).all (· = false)) = true := by
      rw [decide_eq_true (Bits.length_filling_lt (by decide) _), Bits.filling]
      simp
    have hbytes : 2 ≤ (b.map UInt8.toNat).length := by rwa [List.length_map]
    have hparts := parts?_eq_some_iff.mpr ⟨hadmissible, hne, fun n hn => Bits.gatherPadded_lt hn, v, hlower⟩
    unfold decode?
    rw [hparts]
    simp only [Option.bind_eq_bind, Option.bind_some, hgather, hrest, decide_eq_true hbytes, Bool.and_self, if_true,
      Option.pure_def, Bytes.map_ofNat_toNat]

/-- What is written, in lower case, is read back. -/
theorem spells_encode (hr : IsReadable readable) (v : Variant) {b : Bytes} (hb : 2 ≤ b.length)
    (hl : (encode v readable b).length ≤ maxLength) : Spells (encode v readable b) readable b where
  admissible := isAdmissible_encode hr v hl
  notEmpty := hr.notEmpty
  length := hb
  written := ⟨v, (List.map_congr_left fun _ hc => (mem_encode hr hc).2).trans (List.map_id _)⟩

/-- A text of any length tells the readable part and the bytes. -/
theorem encode_injective {v : Variant} {readable' : List Char} {b b' : Bytes} (hne : readable ≠ []) (hne' : readable' ≠ [])
    (h : encode v readable b = encode v readable' b') : readable = readable' ∧ b = b' := by
  have hsplit : ∀ {r : List Char} {c : Bytes}, r ≠ [] → split (encode v r c) = (r, (data v r c).map char) := fun hr =>
    (split_eq_iff hr).mpr ⟨encode_eq .., one_not_mem fun n hn => data_lt hn⟩
  have hparts := hsplit (c := b) hne
  rw [h, hsplit hne'] at hparts
  obtain ⟨rfl, hchars⟩ := Prod.mk.inj hparts
  refine ⟨rfl, ?_⟩
  have hdata : data v readable' b' = data v readable' b := by
    have hread := congrArg (List.mapM value?) hchars
    rw [Radix.mapM_map_pure fun n hn => value?_char n (data_lt hn),
      Radix.mapM_map_pure fun n hn => value?_char n (data_lt hn)] at hread
    exact Option.some.inj hread
  have hgroups := List.append_inj_left' hdata (by rw [length_checksum, length_checksum])
  have hgather := congrArg (fun ns => (Bits.gather 8 (Bits.spread 5 ns)).1) hgroups
  rw [Bits.gather_spread_gatherPadded (by decide) (by decide) fun n hn => Bytes.lt_of_mem_map_toNat hn,
    Bits.gather_spread_gatherPadded (by decide) (by decide) fun n hn => Bytes.lt_of_mem_map_toNat hn] at hgather
  have hbytes : b'.map UInt8.toNat = b.map UInt8.toNat := hgather
  rw [← Bytes.map_ofNat_toNat b, ← hbytes, Bytes.map_ofNat_toNat]

end WalletLogin.Encoding.Bech32
