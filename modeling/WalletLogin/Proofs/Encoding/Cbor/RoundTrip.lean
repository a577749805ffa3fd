/-
  WalletLogin.Proofs.Encoding.Cbor.RoundTrip — items that are read back from what was
  written of them.

  `Reads m b a` says that a reader takes exactly the bytes `b` for `a`, whatever follows,
  where nothing is shared and no strings are numbered. It opens along the reader
  (`Reads.bind`), and each head and each kind of item has one lemma.

  Proved:
  - `reads_size`, `reads_argument`: the argument of a written head is read back.
  - `item_int`, `item_bytes`, `item_tag`, `item_array`, `item_map`: numbers that heads can
    hold, byte strings, tags without a meaning of their own, arrays, and maps of which
    the keys differ.
-/

import WalletLogin.Encoding.Cbor.Reader
import WalletLogin.Encoding.Cbor.Writer
import WalletLogin.Proofs.Bytes

namespace WalletLogin.Encoding.Cbor

/-- A number that stands for a byte string. -/
def numberedBytes (e : Int × Bytes) : Cbor × Cbor := (.int e.1, .bytes e.2)

def writeNumberedBytes (e : Int × Bytes) : Bytes := writeInt e.1 ++ writeBytes e.2

/-- What is left, with nothing shared and no strings numbered. -/
def Input.plain (rest : Bytes) : Input := ⟨rest, [], [], none⟩

namespace Reader

/-- The reader takes the bytes for the value. -/
def Reads {α : Type} (m : Reader α) (b : Bytes) (a : α) : Prop :=
  ∀ rest, m (.plain (b ++ rest)) = some (a, .plain rest)

section Reads

variable {α β : Type} {m : Reader α} {f : α → Reader β} {a : α} {c : β} {b b' : Bytes}

theorem Reads.pure (a : α) : Reads (Pure.pure a : Reader α) [] a := fun _ => rfl

theorem bind_eq_some {s s' : Input} (h : m s = some (a, s')) : (m >>= f) s = f a s' := by
  show Option.bind (m s) _ = _
  rw [h]
  rfl

theorem Reads.bind (h : Reads m b a) (h' : Reads (f a) b' c) : Reads (m >>= f) (b ++ b') c := by
  intro rest
  rw [List.append_assoc, bind_eq_some (h _), h']

/-- A reader that takes nothing, in front. -/
theorem Reads.bind_nil (h : Reads m [] a) (h' : Reads (f a) b c) : Reads (m >>= f) b c := by
  simpa using h.bind h'

/-- A reader that takes nothing, behind. -/
theorem Reads.bind_last (h : Reads m b a) (h' : Reads (f a) [] c) : Reads (m >>= f) b c := by
  simpa using h.bind h'

/-- The value, where nothing else is done with it. -/
theorem Reads.map {g : α → β} (h : Reads m b a) : Reads (m >>= fun x => Pure.pure (g x)) b (g a) :=
  h.bind_last (Reads.pure (g a))

/-- Whatever the state tells, in front. -/
theorem Reads.get_bind {f : Input → Reader β} (h : ∀ s, Reads (f s) b c) : Reads (get >>= f) b c := by
  intro rest
  exact (bind_eq_some rfl).trans (h _ rest)

theorem Reads.place_bind {f : Nat → Reader β} (h : ∀ p, Reads (f p) b c) : Reads (place >>= f) b c := by
  intro rest
  exact (bind_eq_some rfl).trans (h _ rest)

end Reads

/-! ## Heads -/

theorem reads_take (b : Bytes) : Reads (take b.length) b b := by
  intro rest
  have hle : b.length ≤ (b ++ rest).length := by simp
  show (if b.length ≤ (b ++ rest).length then _ else _ : Reader Bytes) (.plain (b ++ rest)) = _
  rw [if_pos hle]
  show some ((b ++ rest).take b.length, Input.plain ((b ++ rest).drop b.length)) = _
  rw [List.take_left, List.drop_left]

theorem reads_byte (x : UInt8) : Reads byte [x] x := by
  unfold byte
  exact (reads_take [x]).bind_last (Reads.pure x)

theorem reads_number (width : Nat) {n : Nat} (hn : n < 256 ^ width) : Reads (number width) (Bytes.ofBigEndian width n) n := by
  have h := (reads_take (Bytes.ofBigEndian width n)).map (g := Bytes.toBigEndian)
  rwa [Bytes.length_ofBigEndian, Bytes.toBigEndian_ofBigEndian, Nat.mod_eq_of_lt hn] at h

/-- The low five bits of the head of an argument. -/
def info (n : Nat) : Nat :=
  if n < 24 then n else if n < 0x100 then 24 else if n < 0x10000 then 25 else if n < 0x100000000 then 26 else 27

/-- The bytes of an argument behind its head. -/
def tail (n : Nat) : Bytes :=
  if n < 24 then [] else if n < 0x100 then Bytes.ofBigEndian 1 n else if n < 0x10000 then Bytes.ofBigEndian 2 n
  else if n < 0x100000000 then Bytes.ofBigEndian 4 n else Bytes.ofBigEndian 8 n

theorem head_eq (major n : Nat) : head major n = UInt8.ofNat (major * 32 + info n) :: tail n := by
  unfold head info tail
  split_ifs <;> rfl

theorem writeNumber_eq_head (major : Nat) {n : Nat} (hn : n < 2 ^ 64) : writeNumber major n = head major n := if_pos hn

theorem info_lt (n : Nat) : info n < 28 := by
  unfold info
  split_ifs <;> omega

theorem reads_argument {n : Nat} (hn : n < 2 ^ 64) : Reads (argument (info n)) (tail n) (some n) := by
  unfold info tail
  split_ifs with h₁ h₂ h₃ h₄
  · unfold argument
    rw [if_pos h₁]
    exact Reads.pure (some n)
  · exact (reads_number 1 h₂).map
  · exact (reads_number 2 h₃).map
  · exact (reads_number 4 h₄).map
  · exact (reads_number 8 hn).map

theorem reads_size {n : Nat} (hn : n < 2 ^ 64) : Reads (size (info n)) (tail n) n := by
  unfold size
  exact (reads_argument hn).bind_last (Reads.pure n)

/-! ## Items -/

/-- What follows the head of an item. -/
def content (depth : Nat) (at_ : Position) (start major info : Nat) : Reader Cbor :=
  match major with
  | 0 => do share at_ (.int (← size info))
  | 1 => do share at_ (.int (-1 - ((← size info) : Int)))
  | 2 => do share at_ (← byteString info)
  | 3 => do share at_ (← textString info)
  | 4 => array at_ start info (item depth { at_ with slot := none })
  | 5 => map at_ start info (item depth ⟨true, none⟩) (item depth { at_ with slot := none })
  | 6 => do tagged at_ start (← size info) (item depth)
  | _ => other at_ start info

theorem item_succ (depth : Nat) (at_ : Position) : item (depth + 1) at_ =
    place >>= fun start => byte >>= fun x => content depth at_ start (x.toNat / 32) (x.toNat % 32) := rfl

theorem reads_item {depth : Nat} {at_ : Position} {major n : Nat} (hm : major < 8) {b : Bytes} {x : Cbor}
    (h : ∀ start, Reads (content depth at_ start major (info n)) (tail n ++ b) x) :
    Reads (item (depth + 1) at_) (head major n ++ b) x := by
  have hbyte : (UInt8.ofNat (major * 32 + info n)).toNat = major * 32 + info n := by
    refine UInt8.toNat_ofNat_of_lt' ?_
    have := info_lt n
    show _ < 256
    omega
  have hmajor : (major * 32 + info n) / 32 = major := by
    have := info_lt n
    omega
  have hinfo : (major * 32 + info n) % 32 = info n := by
    have := info_lt n
    omega
  rw [item_succ, head_eq]
  refine Reads.place_bind fun start => ?_
  refine (reads_byte _).bind ?_
  rw [hbyte, hmajor, hinfo]
  exact h start

section Items

variable {depth : Nat} {at_ : Position} (hslot : at_.slot = none)

include hslot in
theorem reads_share (x : Cbor) : Reads (share at_ x) [] x := by
  unfold share
  rw [hslot]
  exact Reads.pure x

include hslot in
theorem reads_hold (start : Nat) (x : Cbor) : Reads (hold at_ start x) [] () := by
  unfold hold
  rw [hslot]
  exact Reads.pure ()

include hslot in
theorem reads_begin (start : Nat) (x : Cbor) : Reads (begin at_ start x) [] () := by
  unfold begin
  exact (reads_hold hslot start x).bind_nil ((reads_share hslot _).bind_nil (Reads.pure ()))

theorem reads_enumerate (length : Nat) (x : Cbor) : Reads (enumerate length x) [] x := fun _ => rfl

include hslot in
theorem item_int {n : Int} (hn : -2 ^ 64 ≤ n ∧ n < 2 ^ 64) : Reads (item (depth + 1) at_) (writeInt n) (.int n) := by
  unfold writeInt
  split
  case isTrue h0 =>
    have hlt : n.toNat < 2 ^ 64 := by omega
    rw [writeNumber_eq_head _ hlt, ← List.append_nil (head 0 n.toNat)]
    refine reads_item (by decide) fun start => ?_
    rw [List.append_nil]
    refine (reads_size hlt).bind_last ?_
    rw [Int.toNat_of_nonneg h0]
    exact reads_share hslot _
  case isFalse h0 =>
    have hlt : (-1 - n).toNat < 2 ^ 64 := by omega
    rw [writeNumber_eq_head _ hlt, ← List.append_nil (head 1 (-1 - n).toNat)]
    refine reads_item (by decide) fun start => ?_
    rw [List.append_nil]
    refine (reads_size hlt).bind_last ?_
    rw [Int.toNat_of_nonneg (by omega), show -1 - (-1 - n) = n by omega]
    exact reads_share hslot _

include hslot in
theorem item_bytes {b : Bytes} (hb : b.length < 2 ^ 64) : Reads (item (depth + 1) at_) (writeBytes b) (.bytes b) := by
  refine reads_item (by decide) fun start => ?_
  have hstring : Reads (byteString (info b.length)) (tail b.length ++ b) (.bytes b) := by
    unfold byteString
    exact (reads_argument hb).bind ((reads_take b).bind_last (reads_enumerate _ _))
  exact hstring.bind_last (reads_share hslot _)

/-- A tag without a meaning of its own is kept. -/
theorem item_tag {t : Nat} (ht : t < 2 ^ 64) (hplain : meaning? t = none) (hkept : t ∉ [25, 28, 29, 256, 55799])
    {b : Bytes} {x : Cbor} (h : Reads (item depth ⟨false, none⟩) b x) :
    Reads (item (depth + 1) ⟨false, none⟩) (head 6 t ++ b) (.tag t x) := by
  refine reads_item (by decide) fun start => ?_
  refine (reads_size ht).bind ?_
  simp only [List.mem_cons, List.not_mem_nil, or_false, not_or] at hkept
  obtain ⟨h25, h28, h29, h256, h55799⟩ := hkept
  unfold tagged
  split
  case h_1 => exact absurd rfl h25
  case h_2 => exact absurd rfl h28
  case h_3 => exact absurd rfl h29
  case h_4 => exact absurd rfl h256
  case h_5 => exact absurd rfl h55799
  case h_6 =>
    rw [hplain]
    refine (reads_begin rfl start _).bind_nil ?_
    refine h.bind_last ?_
    exact (reads_hold rfl start _).bind_nil (Reads.pure _)

theorem item_array {xs : List Cbor} {b : Bytes} (hl : xs.length < 2 ^ 64)
    (h : ∀ grow : List Cbor → Reader Unit, (∀ ys, Reads (grow ys) [] ()) →
      Reads (items (item depth ⟨false, none⟩) grow xs.length []) b xs) :
    Reads (item (depth + 1) ⟨false, none⟩) (head 4 xs.length ++ b) (.array false xs) := by
  refine reads_item (by decide) fun start => ?_
  unfold content array
  refine (reads_argument hl).bind ?_
  refine (reads_begin rfl start _).bind_nil ?_
  refine Reads.get_bind fun s => ?_
  exact (h (fun ys => hold ⟨false, none⟩ start (.array false ys)) fun ys => reads_hold rfl start _).bind_last (Reads.pure _)

/-! ## Contents of arrays and maps -/

theorem items_nil {read : Reader Cbor} {grow : List Cbor → Reader Unit} (ys : List Cbor) :
    Reads (items read grow 0 ys) [] ys := Reads.pure ys

theorem items_cons {read : Reader Cbor} {grow : List Cbor → Reader Unit} (hgrow : ∀ ys, Reads (grow ys) [] ())
    {n : Nat} {ys xs : List Cbor} {x : Cbor} {b b' : Bytes} (hx : Reads read b x)
    (hxs : Reads (items read grow n (ys ++ [x])) b' xs) : Reads (items read grow (n + 1) ys) (b ++ b') xs :=
  hx.bind ((hgrow _).bind_nil hxs)

theorem item_map {es : List (Cbor × Cbor)} {b : Bytes} (hl : es.length < 2 ^ 64)
    (h : ∀ grow : List (Cbor × Cbor) → Reader Unit, (∀ fs, Reads (grow fs) [] ()) →
      Reads (entries (item depth ⟨true, none⟩) (item depth ⟨false, none⟩) grow es.length []) b es) :
    Reads (item (depth + 1) ⟨false, none⟩) (head 5 es.length ++ b) (.map false es) := by
  refine reads_item (by decide) fun start => ?_
  unfold content map
  refine (reads_argument hl).bind ?_
  refine (reads_begin rfl start _).bind_nil ?_
  refine Reads.get_bind fun s => ?_
  exact (h (fun fs => hold ⟨false, none⟩ start (.map false fs)) fun fs => reads_hold rfl start _).bind_last (Reads.pure _)

theorem reads_entered {key value : Cbor} (hsettled : settle? [] key = some key) (hkey : key.isKey = true)
    (es : List (Cbor × Cbor)) : Reads (entered key value es) [] (put key value es) := by
  intro rest
  have hplain : settle? (Input.plain ([] ++ rest)).containers key = some key := hsettled
  unfold entered
  refine (bind_eq_some rfl).trans ?_
  rw [hplain]
  exact congrFun (if_pos hkey) _

/-- A key that is not there yet comes last. -/
theorem put_of_not_same {key value : Cbor} {es : List (Cbor × Cbor)} (h : ∀ e ∈ es, same e.1 key = false) :
    put key value es = es ++ [(key, value)] := by
  induction es with
  | nil => rfl
  | cons e es ih =>
    rw [List.forall_mem_cons] at h
    rw [put, h.1, ih h.2]
    rfl

/-- The entries that are to come, behind those that were read. -/
theorem reads_entries {grow : List (Cbor × Cbor) → Reader Unit} (hgrow : ∀ fs, Reads (grow fs) [] ())
    {es : List (Int × Bytes)} (hes : ∀ e ∈ es, (-2 ^ 64 ≤ e.1 ∧ e.1 < 2 ^ 64) ∧ e.2.length < 2 ^ 64) (done : List (Int × Bytes))
    (hkeys : ((done ++ es).map Prod.fst).Nodup) :
    Reads (entries (item (depth + 1) ⟨true, none⟩) (item (depth + 1) ⟨false, none⟩) grow es.length
      (done.map numberedBytes)) (es.flatMap writeNumberedBytes) ((done ++ es).map numberedBytes) := by
  induction es generalizing done with
  | nil =>
    rw [List.append_nil]
    exact Reads.pure _
  | cons e es ih =>
    rw [List.forall_mem_cons] at hes
    rw [List.append_cons] at hkeys ⊢
    have hnew : ∀ f ∈ done.map numberedBytes, same f.1 (.int e.1) = false := by
      intro f hf
      obtain ⟨d, hd, rfl⟩ := List.mem_map.mp hf
      have hne : d.1 ≠ e.1 := by
        rw [List.map_append, List.nodup_append] at hkeys
        have hdone := (List.nodup_append.mp (List.map_append ▸ hkeys.1)).2.2
        exact hdone _ (List.mem_map_of_mem hd) _ (List.mem_singleton_self _)
      simp [numberedBytes, same, hne]
    have hput : put (.int e.1) (.bytes e.2) (done.map numberedBytes) = (done ++ [e]).map numberedBytes := by
      rw [put_of_not_same hnew, List.map_append]
      rfl
    have hentered : Reads (entered (.int e.1) (.bytes e.2) (done.map numberedBytes)) []
        ((done ++ [e]).map numberedBytes) := hput ▸ reads_entered rfl rfl _
    rw [List.length_cons, List.flatMap_cons, writeNumberedBytes, List.append_assoc]
    unfold entries
    refine (item_int rfl hes.1.1).bind ?_
    refine (item_bytes rfl hes.1.2).bind ?_
    refine hentered.bind_nil ?_
    exact (hgrow _).bind_nil (ih hes.2 _ hkeys)

end Items

end Reader

/-! ## Whole items -/

theorem read?_of_reads {b : Bytes} {x : Cbor} (h : Reader.Reads (Reader.item nestingLimit ⟨false, none⟩) b x)
    (hx : settle? [] x = some x) : read? b = some (x, []) := by
  have hrun := h []
  rw [List.append_nil] at hrun
  have hstart : (Reader.item nestingLimit ⟨false, none⟩).run ⟨b, [], [], none⟩ = some (x, .plain []) := hrun
  rw [read?, hstart]
  simp [Input.plain, hx]

-- otherwise the elaborator runs the reader in search of a binder
attribute [irreducible] Reader.Reads

theorem substituteEntries_numberedBytes (find : Nat → Option Cbor) (es : List (Int × Bytes)) :
    substituteEntries find (es.map numberedBytes) = some (es.map numberedBytes) := by
  induction es with
  | nil => rfl
  | cons e es ih => simp [substituteEntries, numberedBytes, substitute, ih]

theorem writeEntries?_numberedBytes (es : List (Int × Bytes)) :
    writeEntries? (es.map numberedBytes) = some (es.flatMap writeNumberedBytes) := by
  induction es with
  | nil => rfl
  | cons e es ih =>
    simp [writeEntries?, numberedBytes, write?, ih, writeNumberedBytes]

end WalletLogin.Encoding.Cbor
