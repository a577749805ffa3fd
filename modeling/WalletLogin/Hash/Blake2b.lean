/-
  WalletLogin.Hash.Blake2b — BLAKE2b without a key, for any output size up to 64 bytes.

  The working state is four rows of four words. A round mixes the four columns, turns
  the rows so that the diagonals become columns, mixes those and turns back.
-/

import WalletLogin.Bytes

namespace WalletLogin.Hash.Blake2b

structure Rows where
  a : List UInt64
  b : List UInt64
  c : List UInt64
  d : List UInt64
  deriving DecidableEq, Repr

def initial : List UInt64 := [
  0x6a09e667f3bcc908, 0xbb67ae8584caa73b, 0x3c6ef372fe94f82b, 0xa54ff53a5f1d36f1,
  0x510e527fade682d1, 0x9b05688c2b3e6c1f, 0x1f83d9abfb41bd6b, 0x5be0cd19137e2179]

/-- The order in which the rounds take the words of a block. -/
def orders : List (List Nat) := [
  [0, 1, 2, 3, 4, 5, 6, 7, 8, 9, 10, 11, 12, 13, 14, 15],
  [14, 10, 4, 8, 9, 15, 13, 6, 1, 12, 0, 2, 11, 7, 5, 3],
  [11, 8, 12, 0, 5, 2, 15, 13, 10, 14, 3, 6, 7, 1, 9, 4],
  [7, 9, 3, 1, 13, 12, 11, 14, 2, 6, 5, 10, 4, 0, 15, 8],
  [9, 0, 5, 7, 2, 4, 10, 15, 14, 1, 11, 12, 6, 8, 3, 13],
  [2, 12, 6, 10, 0, 11, 8, 3, 4, 13, 7, 5, 15, 14, 1, 9],
  [12, 5, 1, 15, 14, 13, 4, 10, 0, 7, 6, 3, 9, 2, 8, 11],
  [13, 11, 7, 14, 12, 1, 3, 9, 5, 0, 15, 4, 8, 6, 2, 10],
  [6, 15, 14, 9, 11, 3, 0, 8, 12, 2, 13, 7, 1, 4, 10, 5],
  [10, 2, 8, 4, 7, 6, 1, 5, 15, 11, 9, 14, 3, 12, 13, 0],
  [0, 1, 2, 3, 4, 5, 6, 7, 8, 9, 10, 11, 12, 13, 14, 15],
  [14, 10, 4, 8, 9, 15, 13, 6, 1, 12, 0, 2, 11, 7, 5, 3]]

def rotate (x : UInt64) (n : UInt64) : UInt64 := (x >>> n) ||| (x <<< (64 - n))

def add (u v : List UInt64) : List UInt64 := List.zipWith (· + ·) u v

def mixed (n : UInt64) (u v : List UInt64) : List UInt64 :=
  List.zipWith (fun x y => rotate (x ^^^ y) n) u v

/-- One half of the mixing of four columns. -/
def half (m n : UInt64) (r : Rows) (words : List UInt64) : Rows :=
  let a := add (add r.a r.b) words
  let d := mixed m r.d a
  let c := add r.c d
  ⟨a, mixed n r.b c, c, d⟩

def columns (r : Rows) (first second : List UInt64) : Rows :=
  half 16 63 (half 32 24 r first) second

def turn (n : Nat) (u : List UInt64) : List UInt64 := u.drop n ++ u.take n

def evens : List UInt64 → List UInt64
  | x :: _ :: r => x :: evens r
  | [x] => [x]
  | [] => []

def odds (u : List UInt64) : List UInt64 := evens (u.drop 1)

def round (block : List UInt64) (r : Rows) (order : List Nat) : Rows :=
  let m := order.map fun i => block.getD i 0
  let r := columns r (evens (m.take 8)) (odds (m.take 8))
  let r := columns ⟨r.a, turn 1 r.b, turn 2 r.c, turn 3 r.d⟩ (evens (m.drop 8)) (odds (m.drop 8))
  ⟨r.a, turn 3 r.b, turn 2 r.c, turn 1 r.d⟩

/-- Mixes a block into the eight words `h`; `count` bytes have been read with it. -/
def compress (h : List UInt64) (count : Nat) (last : Bool) (block : Bytes) : List UInt64 :=
  let words := (Bytes.blocks 8 block).map fun w => UInt64.ofNat (Bytes.toLittleEndian w)
  let final : UInt64 := if last then 0xffffffffffffffff else 0
  let flags := [UInt64.ofNat count, UInt64.ofNat (count / 0x10000000000000000), final, 0]
  let d := List.zipWith (· ^^^ ·) (initial.drop 4) flags
  let r := orders.foldl (round words) ⟨h.take 4, h.drop 4, initial.take 4, d⟩
  List.zipWith (· ^^^ ·) h (List.zipWith (· ^^^ ·) (r.a ++ r.b) (r.c ++ r.d))

def fill (block : Bytes) : Bytes := block ++ List.replicate (128 - block.length) 0

def absorb (h : List UInt64) (count : Nat) : List Bytes → List UInt64
  | [] => compress h count true (fill [])
  | [b] => compress h (count + b.length) true (fill b)
  | b :: r => absorb (compress h (count + 128) false b) (count + 128) r

def start (size : Nat) : List UInt64 :=
  match initial with
  | h :: r => (h ^^^ UInt64.ofNat (0x01010000 + size)) :: r
  | [] => []

def digest (size : Nat) (m : Bytes) : Bytes :=
  ((absorb (start size) 0 (Bytes.blocks 128 m)).flatMap fun w => Bytes.ofLittleEndian 8 w.toNat).take size

end WalletLogin.Hash.Blake2b
