/-
  WalletLogin.Hash.Keccak — Keccak-256 with the padding of its first submission, as
  Ethereum signs.

  The state is a grid of five by five lanes of 64 bits; lane (x, y) stands at place
  x + 5 · y of the list. A message is padded to whole blocks of seventeen lanes.
-/

import WalletLogin.Bytes

namespace WalletLogin.Hash.Keccak

abbrev Lanes := List UInt64

def lane (s : Lanes) (x y : Nat) : UInt64 := s.getD (x % 5 + 5 * (y % 5)) 0

def grid (f : Nat → Nat → UInt64) : Lanes := (List.range 25).map fun i => f (i % 5) (i / 5)

def rotate (x : UInt64) (n : Nat) : UInt64 :=
  if n = 0 then x else (x <<< UInt64.ofNat n) ||| (x >>> UInt64.ofNat (64 - n))

def column (s : Lanes) (x : Nat) : UInt64 :=
  lane s x 0 ^^^ lane s x 1 ^^^ lane s x 2 ^^^ lane s x 3 ^^^ lane s x 4

/-- Adds to each lane the parities of the two columns beside it. -/
def theta (s : Lanes) : Lanes :=
  let parities := (List.range 5).map (column s)
  let parity (x : Nat) := parities.getD (x % 5) 0
  grid fun x y => lane s x y ^^^ parity (x + 4) ^^^ rotate (parity (x + 1)) 1

def offsets : List Nat := [
  0, 1, 62, 28, 27,
  36, 44, 6, 55, 20,
  3, 10, 43, 25, 39,
  41, 45, 15, 21, 8,
  18, 2, 61, 56, 14]

/-- Rotates each lane by its offset and moves it to its new place. -/
def rhoPi (s : Lanes) : Lanes :=
  grid fun x y =>
    let w := (x + 3 * y) % 5
    rotate (lane s w x) (offsets.getD (w + 5 * x) 0)

def chi (s : Lanes) : Lanes :=
  grid fun x y => lane s x y ^^^ (~~~(lane s (x + 1) y) &&& lane s (x + 2) y)

def iota (k : UInt64) : Lanes → Lanes
  | [] => []
  | a :: r => (a ^^^ k) :: r

def roundConstants : List UInt64 := [
  0x0000000000000001, 0x0000000000008082, 0x800000000000808a, 0x8000000080008000,
  0x000000000000808b, 0x0000000080000001, 0x8000000080008081, 0x8000000000008009,
  0x000000000000008a, 0x0000000000000088, 0x0000000080008009, 0x000000008000000a,
  0x000000008000808b, 0x800000000000008b, 0x8000000000008089, 0x8000000000008003,
  0x8000000000008002, 0x8000000000000080, 0x000000000000800a, 0x800000008000000a,
  0x8000000080008081, 0x8000000000008080, 0x0000000080000001, 0x8000000080008008]

def permute (s : Lanes) : Lanes := roundConstants.foldl (fun s k => iota k (chi (rhoPi (theta s)))) s

/-- Bytes in a block. -/
def rate : Nat := 136

def pad (m : Bytes) : Bytes :=
  let free := rate - m.length % rate
  if free = 1 then m ++ [0x81] else m ++ 0x01 :: List.replicate (free - 2) 0 ++ [0x80]

def lanesOf (block : Bytes) : Lanes :=
  (Bytes.blocks 8 block).map fun w => UInt64.ofNat (Bytes.toLittleEndian w)

def absorb (s : Lanes) (block : Bytes) : Lanes :=
  let b := lanesOf block
  permute ((List.range 25).map fun i => s.getD i 0 ^^^ b.getD i 0)

def keccak256 (m : Bytes) : Bytes :=
  let s := (Bytes.blocks rate (pad m)).foldl absorb (List.replicate 25 0)
  (s.take 4).flatMap fun w => Bytes.ofLittleEndian 8 w.toNat

end WalletLogin.Hash.Keccak
