/-
  WalletLogin.Text.Unicode — texts from bytes in the encodings a JSON text may come in.

  A byte order mark names the encoding and is dropped. Without one, zero bytes among
  the first four tell the wide encodings and their byte order, since a JSON text
  starts with an ASCII character; every other text is UTF-8.
-/

import WalletLogin.Bytes

namespace WalletLogin.Text.Unicode

inductive Order where
  | big
  | little
  deriving DecidableEq, Repr

inductive Coding where
  | utf8
  | utf16 (o : Order)
  | utf32 (o : Order)
  deriving DecidableEq, Repr

def number (o : Order) (b : Bytes) : Nat :=
  match o with
  | .big => Bytes.toBigEndian b
  | .little => Bytes.toLittleEndian b

def replacement : Char := Char.ofNat 0xfffd

def isHighSurrogate (n : Nat) : Bool := 0xd800 ≤ n && n ≤ 0xdbff

def isLowSurrogate (n : Nat) : Bool := 0xdc00 ≤ n && n ≤ 0xdfff

def joinSurrogates (hi lo : Nat) : Nat := 0x10000 + (hi - 0xd800) * 0x400 + (lo - 0xdc00)

/-- The character of a 16-bit unit that is in no pair. -/
def unitChar (n : Nat) : Char :=
  if isHighSurrogate n || isLowSurrogate n then replacement else Char.ofNat n

def units16? (o : Order) : Bytes → Option (List Nat)
  | [] => some []
  | [_] => none
  | a :: b :: r => (units16? o r).map (number o [a, b] :: ·)

def units32? (o : Order) : Bytes → Option (List Nat)
  | [] => some []
  | a :: b :: c :: d :: r => (units32? o r).map (number o [a, b, c, d] :: ·)
  | _ => none

def pairUp : List Nat → List Char
  | [] => []
  | [a] => [unitChar a]
  | a :: b :: r =>
    if isHighSurrogate a && isLowSurrogate b then Char.ofNat (joinSurrogates a b) :: pairUp r
    else unitChar a :: pairUp (b :: r)

def wideChar? (n : Nat) : Option Char := if n < 0x110000 then some (unitChar n) else none

def decode? : Coding → Bytes → Option (List Char)
  | .utf8, b => (Bytes.toText? b).map String.toList
  | .utf16 o, b => (units16? o b).map pairUp
  | .utf32 o, b => do (← units32? o b).mapM wideChar?

/-- The byte order marks, a longer one before one it starts with. -/
def marks : List (Bytes × Coding) :=
  [([0, 0, 0xfe, 0xff], .utf32 .big), ([0xff, 0xfe, 0, 0], .utf32 .little), ([0xfe, 0xff], .utf16 .big),
    ([0xff, 0xfe], .utf16 .little), ([0xef, 0xbb, 0xbf], .utf8)]

/-- The encoding that goes with which of the first four bytes are zero. -/
def ofZeros : List Bool → Coding
  | [true, y, _, _] => if y then .utf32 .big else .utf16 .big
  | [false, true, z, w] => if z && w then .utf32 .little else .utf16 .little
  | [true, _] => .utf16 .big
  | [false, true] => .utf16 .little
  | _ => .utf8

/-- The encoding, and the bytes behind the byte order mark. -/
def detect (b : Bytes) : Coding × Bytes :=
  match marks.find? (·.1.isPrefixOf b) with
  | some m => (m.2, b.drop m.1.length)
  | none => (ofZeros ((b.take 4).map (· == 0)), b)

def ofBytes? (b : Bytes) : Option (List Char) := let (c, r) := detect b; decode? c r

end WalletLogin.Text.Unicode
