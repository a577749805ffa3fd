/-
  WalletLogin.Encoding.Cbor.Tagged — the tags that say what kind of value an item is,
  and the values that they make of it. An item that is not of a tag's form is refused.

  They are: moments as text (0) and as seconds (1), whole numbers of any size (2, 3),
  numbers with an exponent of ten (4) and of two (5), fractions (30), search patterns
  (35), messages (36), identifiers of 16 bytes (37), dates as days (100) and as text
  (1004), hosts (260), networks (261) and complex numbers (43000).
-/

import WalletLogin.Decimal.Rounded
import WalletLogin.Encoding.Cbor.Item
import WalletLogin.Internet.Network
import WalletLogin.Mail.Reader

namespace WalletLogin.Encoding.Cbor

open Decimal

/-! ## Numbers -/

def bigNumber? (negative : Bool) : Cbor → Option Cbor
  | .bytes b =>
    if b.isEmpty then none
    else some (.int (if negative then -1 - (Bytes.toBigEndian b : Int) else Bytes.toBigEndian b))
  | _ => none

/-- The number that digits in an array spell. -/
def spelled? (x : Cbor) : Option Nat :=
  let digit? (x : Cbor) : Option Nat := x.int?.bind fun n => if 0 ≤ n ∧ n ≤ 9 then some n.toNat else none
  match x with
  | .array _ xs => (xs.mapM digit?).map Digit.number
  | .simple n => if n ≤ 9 then some n else none
  | _ => none

/-- A decimal of its parts. In place of an exponent a letter may say what else it is. -/
def scaledOf? (neg : Bool) (coeff : Nat) : Cbor → Option Scaled
  | .int e => Scaled.number? neg coeff e
  | .bool e => Scaled.number? neg coeff e.toNat
  | .text "F" => some (.infinite neg)
  | .text "n" => some (.nan false neg coeff)
  | .text "N" => some (.nan true neg coeff)
  | _ => none

def scaled? (x : Cbor) : Option Scaled :=
  match x.bare with
  | .int n => some (Scaled.ofInt n)
  | .bool b => some (Scaled.ofNat b.toNat)
  | .float x => some (Scaled.ofBinary64 x)
  | .decimal x => some x
  | .text s => Scaled.ofText? s.toList
  | .array _ [sign, digits, exp] => do
    let s ← sign.int?
    if s = 0 ∨ s = 1 then scaledOf? (s = 1) (← spelled? digits) exp else none
  | _ => none

/-- The decimal digits of one element times ten to the power of the other. -/
def decimalNumber? (x : Cbor) : Option Cbor := do
  match ← x.elements? with
  | [exp, sig] =>
    let s ← sig.scaled?
    return .decimal (← scaledOf? s.isNegative s.coefficient exp)
  | _ => none

def binaryNumber? (x : Cbor) : Option Cbor := do
  match ← x.elements? with
  | [exp, sig] =>
    let power ← Rounded.power? (← exp.scaled?)
    return .decimal (← Rounded.times? Rounded.precision (← sig.scaled?) power)
  | _ => none

def rational? : Cbor → Option Fraction
  | .int n => some (Fraction.ofInt n)
  | .bool b => some (Fraction.ofInt b.toNat)
  | .fraction x => some x
  | _ => none

def fractionOf? (x : Cbor) : Option Fraction :=
  match x.bare with
  | .float x => Fraction.ofBinary64? x
  | .decimal x => Fraction.ofScaled? x
  | .text s => Fraction.ofText? s.toList
  | x => x.rational?

def fraction? (x : Cbor) : Option Cbor := do
  match ← x.elements? with
  | [] => return .fraction (Fraction.ofInt 0)
  | [x] => return .fraction (← x.fractionOf?)
  | [x, .null] => return .fraction (← x.fractionOf?)
  | [x, y] =>
    let a ← x.rational?
    let b ← y.rational?
    return .fraction (← Fraction.quotient? (a.num * b.den) (b.num * a.den))
  | _ => none

/-- A number as floating-point ones. Whole numbers and floating-point ones have no
imaginary part, and other real numbers have one that is zero. -/
def parts? (x : Cbor) : Option (Binary64 × Option Binary64) :=
  match x.bare with
  | .int n => (Binary64.ofInt? n).map (·, none)
  | .bool b => (Binary64.ofInt? b.toNat).map (·, none)
  | .float x => some (x, none)
  | .decimal x => x.toBinary64?.map (·, some .zero)
  | .fraction x => x.toBinary64?.map (·, some .zero)
  | .complex re im => some (re, some im)
  | _ => none

def isComplex (x : Cbor) : Bool :=
  match x.bare with
  | .complex _ _ => true
  | _ => false

/-- The first number plus the second one times the imaginary unit. -/
def complex? (x : Cbor) : Option Cbor := do
  match ← x.elements? with
  | [x, y] =>
    let (a, b) ← x.parts?
    let (c, d) ← y.parts?
    let re := if y.isComplex then a.plus (d.getD .zero).negate else a
    let im := match b with
      | some b => c.plus b
      | none => c
    return .complex re im
  | _ => none

/-! ## Other kinds -/

def momentText? : Cbor → Option Cbor
  | .text s => (Calendar.Moment.ofText? s.toList).map .moment
  | _ => none

def momentSeconds? (x : Cbor) : Option Cbor :=
  match x.bare with
  | .float x => (Calendar.Moment.ofEpochFloat? x).map .moment
  | x => (x.int?.bind fun n => Calendar.Moment.ofEpoch? n 0).map .moment

def dateText? : Cbor → Option Cbor
  | .text s => (Calendar.Date.ofText? s.toList).map .date
  | _ => none

def dateDays? (x : Cbor) : Option Cbor :=
  (x.int?.bind fun n => Calendar.Date.ofOrdinal? (Calendar.Moment.epochDay + n)).map .date

def pattern? : Cbor → Option Cbor
  | .text s => (Pattern.ofText? s.toList).map .pattern
  | .bytes b => (Pattern.ofBytes? b).map .pattern
  | .pattern p => some (.pattern p)
  | _ => none

def mail? : Cbor → Option Cbor
  | .text s => (Mail.Reader.read? s.toList).map .mail
  | _ => none

def sized? (t : Nat) (lengths : List Nat) : Cbor → Option Cbor
  | .bytes b => if b.length ∈ lengths then some (.tag t (.bytes b)) else none
  | _ => none

def hostTag : Nat := 260

def networkTag : Nat := 261

def given? : Cbor → Option Internet.Given
  | .bytes b => some (.bytes b)
  | .text s => some (.text s.toList)
  | x => x.int?.map .number

/-- A host may be given as one that was read already. -/
def givenHost? : Cbor → Option Internet.Given
  | .tag t (.bytes b) => if t = hostTag ∧ b.length ≠ 6 then some (.bytes b) else none
  | x => x.given?

/-- A map of one host to the number of bits, which is kept as a truth value. -/
def network? : Cbor → Option Cbor
  | .map _ [(host, mask)] => do
    let n ← Internet.Network.ofGiven? (← host.givenHost?) (← mask.given?)
    let length := match mask with
      | .bool b => .bool b
      | _ => .int n.length
    return .tag networkTag (.map true [(.bytes n.hostBytes, length)])
  | _ => none

/-- What a tag makes of an item, for tags that have such a meaning. -/
def meaning? (t : Nat) : Option (Cbor → Option Cbor) :=
  match t with
  | 0 => some momentText?
  | 1 => some momentSeconds?
  | 2 => some (bigNumber? false)
  | 3 => some (bigNumber? true)
  | 4 => some decimalNumber?
  | 5 => some binaryNumber?
  | 30 => some fraction?
  | 35 => some pattern?
  | 36 => some mail?
  | 37 => some (sized? 37 [16])
  | 100 => some dateDays?
  | 260 => some (sized? hostTag [4, 6, 16])
  | 261 => some network?
  | 1004 => some dateText?
  | 43000 => some complex?
  | _ => none

/-- Whether an item equals only itself. -/
def isLone : Cbor → Bool
  | .float .nan => true
  | .decimal (.nan ..) => true
  | .complex re im => re = .nan || im = .nan
  | .mail _ => true
  | _ => false

/-- An item with the place where it was read, if it needs one. -/
def placed (place : Nat) (x : Cbor) : Cbor := if x.isLone then .lone place x else x

end WalletLogin.Encoding.Cbor
