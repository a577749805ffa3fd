/-
  WalletLogin.Decimal.Fraction — fractions in lowest terms, and their texts.

  A text holds, between blanks, an optional sign and either two whole numbers with a
  slash between them or one decimal with an optional exponent. Digits of every script
  count, single underscores may stand between two of them, and no run of digits is
  longer than a whole number may be.
-/

import WalletLogin.Decimal.Scaled

namespace WalletLogin.Decimal

open Text

structure Fraction where
  num : Int
  den : Nat
  deriving DecidableEq, Repr, Inhabited

namespace Fraction

def ofInt (n : Int) : Fraction := ⟨n, 1⟩

def quotient? (n d : Int) : Option Fraction :=
  if d = 0 then none
  else
    let g := Int.gcd n d
    some ⟨Binary64.signed ((n < 0) != (d < 0)) (n.natAbs / g), d.natAbs / g⟩

def ofBinary64? : Binary64 → Option Fraction
  | .finite neg m e => let s := Binary64.ratio m e; quotient? (Binary64.signed neg s.1) s.2
  | _ => none

def ofScaled? : Scaled → Option Fraction
  | .number neg c e => let s := Binary64.scale 10 c 1 e; quotient? (Binary64.signed neg s.1) s.2
  | _ => none

/-- The nearest floating-point number, unless it is infinite. -/
def toBinary64? (x : Fraction) : Option Binary64 :=
  match Binary64.ofRatio (x.num < 0) x.num.natAbs x.den with
  | .infinite _ => none
  | y => some y

/-! ## Texts -/

/-- The digits at the front of a text that goes on behind a digit, and the rest. -/
def furtherDigits : List Char → List Nat × List Char
  | [] => ([], [])
  | '_' :: c :: r =>
    match Digit.value? c with
    | some d => let (ds, t) := furtherDigits r; (d :: ds, t)
    | none => ([], '_' :: c :: r)
  | c :: r =>
    match Digit.value? c with
    | some d => let (ds, t) := furtherDigits r; (d :: ds, t)
    | none => ([], c :: r)

def digitsOf (s : List Char) : List Nat × List Char :=
  if (s.head?.bind Digit.value?).isSome then furtherDigits s else ([], s)

def number? (ds : List Nat) : Option Nat :=
  if ds.length ≤ Digit.digitLimit then some (Digit.number ds) else none

def exponent? (s : List Char) : Option Int :=
  match s with
  | [] => some 0
  | c :: r =>
    if c = 'e' ∨ c = 'E' then
      let (neg, r) := match r with
        | '-' :: r => (true, r)
        | '+' :: r => (false, r)
        | r => (false, r)
      match digitsOf r with
      | ([], _) => none
      | (ds, []) => (number? ds).map (Binary64.signed neg)
      | _ => none
    else none

def denominator? (s : List Char) : Option Nat :=
  match digitsOf s with
  | ([], _) => none
  | (ds, []) => number? ds
  | _ => none

/-- What follows the sign. -/
def magnitude? (neg : Bool) (s : List Char) : Option Fraction := do
  let (ds, r) := digitsOf s
  match r with
  | '/' :: r => if ds.isEmpty then none else quotient? (Binary64.signed neg (← number? ds)) (← denominator? r)
  | '.' :: r =>
    let (behind, r) := digitsOf r
    if ds.isEmpty && behind.isEmpty then none
    else
      let _ ← number? ds
      let _ ← number? behind
      decimal? (ds ++ behind) ((← exponent? r) - behind.length)
  | r => if ds.isEmpty then none else decimal? ds (← exponent? r)
where
  decimal? (ds : List Nat) (e : Int) : Option Fraction :=
    let s := Binary64.scale 10 (Digit.number ds) 1 e
    quotient? (Binary64.signed neg s.1) s.2

def ofText? (s : List Char) : Option Fraction :=
  match Blank.trim s with
  | '-' :: r => magnitude? true r
  | '+' :: r => magnitude? false r
  | r => magnitude? false r

end Fraction

end WalletLogin.Decimal
