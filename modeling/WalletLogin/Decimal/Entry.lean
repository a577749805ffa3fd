/-
  WalletLogin.Decimal.Entry — numbers as they are entered in settings: ASCII digits
  with white space around them and single underscores inside.

  A whole number may have a sign, zeros in front, and zeros behind a point; the sign of
  a negative one may also stand behind the zeros. A floating-point number needs a digit
  on one side of its point at least and may have an exponent; infinity and nan are words
  in any letter case; no white space goes with underscores in it. A number is first read
  as it stands and only then without what may surround its digits.
-/

import WalletLogin.Decimal.Binary64
import WalletLogin.Decimal.Digit
import WalletLogin.Text.Blank
import WalletLogin.Text.Case

namespace WalletLogin.Decimal.Entry

open Text

def isDigit (c : Char) : Bool := '0' ≤ c && c ≤ '9'

def isNonzero (c : Char) : Bool := '1' ≤ c && c ≤ '9'

def number (ds : List Char) : Nat := ds.foldl (fun n c => n * 10 + (c.toNat - 48)) 0

/-- Behind a zero at the front: the text from the first digit that is not zero or from a
minus sign on, or the last zero and what follows it. -/
def afterZeros? (last : Char) : List Char → Option (List Char)
  | [] => some [last]
  | c :: r =>
    if c = '0' ∨ c = '_' then afterZeros? c r
    else if isNonzero c || c = '-' then some (c :: r)
    else if c = '.' then some (last :: c :: r)
    else none

def withoutZeros? (s : List Char) : Option (List Char) :=
  match s with
  | '0' :: r => afterZeros? '0' r
  | c :: _ => if isNonzero c || c = '-' then some s else none
  | [] => none

def withoutPlus? (s : List Char) : Option (List Char) :=
  match s with
  | '+' :: '-' :: _ => none
  | '+' :: r => some r
  | s => some s

/-- A minus sign at the front stays there. -/
def withoutZerosBehindSign? (s : List Char) : Option (List Char) :=
  match s with
  | '-' :: r => (withoutZeros? r).map ('-' :: ·)
  | s => withoutZeros? s

/-- Without a point that zeros follow, one at least, and nothing else. -/
def withoutFraction (s : List Char) : List Char :=
  let zeros := (s.dropWhile (· ≠ '.')).drop 1
  if !zeros.isEmpty && zeros.all (· = '0') then s.takeWhile (· ≠ '.') else s

def hasDoubleUnderscore : List Char → Bool
  | '_' :: '_' :: _ => true
  | _ :: r => hasDoubleUnderscore r
  | [] => false

/-- Without the underscores, when each stands alone and inside. -/
def withoutUnderscores (s : List Char) : List Char :=
  if s.head? = some '_' || s.getLast? = some '_' || hasDoubleUnderscore s then s
  else s.filter (· ≠ '_')

inductive Fault where
  | malformed
  | tooLong
  deriving DecidableEq, Repr

/-- Zero, or digits of which the first is another one. Too many digits are a fault of
their own, whatever follows them. -/
def natural (s : List Char) : Except Fault Nat :=
  let ds := s.takeWhile isDigit
  if s = ['0'] then .ok 0
  else if !s.head?.any isNonzero then .error .malformed
  else if Digit.digitLimit < ds.length then .error .tooLong
  else if ds.length < s.length then .error .malformed
  else .ok (number ds)

def plainWhole (s : List Char) : Except Fault Int :=
  match s with
  | '-' :: r => (natural r).map fun n => -(n : Int)
  | s => (natural s).map Int.ofNat

def cleaned? (s : List Char) : Option (List Char) := do
  let s ← withoutZerosBehindSign? (← withoutPlus? (Blank.trimSpace s))
  return withoutUnderscores (withoutFraction s)

def whole (s : List Char) : Except Fault Int :=
  match plainWhole s, cleaned? s with
  | .error .malformed, some s => plainWhole s
  | r, _ => r

/-- The exponent, when the text is one, or nothing at all. -/
def exponent? (s : List Char) : Option Int :=
  match s with
  | [] => some 0
  | c :: r =>
    if c = 'e' ∨ c = 'E' then
      match r with
      | '-' :: r => if r.all isDigit && !r.isEmpty then some (-(number r : Int)) else none
      | '+' :: r => if r.all isDigit && !r.isEmpty then some (number r) else none
      | r => if r.all isDigit && !r.isEmpty then some (number r) else none
    else none

/-- The number that the digits on both sides of the point spell, and the power of ten
that it is to be multiplied by. -/
def decimal? (s : List Char) : Option (Nat × Int) :=
  let whole := s.takeWhile isDigit
  let rest := s.dropWhile isDigit
  let (behind, rest) := match rest with
    | '.' :: r => (r.takeWhile isDigit, r.dropWhile isDigit)
    | r => ([], r)
  if whole.isEmpty && behind.isEmpty then none
  else (exponent? rest).map fun e => (number (whole ++ behind), e - behind.length)

def isInfinity (word : List Char) : Bool := word = "inf".toList || word = "infinity".toList

def magnitude? (neg : Bool) (s : List Char) : Option Binary64 :=
  let word := Case.lower s
  if isInfinity word then some (.infinite neg)
  else if word = "nan".toList then some .nan
  else (decimal? s).map fun (n, k) => Binary64.ofDecimal neg n k

def plainFloat? (s : List Char) : Option Binary64 :=
  match s with
  | '-' :: r => magnitude? true r
  | '+' :: r => magnitude? false r
  | r => magnitude? false r

def float? (s : List Char) : Option Binary64 :=
  (plainFloat? (Blank.trimSpace s)).or (plainFloat? (withoutUnderscores s))

end WalletLogin.Decimal.Entry
