/-
  WalletLogin.Calendar.Moment — a day and a time of day, to the microsecond, with the
  minutes by which local time is ahead of universal time.

  A text has a T between day and time, an optional fraction of the second, of which
  six digits count, and at its end a Z or the signed hours and minutes ahead. Digits of
  every script count, and a line feed may follow.
-/

import WalletLogin.Calendar.Date
import WalletLogin.Decimal.Binary64

namespace WalletLogin.Calendar

open Decimal

structure Moment where
  date : Date
  hour : Nat
  minute : Nat
  second : Nat
  micro : Nat
  ahead : Int
  deriving DecidableEq, Repr, Inhabited

namespace Moment

def secondsOfDay (m : Moment) : Nat := m.hour * 3600 + m.minute * 60 + m.second

/-- Microseconds of universal time since the day before the first. -/
def instant (m : Moment) : Int :=
  ((m.date.ordinal * 86400 + m.secondsOfDay : Nat) - m.ahead * 60) * 1000000 + m.micro

def make? (y mo d h mi s micro : Nat) (ahead : Int) : Option Moment := do
  let date ← Date.make? y mo d
  if h < 24 ∧ mi < 60 ∧ s < 60 ∧ ahead.natAbs < 1440 then return ⟨date, h, mi, s, micro, ahead⟩ else none

/-- The number of the first day of 1970. -/
def epochDay : Int := 719163

/-- The moment so many seconds and microseconds after the start of 1970. -/
def ofEpoch? (seconds : Int) (micro : Nat) : Option Moment := do
  let date ← Date.ofOrdinal? (epochDay + Int.fdiv seconds 86400)
  let s := (Int.fmod seconds 86400).toNat
  return ⟨date, s / 3600, s / 60 % 60, s % 60, micro, 0⟩

/-- The part behind the point is multiplied as a floating-point number before it is
rounded to whole microseconds. -/
def ofEpochFloat? (x : Binary64) : Option Moment :=
  match x with
  | .finite neg m e =>
    let (n, d) := Binary64.ratio m e
    match Binary64.ofRatio neg (n % d * 1000000) d with
    | .finite _ m' e' =>
      let (n', d') := Binary64.ratio m' e'
      let micro := Binary64.signed neg (n / d) * 1000000 + Binary64.signed neg (Binary64.roundHalfEven n' d')
      ofEpoch? (Int.fdiv micro 1000000) (Int.fmod micro 1000000).toNat
    | _ => none
  | _ => none

/-! ## Texts -/

def renderAhead (n : Int) : List Char :=
  if n = 0 then ['Z']
  else
    (if n < 0 then '-' else '+') :: Digit.renderPadded 2 (n.natAbs / 60) ++
      ':' :: Digit.renderPadded 2 (n.natAbs % 60)

def render (m : Moment) : List Char :=
  m.date.render ++ 'T' :: Digit.renderPadded 2 m.hour ++ ':' :: Digit.renderPadded 2 m.minute ++
    ':' :: Digit.renderPadded 2 m.second ++
    (if m.micro = 0 then [] else '.' :: Digit.renderPadded 6 m.micro) ++ renderAhead m.ahead

/-- The number of just `n` digits at the front, and what follows the mark behind it. -/
def field? (n : Nat) (mark : Option Char) (s : List Char) : Option (Nat × List Char) := do
  let ds ← (s.take n).mapM Digit.value?
  if ds.length < n then none
  else
    match mark, s.drop n with
    | none, r => some (Digit.number ds, r)
    | some c, r => if r.head? = some c then some (Digit.number ds, r.drop 1) else none

def isDigit (c : Char) : Bool := (Digit.value? c).isSome

/-- The microseconds of a fraction, if there is one, and the rest. -/
def micro? : List Char → Option (Nat × List Char)
  | '.' :: r =>
    let ds := (r.takeWhile isDigit).filterMap Digit.value?
    if ds.isEmpty then none
    else some (Digit.number (ds ++ List.replicate (6 - ds.length) 0 |>.take 6), r.dropWhile isDigit)
  | r => some (0, r)

def ahead? (s : List Char) : Option Int :=
  match s with
  | ['Z'] => some 0
  | ['Z', '\n'] => some 0
  | c :: r =>
    if c = '+' ∨ c = '-' then do
      let (h, r) ← field? 2 (some ':') r
      let (m, r) ← field? 2 none r
      if r = [] ∨ r = ['\n'] then some (Binary64.signed (c = '-') (h * 60 + m)) else none
    else none
  | [] => none

def ofText? (s : List Char) : Option Moment := do
  let (y, s) ← field? 4 (some '-') s
  let (mo, s) ← field? 2 (some '-') s
  let (d, s) ← field? 2 (some 'T') s
  let (h, s) ← field? 2 (some ':') s
  let (mi, s) ← field? 2 (some ':') s
  let (sec, s) ← field? 2 none s
  let (micro, s) ← micro? s
  make? y mo d h mi sec micro (← ahead? s)

end Moment

end WalletLogin.Calendar
