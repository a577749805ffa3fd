/-
  WalletLogin.Calendar.Date — days of the Gregorian calendar from the year 1 to the
  year 9999, counted from the first on.

  A text gives year, month and day, or year, week and day of the week of which the
  first is meant if none is given; either with or without dashes. Only the front of a
  text is read, but its length in bytes has to be that of some form.
-/

import WalletLogin.Bytes
import WalletLogin.Decimal.Digit
import WalletLogin.Decimal.Entry

namespace WalletLogin.Calendar

open Decimal

structure Date where
  year : Nat
  month : Nat
  day : Nat
  deriving DecidableEq, Repr, Inhabited

namespace Date

def lastYear : Nat := 9999

def isLeap (y : Nat) : Bool := y % 4 = 0 && (y % 100 ≠ 0 || y % 400 = 0)

def monthLengths (y : Nat) : List Nat :=
  [31, if isLeap y then 29 else 28, 31, 30, 31, 30, 31, 31, 30, 31, 30, 31]

def make? (y m d : Nat) : Option Date :=
  if 1 ≤ y ∧ y ≤ lastYear ∧ 1 ≤ m ∧ 1 ≤ d ∧ d ≤ (monthLengths y).getD (m - 1) 0 then
    some ⟨y, m, d⟩
  else none

/-- The number of days before a year. -/
def daysBefore (y : Nat) : Nat := (y - 1) * 365 + (y - 1) / 4 - (y - 1) / 100 + (y - 1) / 400

/-- The number of the day; the first is 1. -/
def ordinal (d : Date) : Nat :=
  daysBefore d.year + ((monthLengths d.year).take (d.month - 1)).foldl (· + ·) 0 + d.day

/-- Month and day of the day in a year whose number is `n`, from zero. -/
def inMonths : List Nat → Nat → Nat → Nat × Nat
  | [], m, n => (m, n + 1)
  | len :: r, m, n => if n < len then (m, n + 1) else inMonths r (m + 1) (n - len)

/-- The year that holds the day with this number. Whole years of 365 days overshoot by
less than one in a thousand, so the search starts behind it and goes back. -/
def yearBack : Nat → Nat → Nat → Nat
  | 0, y, _ => y
  | fuel + 1, y, n => if daysBefore y < n then y else yearBack fuel (y - 1) n

def lastOrdinal : Nat := 3652059

def ofOrdinal? (n : Int) : Option Date :=
  if 1 ≤ n ∧ n ≤ lastOrdinal then
    let n := n.toNat
    let y := yearBack 10 (n / 365 + 1) n
    let (m, d) := inMonths (monthLengths y) 1 (n - daysBefore y - 1)
    some ⟨y, m, d⟩
  else none

/-! ## Weeks -/

/-- Monday is 1 and Sunday 7. -/
def weekday (ordinal : Nat) : Nat := (ordinal + 6) % 7 + 1

/-- The day before the Monday of the first week, which is the one with the first
Thursday in it. -/
def weeksStart (y : Nat) : Int :=
  let first := daysBefore y + 1
  (first : Int) - weekday first + if weekday first ≤ 4 then 0 else 7

def weekCount (y : Nat) : Nat :=
  let w := weekday (daysBefore y + 1)
  if w = 4 || (w = 3 && isLeap y) then 53 else 52

def ofWeek? (y w d : Nat) : Option Date :=
  if 1 ≤ y ∧ y ≤ lastYear ∧ 1 ≤ w ∧ w ≤ weekCount y ∧ 1 ≤ d ∧ d ≤ 7 then
    ofOrdinal? (weeksStart y + ((w - 1) * 7 + d : Nat))
  else none

/-! ## Texts -/

def render (d : Date) : List Char :=
  Digit.renderPadded 4 d.year ++ '-' :: Digit.renderPadded 2 d.month ++ '-' :: Digit.renderPadded 2 d.day

/-- The number of just `n` digits at the front, and the rest. -/
def digits? (n : Nat) (s : List Char) : Option (Nat × List Char) :=
  if (s.take n).length = n ∧ (s.take n).all Entry.isDigit then some (Entry.number (s.take n), s.drop n)
  else none

/-- Behind a dash if there is to be one. -/
def behindDash? (dashed : Bool) (s : List Char) : Option (List Char) :=
  if dashed then (match s with | '-' :: r => some r | _ => none) else some s

def ofText? (s : List Char) : Option Date :=
  if (Bytes.ofText (String.ofList s)).length ∈ [7, 8, 10] then do
    let (y, r) ← digits? 4 s
    let dashed := r.head? = some '-'
    match ← behindDash? dashed r with
    | 'W' :: r =>
      let (w, r) ← digits? 2 r
      if r.isEmpty then ofWeek? y w 1
      else
        let (d, _) ← digits? 1 (← behindDash? dashed r)
        ofWeek? y w d
    | r =>
      let (m, r) ← digits? 2 r
      let (d, _) ← digits? 2 (← behindDash? dashed r)
      make? y m d
  else none

end Date

end WalletLogin.Calendar
