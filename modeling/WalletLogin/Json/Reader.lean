/-
  WalletLogin.Json.Reader — JSON texts to values.

  Besides the standard grammar the words NaN, Infinity and -Infinity are numbers. A
  number with a fraction or an exponent is a floating-point number; a whole number may
  have 4300 digits. Control characters may not stand in a text, and of members with
  one key the last counts. Lists and objects nest to a limited depth. A text that is not
  JSON faults with the number of characters left where reading stopped, which gives the
  position in the text.
-/

import WalletLogin.Json.Basic
import WalletLogin.Decimal.Digit
import WalletLogin.Encoding.Hex
import WalletLogin.Text.Unicode

namespace WalletLogin.Json.Reader

open WalletLogin.Text

inductive Fault where
  | malformed (left : Nat)
  | tooManyDigits
  | tooDeep
  | undecodable
  deriving DecidableEq, Repr

/-- How many lists and objects may be open at once. -/
def nestingLimit : Nat := 960

def fail {α : Type} (rest : List Char) : Except Fault α := .error (.malformed rest.length)

def isSpace (c : Char) : Bool := c = ' ' || c = '\t' || c = '\n' || c = '\r'

def skip (s : List Char) : List Char := s.dropWhile isSpace

def plainEscape? (c : Char) : Option Char :=
  match c with
  | '"' => some '"'
  | '\\' => some '\\'
  | '/' => some '/'
  | 'b' => some (Char.ofNat 8)
  | 'f' => some (Char.ofNat 12)
  | 'n' => some '\n'
  | 'r' => some '\r'
  | 't' => some '\t'
  | _ => none

def hex4? (a b c d : Char) : Option Nat := do
  return ((((← Encoding.Hex.value? a) * 16 + (← Encoding.Hex.value? b)) * 16 +
    (← Encoding.Hex.value? c)) * 16 + (← Encoding.Hex.value? d))

/-- The character of a second escape of four digits, when it completes the pair that
`hi` opens; a character has to follow it. -/
def partner? (hi : Nat) (s : List Char) : Except Fault (Option (Char × List Char)) :=
  match s with
  | '\\' :: 'u' :: a :: b :: c :: d :: x :: r =>
    match hex4? a b c d with
    | none => .error (.malformed (r.length + 6))
    | some lo =>
      if Unicode.isLowSurrogate lo then .ok (some (Char.ofNat (Unicode.joinSurrogates hi lo), x :: r))
      else .ok none
  | _ => .ok none

/-- The character that an escape stands for, from behind its backslash on. A character
has to follow four digits. -/
def escaped (left : Nat) (s : List Char) : Except Fault (Char × List Char) :=
  match s with
  | [] => .error (.malformed left)
  | 'u' :: a :: b :: c :: d :: x :: r =>
    match hex4? a b c d with
    | none => .error (.malformed (r.length + 6))
    | some n =>
      if Unicode.isHighSurrogate n then do
        return (← partner? n (x :: r)).getD (Unicode.replacement, x :: r)
      else .ok (Unicode.unitChar n, x :: r)
  | c :: r =>
    match plainEscape? c with
    | some c => .ok (c, r)
    | none => .error (.malformed (r.length + if c = 'u' then 1 else 2))

/-- The characters up to the closing quote; `left` counts the characters from the
opening quote on and `acc` holds the characters read, last first. -/
def body (left : Nat) : Nat → List Char → List Char → Except Fault (String × List Char)
  | 0, _, _ => .error (.malformed left)
  | fuel + 1, s, acc =>
    match s with
    | [] => .error (.malformed left)
    | '"' :: r => .ok (String.ofList acc.reverse, r)
    | '\\' :: r => do
      let (c, r) ← escaped left r
      body left fuel r (c :: acc)
    | c :: r =>
      if c.toNat < 32 then .error (.malformed (r.length + 1)) else body left fuel r (c :: acc)

/-- A text from behind its opening quote on. -/
def string (r : List Char) : Except Fault (String × List Char) :=
  body (r.length + 1) (r.length + 1) r []

def isDigit (c : Char) : Bool := '0' ≤ c && c ≤ '9'

def digitValue (ds : List Char) : Nat := ds.foldl (fun n c => n * 10 + (c.toNat - 48)) 0

/-- The whole part: a zero alone, or digits that start with another one. -/
def wholePart? (s : List Char) : Option (List Char × List Char) :=
  match s with
  | '0' :: r => some (['0'], r)
  | c :: _ => if isDigit c then some (s.takeWhile isDigit, s.dropWhile isDigit) else none
  | [] => none

/-- The digits behind a point, if there are any; a point without is not part of the
number. -/
def fractionPart (s : List Char) : Option (List Char) × List Char :=
  match s with
  | '.' :: r =>
    let ds := r.takeWhile isDigit
    if ds.isEmpty then (none, s) else (some ds, r.dropWhile isDigit)
  | _ => (none, s)

def exponentDigits (neg : Bool) (s r : List Char) : Option Int × List Char :=
  let ds := r.takeWhile isDigit
  if ds.isEmpty then (none, s)
  else (some (if neg then -(digitValue ds : Int) else digitValue ds), r.dropWhile isDigit)

def exponentPart (s : List Char) : Option Int × List Char :=
  match s with
  | c :: r =>
    if c = 'e' ∨ c = 'E' then
      match r with
      | '-' :: r => exponentDigits true s r
      | '+' :: r => exponentDigits false s r
      | r => exponentDigits false s r
    else (none, s)
  | [] => (none, s)

def number (neg : Bool) (start s : List Char) : Except Fault (Json × List Char) :=
  match wholePart? s with
  | none => fail start
  | some (whole, r) =>
    let (fraction, r) := fractionPart r
    let (exponent, r) := exponentPart r
    if fraction.isNone && exponent.isNone then
      if whole.length ≤ Decimal.Digit.digitLimit then
        .ok (.int (if neg then -(digitValue whole : Int) else digitValue whole), r)
      else .error .tooManyDigits
    else
      let behind := fraction.getD []
      .ok (.float (Decimal.Binary64.ofDecimal neg (digitValue (whole ++ behind))
        (exponent.getD 0 - behind.length)), r)

/-- The words that stand for a value of their own. -/
def words : List (List Char × Json) := [
  ("null".toList, .null), ("true".toList, .bool true), ("false".toList, .bool false),
  ("NaN".toList, .float .nan), ("Infinity".toList, .float (.infinite false)),
  ("-Infinity".toList, .float (.infinite true))]

def word? (s : List Char) : Option (Json × List Char) :=
  (words.find? fun w => w.1.isPrefixOf s).map fun w => (w.2, s.drop w.1.length)

def scalar (s : List Char) : Except Fault (Json × List Char) :=
  match word? s with
  | some r => .ok r
  | none =>
    match s with
    | '-' :: r => number true s r
    | r => number false s r

mutual

/-- A value, in which as many lists and objects may be open at once as there is room. -/
def value : Nat → Nat → List Char → Except Fault (Json × List Char)
  | 0, _, s => fail s
  | fuel + 1, room, s =>
    match s with
    | '"' :: r => do
      let (t, r) ← string r
      return (.text t, r)
    | '{' :: r =>
      match room, skip r with
      | 0, _ => .error .tooDeep
      | _ + 1, '}' :: r => .ok (.object [], r)
      | room + 1, r => members fuel room r []
    | '[' :: r =>
      match room, skip r with
      | 0, _ => .error .tooDeep
      | _ + 1, ']' :: r => .ok (.list [], r)
      | room + 1, r => elements fuel room r []
    | s => scalar s

/-- Members from a key on; those read stand in `acc`, in order. -/
def members : Nat → Nat → List Char → List (String × Json) → Except Fault (Json × List Char)
  | 0, _, s, _ => fail s
  | fuel + 1, room, s, acc =>
    match s with
    | '"' :: r => do
      let (key, r) ← string r
      match skip r with
      | ':' :: r => do
        let (v, r) ← value fuel room (skip r)
        let acc := put key v acc
        match skip r with
        | '}' :: r => return (.object acc, r)
        | ',' :: r => members fuel room (skip r) acc
        | r => fail r
      | r => fail r
    | s => fail s

/-- Elements from a value on; those read stand in `acc`, last first. -/
def elements : Nat → Nat → List Char → List Json → Except Fault (Json × List Char)
  | 0, _, s, _ => fail s
  | fuel + 1, room, s, acc => do
    let (v, r) ← value fuel room s
    match skip r with
    | ']' :: r => return (.list (v :: acc).reverse, r)
    | ',' :: r => elements fuel room (skip r) (v :: acc)
    | r => fail r

end

/-- One value with blanks around it. Each level of nesting takes a character and two
calls, so fuel for twice the length suffices. -/
def read (s : List Char) : Except Fault Json := do
  let (v, r) ← value (2 * s.length + 1) nestingLimit (skip s)
  match skip r with
  | [] => return v
  | r => fail r

def readBytes (b : Bytes) : Except Fault Json :=
  match Unicode.ofBytes? b with
  | some s => read s
  | none => .error .undecodable

end WalletLogin.Json.Reader
