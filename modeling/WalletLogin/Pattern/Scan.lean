/-
  WalletLogin.Pattern.Scan — the state in which a pattern is read, and the reading of
  its parts without inner parts: escapes, sets of characters, bounds and flags.

  A pattern over texts has escapes by code point and name that one over bytes has not.
  A reference is to a group that is closed and, within a look behind, was so before it.
-/

import WalletLogin.Decimal.Digit
import WalletLogin.Decimal.Entry
import WalletLogin.Encoding.Hex
import WalletLogin.Pattern.Token
import WalletLogin.Text.CharName

namespace WalletLogin.Pattern

open Decimal Encoding

structure Scan where
  overText : Bool
  rest : List Token
  /-- The widths of the groups, from the first on; an open one has none yet. -/
  groups : List (Option Width)
  names : List (List Char × Nat)
  /-- Within a look behind, the first group number that is not to be referred to. -/
  behind : Option Nat
  /-- The groups that conditions ask for by number. -/
  asked : List Nat
  flags : List Char
  repeats : Bool

abbrev Scanner := StateT Scan Option

namespace Scan

def next : Scanner Token := do
  let s ← get
  match s.rest with
  | [] => failure
  | t :: r => do
    set { s with rest := r }
    return t

def plain : Scanner Char := do
  match ← next with
  | .plain c => return c
  | .escaped _ => failure

def accept (c : Char) : Scanner Bool := do
  let s ← get
  match s.rest with
  | t :: r =>
    if t = .plain c then do
      set { s with rest := r }
      return true
    else return false
  | [] => return false

def expect (c : Char) : Scanner Unit := do if ← accept c then return () else failure

/-- The plain characters of one kind that come next, but no more than `n`. -/
def upTo (n : Nat) (p : Char → Bool) : Scanner (List Char) := do
  let s ← get
  let cs := Token.plainRun p (s.rest.take n)
  set { s with rest := s.rest.drop cs.length }
  return cs

/-- What comes before the next plain `stop`, which is passed. -/
def before (stop : Char) : Scanner (List Token) := do
  let s ← get
  let front := s.rest.takeWhile (· ≠ .plain stop)
  match s.rest.drop front.length with
  | [] => failure
  | _ :: r => do
    set { s with rest := r }
    return front

def nameUntil (stop : Char) : Scanner (List Char) := do
  let front ← before stop
  if front.isEmpty then failure else return front.flatMap Token.chars

/-! ## Escapes -/

def isOctal (c : Char) : Bool := '0' ≤ c && c ≤ '7'

def value (base : Nat) (cs : List Char) : Nat :=
  cs.foldl (fun n c => n * base + (Hex.value? c).getD 0) 0

/-- The greatest code of an octal escape, three digits of three bits less the first. -/
def octalLimit : Nat := 255

def octal (cs : List Char) : Scanner Nat := if octalLimit < value 8 cs then failure else return value 8 cs

def hexadecimal (n : Nat) : Scanner Nat := do
  let cs ← upTo n Hex.isDigit
  if cs.length = n then return value 16 cs else failure

def controls : List (Char × Nat) :=
  [('a', 7), ('b', 8), ('f', 12), ('n', 10), ('r', 13), ('t', 9), ('v', 11)]

/-- The code that an escape stands for alike within a set and outside of one. -/
def codeEscape (c : Char) : Scanner Nat := do
  let overText := (← get).overText
  match controls.find? (·.1 = c) with
  | some (_, n) => return n
  | none =>
    if c = 'x' then hexadecimal 2
    else if c = 'u' && overText then hexadecimal 4
    else if c = 'U' && overText then do
      let n ← hexadecimal 8
      if n < 0x110000 then return n else failure
    else if c = 'N' && overText then do
      expect '\x7b'
      match Text.CharName.code? (← nameUntil '\x7d') with
      | some n => return n
      | none => failure
    else if c.isAlphanum then failure
    else return c.toNat

def isClass (c : Char) : Bool := "dDsSwW".toList.contains c

def isPlace (c : Char) : Bool := "AbBZ".toList.contains c

def reference (n : Nat) : Scanner Piece := do
  let s ← get
  match s.groups.getD (n - 1) none with
  | some w => if s.behind.any (· ≤ n) then failure else return ⟨.other, w⟩
  | none => failure

/-- Behind a digit that is not zero: three octal digits, or the number of a group. -/
def numberEscape (c : Char) : Scanner Piece := do
  match ← upTo 1 Char.isDigit with
  | [] => reference (value 10 [c])
  | d :: _ =>
    let e ← if isOctal c && isOctal d then upTo 1 isOctal else pure []
    if e.isEmpty then reference (value 10 [c, d])
    else do
      let _ ← octal (c :: d :: e)
      return .one

def escape (c : Char) : Scanner Piece := do
  if isPlace c then return .place
  else if isClass c then return .one
  else if c = '0' then do
    let _ ← upTo 2 isOctal
    return .one
  else if c.isDigit then numberEscape c
  else do
    let _ ← codeEscape c
    return .one

/-! ## Sets -/

/-- A class of characters has no code. -/
def memberCode (t : Token) : Scanner (Option Nat) := do
  match t with
  | .plain c => return some c.toNat
  | .escaped c =>
    if isClass c then return none
    else if isOctal c then do
      let cs ← upTo 2 isOctal
      return some (← octal (c :: cs))
    else return some (← codeEscape c)

/-- The members up to the closing bracket, which as the first one is a member. -/
def members : Nat → Bool → Scanner Unit
  | 0, _ => failure
  | fuel + 1, any => do
    let t ← next
    if t = .plain ']' && any then return ()
    else do
      let lo ← memberCode t
      if ← accept '-' then do
        let t ← next
        if t = .plain ']' then return ()
        else do
          match lo, ← memberCode t with
          | some a, some b => if b < a then failure else members fuel true
          | _, _ => failure
      else members fuel true

def charSet : Scanner Piece := do
  let _ ← accept '^'
  members ((← get).rest.length + 1) false
  return .one

/-! ## Bounds and flags -/

def repeatLimit : Nat := 4294967295

def bound (ds : List Char) : Scanner Nat :=
  if ds.length ≤ Digit.digitLimit ∧ value 10 ds < repeatLimit then return value 10 ds else failure

/-- The bounds behind an opening brace, unless it is a character like any other. -/
def bounds? : Scanner (Option (Nat × Option Nat)) := do
  let s ← get
  if s.rest.head? = some (.plain '\x7d') then return none
  else do
    let lo ← upTo s.rest.length Char.isDigit
    let hi ← if ← accept ',' then upTo s.rest.length Char.isDigit else pure lo
    if ← accept '\x7d' then do
      let least ← bound lo
      if hi.isEmpty then return some (least, none)
      else do
        let most ← bound hi
        if most < least then failure else return some (least, some most)
    else do
      set s
      return none

def isFlag (c : Char) : Bool := "iLmsxatu".toList.contains c

/-- Flags of which no two go together. -/
def isExclusive (c : Char) : Bool := "aLu".toList.contains c

def isFlagAllowed (overText : Bool) (c : Char) : Bool := isFlag c && (if overText then c ≠ 'L' else c ≠ 'u')

/-- The flags from `c` on and the sign that ends them. -/
def flagsOn : Nat → List Char → Char → Scanner (List Char × Char)
  | 0, _, _ => failure
  | fuel + 1, on, c => do
    if !isFlagAllowed (← get).overText c then failure
    else if isExclusive c && on.any (fun d => isExclusive d && d ≠ c) then failure
    else do
      let d ← plain
      if d = ')' || d = '-' || d = ':' then return (c :: on, d) else flagsOn fuel (c :: on) d

def flagsOff : Nat → List Char → Char → Scanner (List Char)
  | 0, _, _ => failure
  | fuel + 1, off, c => do
    if !isFlag c || isExclusive c then failure
    else do
      let d ← plain
      if d = ':' then return c :: off else flagsOff fuel (c :: off) d

/-- The flags that a group turns on and off, or none when they are for the whole
pattern. The flag `t` is for the whole pattern only. -/
def groupFlags (c : Char) : Scanner (Option (List Char × List Char)) := do
  let fuel := (← get).rest.length + 1
  let (on, stop) ← if c = '-' then pure ([], c) else flagsOn fuel [] c
  if stop = ')' then do
    modify fun s => { s with flags := s.flags ++ on }
    return none
  else do
    let off ← if stop = '-' then do flagsOff fuel [] (← plain) else pure []
    if on.contains 't' || off.contains 't' || on.any off.contains then failure else return some (on, off)

end Scan

end WalletLogin.Pattern
