/-
  WalletLogin.Pattern.Syntax — which texts and byte strings are search patterns.

  A pattern is a choice of sequences. Flags for the whole of it stand at its start; a
  group may have a name that no other one has; a look behind matches one number of
  characters only; a condition asks for a group that exists by the end of the pattern
  and has at most two branches; and a pattern with the flag `t` repeats nothing.
-/

import WalletLogin.Bytes
import WalletLogin.Pattern.Scan
import WalletLogin.Text.Identifier
import WalletLogin.Text.Quoted

namespace WalletLogin

open Decimal Text

namespace Pattern

open Scan

def isSkipped (c : Char) : Bool := c = ' ' || (9 ≤ c.toNat && c.toNat ≤ 13)

/-- Past a remark to the end of its line, or to the end of the pattern. -/
def skipLine : Scanner Unit :=
  modify fun s => { s with rest := (s.rest.dropWhile (· ≠ .plain '\n')).drop 1 }

def repetition? (c : Char) : Scanner (Option (Nat × Option Nat)) := do
  match c with
  | '?' => return some (0, some 1)
  | '*' => return some (0, none)
  | '+' => return some (1, none)
  | _ => bounds?

/-- The last piece repeated, with a sign for the manner behind. -/
def repeatLast (least : Nat) (most : Option Nat) : List Piece → Scanner (List Piece)
  | ⟨.other, w⟩ :: ps => do
    if !(← accept '?') then let _ ← accept '+'
    modify fun s => { s with repeats := true }
    return ⟨.repeated, w.times least most⟩ :: ps
  | _ => failure

def validName (name : List Char) : Scanner (List Char) :=
  if Identifier.isName name then return name else failure

def groupNamed (name : List Char) : Scanner Nat := do
  match (← get).names.find? (·.1 = name) with
  | some (_, n) => return n
  | none => failure

def openGroup (name : Option (List Char)) : Scanner Nat := do
  let s ← get
  let n := s.groups.length + 1
  match name with
  | none => set { s with groups := s.groups ++ [none] }
  | some name =>
    if s.names.any (·.1 = name) then failure
    else set { s with groups := s.groups ++ [none], names := (name, n) :: s.names }
  return n

def closeGroup (n : Nat) (w : Width) : Scanner Unit :=
  modify fun s => { s with groups := s.groups.set (n - 1) (some w) }

def groupCountLimit : Nat := 1073741823

/-- The group that a condition asks for. -/
def condition : Scanner Unit := do
  let name ← nameUntil ')'
  let n ←
    if Identifier.isName name then groupNamed name
    else
      match Digit.whole? name with
      | some n =>
        if 0 < n ∧ n < groupCountLimit then do
          modify fun s => { s with asked := n.toNat :: s.asked }
          pure n.toNat
        else failure
      | none => failure
  if (← get).behind.isSome then do
    let _ ← reference n

inductive Opening where
  | remark
  | global
  | piece (p : Piece)
  | group (captures : Bool) (name : Option (List Char)) (on off : List Char)
  | ahead
  | behind
  | condition

/-- What follows an opening parenthesis, up to the parts within. -/
def opening : Scanner Opening := do
  if !(← accept '?') then return .group true none [] []
  else
    match ← plain with
    | 'P' =>
      if ← accept '<' then return .group true (some (← validName (← nameUntil '>'))) [] []
      else do
        expect '='
        return .piece (← reference (← groupNamed (← validName (← nameUntil ')'))))
    | '#' => do
      let _ ← before ')'
      return .remark
    | '=' => return .ahead
    | '!' => return .ahead
    | '<' => do
      let c ← plain
      if c = '=' || c = '!' then return .behind else failure
    | '(' => do
      condition
      return .condition
    | ':' => return .group false none [] []
    | '>' => return .group false none [] []
    | c => do
      match ← groupFlags c with
      | none => return .global
      | some (on, off) => return .group false none on off

/-- The greatest width of a look behind. -/
def behindLimit : Nat := 4294967295

mutual

/-- The sequences of a choice; at the outside, verbosity follows the flags. -/
def choice : Nat → Bool → Bool → Scanner Width
  | 0, _, _ => failure
  | fuel + 1, verbose, inner => do
    let w ← sequence fuel verbose (!inner) []
    further fuel verbose inner w

def further : Nat → Bool → Bool → Width → Scanner Width
  | 0, _, _, _ => failure
  | fuel + 1, verbose, inner, w => do
    if ← accept '|' then do
      let flags := (← get).flags
      let verbose := if inner then verbose else flags.contains 'x'
      let v ← sequence fuel verbose false []
      further fuel verbose inner (w.either v)
    else return w

/-- The pieces up to a bar, a closing parenthesis or the end, behind those read. -/
def sequence : Nat → Bool → Bool → List Piece → Scanner Width
  | 0, _, _, _ => failure
  | fuel + 1, verbose, first, done => do
    let s ← get
    match s.rest with
    | [] => return Piece.total done
    | .escaped c :: r => do
      set { s with rest := r }
      let p ← escape c
      sequence fuel verbose first (p :: done)
    | .plain c :: r =>
      if c = '|' || c = ')' then return Piece.total done
      else do
        set { s with rest := r }
        if verbose && isSkipped c then sequence fuel verbose first done
        else if verbose && c = '#' then do
          skipLine
          sequence fuel verbose first done
        else if c = '[' then do
          let p ← charSet
          sequence fuel verbose first (p :: done)
        else if c = '^' || c = '$' then sequence fuel verbose first (.place :: done)
        else if c = '*' || c = '+' || c = '?' || c = '\x7b' then do
          match ← repetition? c with
          | none => sequence fuel verbose first (.one :: done)
          | some (least, most) => do
            let done ← repeatLast least most done
            sequence fuel verbose first done
        else if c = '(' then do
          match ← opening with
          | .remark => sequence fuel verbose first done
          | .global => do
            let verbose := (← get).flags.contains 'x'
            if first && done.isEmpty then sequence fuel verbose first done else failure
          | .piece p => sequence fuel verbose first (p :: done)
          | o => do
            let p ← inside fuel verbose o
            expect ')'
            sequence fuel verbose first (p :: done)
        else sequence fuel verbose first (.one :: done)

/-- What an opening opens, up to the closing parenthesis. -/
def inside : Nat → Bool → Opening → Scanner Piece
  | 0, _, _ => failure
  | fuel + 1, verbose, o => do
    match o with
    | .ahead => do
      let _ ← choice fuel verbose true
      return ⟨.other, .none⟩
    | .behind => do
      let outer := (← get).behind
      modify fun s => { s with behind := outer.or (some (s.groups.length + 1)) }
      let w ← choice fuel verbose true
      modify fun s => { s with behind := outer }
      if w.least = w.most ∧ w.least ≤ behindLimit then return ⟨.other, .none⟩ else failure
    | .condition => do
      let yes ← sequence fuel verbose false []
      if ← accept '|' then do
        let no ← sequence fuel verbose false []
        return ⟨.other, yes.either no⟩
      else return ⟨.other, yes.optional⟩
    | .group captures name on off => do
      let verbose := (verbose || on.contains 'x') && !off.contains 'x'
      if captures then do
        let n ← openGroup name
        let w ← choice fuel verbose true
        closeGroup n w
        return ⟨.other, w⟩
      else do
        let w ← choice fuel verbose true
        return ⟨.other, w⟩
    | _ => failure

end

/-- Whether a pattern that was read to its end is one as a whole. -/
def isWhole (s : Scan) : Bool :=
  s.rest.isEmpty && s.asked.all (· ≤ s.groups.length) && !(s.flags.contains 't' && s.repeats) &&
    !(s.flags.contains 'a' && (s.flags.contains 'u' || s.flags.contains 'L'))

def isSyntax (overText : Bool) (s : List Char) : Bool :=
  match Token.ofText? s with
  | none => false
  | some ts =>
    match (choice (3 * ts.length + 3) false false).run ⟨overText, ts, [], [], none, [], [], false⟩ with
    | some (_, s) => isWhole s
    | none => false

end Pattern

/-- A search pattern over texts or over bytes. -/
inductive Pattern where
  | text (s : List Char)
  | bytes (b : Bytes)
  deriving DecidableEq, Repr

namespace Pattern

def ofText? (s : List Char) : Option Pattern := if isSyntax true s then some (.text s) else none

def ofBytes? (b : Bytes) : Option Pattern :=
  if isSyntax false (b.map fun x => Char.ofNat x.toNat) then some (.bytes b) else none

/-- The pattern as a text; one over bytes is quoted and has a b in front. -/
def source : Pattern → List Char
  | .text s => s
  | .bytes b => 'b' :: Quoted.encodeBytes b

end Pattern

end WalletLogin
