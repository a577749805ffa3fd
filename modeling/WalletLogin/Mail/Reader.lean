/-
  WalletLogin.Mail.Reader — messages from texts.

  A part ends where the text does or before a line that ends it for one of the parts
  around it: a boundary, or an empty line for the fields of a delivery status. The head
  ends at the first line that cannot belong to it, which is left out when it is empty.
  What does not have the form it claims is kept as text.
-/

import WalletLogin.Mail.Part

namespace WalletLogin.Mail.Reader

open Text

/-- Lines that end a part. -/
inductive Stop where
  | emptyLine
  | boundary (s : List Char)

def isEmptyLine (line : List Char) : Bool := line.head?.any Lines.isEnd

/-- What follows a boundary in a line that consists of one: blanks and the line's end. -/
def isBoundaryTail (s : List Char) : Bool :=
  let r := s.dropWhile Field.isIndent
  r = [] || r = ['\n'] || r = ['\r'] || r = ['\r', '\n']

/-- Whether a line is a boundary, and then whether it is the last one. -/
def boundaryEnd? (boundary line : List Char) : Option Bool :=
  let mark := '-' :: '-' :: boundary
  if mark.isPrefixOf line then
    let r := line.drop mark.length
    if ['-', '-'].isPrefixOf r && isBoundaryTail (r.drop 2) then some true
    else if isBoundaryTail r then some false
    else none
  else none

def Stop.ends : Stop → List Char → Bool
  | .emptyLine, line => isEmptyLine line
  | .boundary b, line => (boundaryEnd? b line).isSome

abbrev Lines := List (List Char)

/-- The lines up to the end of a part, and the rest. -/
def untilEnd (stops : List Stop) (lines : Lines) : Lines × Lines :=
  lines.span fun line => !stops.any (·.ends line)

/-- The next line, if the part has one. -/
def next (stops : List Stop) : Lines → Option (List Char × Lines)
  | [] => none
  | line :: r => if stops.any (·.ends line) then none else some (line, r)

def head (inDigest : Bool) (stops : List Stop) (lines : Lines) : Head × Lines :=
  let (part, _) := untilEnd stops lines
  let front := part.takeWhile Field.isLine
  let rest := lines.drop front.length
  let (fields, line) := Field.ofHead true none front
  let rest :=
    match next stops rest with
    | some (l, r) => if isEmptyLine l then r else rest
    | none => rest
  (⟨fields, inDigest⟩, line.toList ++ rest)

/-- The text before the first boundary, and from that boundary on the rest if it is not
the last one. -/
def preamble (stops : List Stop) (boundary : List Char) : Lines → Lines → Lines × Option Lines
  | done, [] => (done, none)
  | done, line :: r =>
    if stops.any (·.ends line) then (done, none)
    else
      match boundaryEnd? boundary line with
      | some true => (done, none)
      | some false => (done, some (line :: r))
      | none => preamble stops boundary (done ++ [line]) r

/-- Past boundaries that have nothing between them. -/
def skipBoundaries (stops : List Stop) (boundary : List Char) : Lines → Lines
  | [] => []
  | line :: r =>
    if !stops.any (·.ends line) && (boundaryEnd? boundary line).isSome then skipBoundaries stops boundary r
    else line :: r

/-- What follows the last boundary: nothing when that has no end of line. -/
def epilogue (stops : List Stop) (lines : Lines) : List Char × Lines :=
  let (part, rest) := untilEnd stops lines
  (part.flatten, rest)

mutual

def part : Nat → Bool → List Stop → Lines → Option (Part × Lines)
  | 0, _, _, _ => none
  | fuel + 1, inDigest, stops, lines => do
    let (h, lines) := head inDigest stops lines
    if h.isStatus then
      let (ps, lines) ← statuses fuel stops lines
      return (.compound h none none ps, lines)
    else if h.isMessage then
      let (p, lines) ← part fuel false stops lines
      return (.compound h none none [p], lines)
    else if h.isMultipart then
      match ← h.boundary? with
      | none => return text h stops lines
      | some boundary =>
        match preamble stops boundary [] lines with
        | (before, none) => return (.leaf h before.flatten, (untilEnd stops lines).2)
        | (before, some lines) =>
          let before := if before.isEmpty then none else some (Text.Lines.withoutEnd before.flatten)
          let (ps, isClosed, lines) ← parts fuel h.isDigest stops boundary lines
          if isClosed then
            let (behind, lines) := epilogue stops lines
            return (.compound h before (some behind) ps, lines)
          else return (.compound h before none ps, lines)
    else return text h stops lines
where
  text (h : Head) (stops : List Stop) (lines : Lines) : Part × Lines :=
    let (body, rest) := untilEnd stops lines
    (.leaf h body.flatten, rest)

/-- The parts from a boundary on, and whether the last boundary is there. -/
def parts : Nat → Bool → List Stop → List Char → Lines → Option (List Part × Bool × Lines)
  | 0, _, _, _, _ => none
  | fuel + 1, inDigest, stops, boundary, lines =>
    match next stops lines with
    | none => some ([], false, lines)
    | some (line, r) =>
      match boundaryEnd? boundary line with
      | none => none
      | some true => some ([], true, r)
      | some false => do
        let r := skipBoundaries stops boundary r
        let (p, r) ← part fuel inDigest (.boundary boundary :: stops) r
        let (ps, isClosed, r) ← parts fuel inDigest stops boundary r
        return (p.withoutEnd :: ps, isClosed, r)

/-- The blocks of fields of a delivery status, with empty lines between them. -/
def statuses : Nat → List Stop → Lines → Option (List Part × Lines)
  | 0, _, _ => none
  | fuel + 1, stops, lines => do
    let (p, lines) ← part fuel false (.emptyLine :: stops) lines
    let lines := ((next stops lines).map (·.2)).getD lines
    match next stops lines with
    | none => return ([p], lines)
    | some _ =>
      let (ps, lines) ← statuses fuel stops lines
      return (p :: ps, lines)

end

def read? (s : List Char) : Option Part :=
  let lines := Lines.withEnds s
  (part (3 * lines.length + 3) false [] lines).map (·.1)

end WalletLogin.Mail.Reader
