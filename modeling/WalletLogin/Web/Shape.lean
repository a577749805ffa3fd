/-
  WalletLogin.Web.Shape — records of a fixed shape, from values that may not have it.

  A shape is read in one of four ways. Converting, a value that is there becomes the
  text or the whole number that stands for it, and where it has none the field's
  default is taken; absent values (null) are not converted. Of an object's attributes,
  a text has to be one, and a whole number may also be text, a truth value or a number
  without a fraction; objects inside are converted, unless they are rows as well. Strictly,
  nothing is converted.

  Fields that the shape does not have are dropped, but an object that is converted may
  not have a member of the reserved name. Issues come in the order of the fields.
-/

import WalletLogin.Decimal.Entry
import WalletLogin.Json.Display
import WalletLogin.Json.Whole
import WalletLogin.Web.Issue

namespace WalletLogin.Web

open Decimal

inductive Shape where
  | text
  | optionalText
  | whole
  | listOf (s : Shape)
  | record (fields : List (String × Shape × Option Json))

inductive Reading where
  | converting
  /-- The attributes of a row, inside which stand objects. -/
  | attributes
  /-- The attributes of a row, inside which stand rows. -/
  | rows
  | strict
  deriving DecidableEq, Repr

inductive Misfit where
  | issues (is : List Issue)
  /-- An infinity where a whole number is to stand. -/
  | overflow
  /-- A member of the reserved name. -/
  | reserved
  deriving DecidableEq, Repr

namespace Shape

/-- How what is inside is read. -/
def inside : Reading → Reading
  | .converting => .converting
  | .attributes => .converting
  | .rows => .rows
  | .strict => .strict

/-- The name that stands for the record that is being made. -/
def reservedName : String := "self"

def complain {α : Type} (c : Complaint) : Except Misfit α := .error (.issues [⟨c, []⟩])

def under {α : Type} (p : Place) : Except Misfit α → Except Misfit α
  | .error (.issues is) => .error (.issues (is.map (·.under p)))
  | r => r

/-- Both values, or the issues of both. What is no issue ends the reading at once. -/
def both {α β γ : Type} (f : α → β → γ) : Except Misfit α → Except Misfit β → Except Misfit γ
  | .ok a, .ok b => .ok (f a b)
  | .ok _, .error m => .error m
  | .error (.issues is), .ok _ => .error (.issues is)
  | .error (.issues is), .error (.issues js) => .error (.issues (is ++ js))
  | .error (.issues _), .error m => .error m
  | .error m, _ => .error m

def wholeOfFloat (x : Binary64) : Except Misfit Json :=
  match x.truncate? with
  | none => complain .notFinite
  | some n => if x.isWhole && n.natAbs < 0x8000000000000000 then .ok (.int n) else complain .fraction

def wholeOfText (s : String) : Except Misfit Json :=
  match Entry.whole s.toList with
  | .ok n => .ok (.int n)
  | .error .malformed => complain .notWholeText
  | .error .tooLong => complain .tooLongText

def exactWhole : Json → Except Misfit Json
  | .int n => .ok (.int n)
  | .bool b => .ok (.int b.toNat)
  | .float x => wholeOfFloat x
  | .text s => wholeOfText s
  | _ => complain .notWhole

def convertedWhole (default : Option Json) : Json → Except Misfit Json
  | .null => complain .notWhole
  | .float (.infinite _) => .error .overflow
  | j =>
    match j.whole? with
    | some n => .ok (.int n)
    | none => .ok (default.getD .null)

def readText (r : Reading) : Json → Except Misfit Json
  | .text s => .ok (.text s)
  | .null => complain .notText
  | j => if r = .converting then .ok (.text (Json.Display.display j)) else complain .notText

def readOptionalText : Json → Except Misfit Json
  | .text s => .ok (.text s)
  | .null => .ok .null
  | _ => complain .notText

def readWhole (r : Reading) (default : Option Json) (j : Json) : Except Misfit Json :=
  if r = .converting then convertedWhole default j else exactWhole j

/-- A list, each element read by `f`. -/
def readList (f : Json → Except Misfit Json) (n : Nat) : List Json → Except Misfit (List Json)
  | [] => .ok []
  | j :: r => both (· :: ·) (under (.index n) (f j)) (readList f (n + 1) r)

mutual

/-- A value of a shape, which as a field has the given default. -/
def read (r : Reading) (default : Option Json) : Shape → Json → Except Misfit Json
  | .text, j => readText r j
  | .optionalText, j => readOptionalText j
  | .whole, j => readWhole r default j
  | .listOf s, j =>
    match j with
    | .list xs => (readList (read (inside r) none s) 0 xs).map .list
    | _ => complain .notList
  | .record fields, j =>
    match j with
    | .object members =>
      if r = .converting ∧ (Json.find? reservedName members).isSome then .error .reserved
      else (readFields r members fields).map .object
    | _ => complain .notObject

def readFields (r : Reading) (members : List (String × Json)) :
    List (String × Shape × Option Json) → Except Misfit (List (String × Json))
  | [] => .ok []
  | (name, shape, default) :: rest =>
    let value :=
      match Json.find? name members, default with
      | some j, _ => read (nested r shape) default shape j
      | none, some d => .ok d
      | none, none => complain .missing
    both (fun v vs => (name, v) :: vs) (under (.field name) value) (readFields r members rest)

/-- A record inside is read as what is inside. -/
def nested (r : Reading) : Shape → Reading
  | .record _ => inside r
  | _ => r

end

end Shape

end WalletLogin.Web
