/-
  WalletLogin.Json.Basic — JSON values. Whole numbers and floating-point numbers are
  apart, and an object keeps its members in the order in which their keys first came.
-/

import WalletLogin.Decimal.Binary64

namespace WalletLogin

inductive Json where
  | null
  | bool (b : Bool)
  | int (n : Int)
  | float (x : Decimal.Binary64)
  | text (s : String)
  | list (xs : List Json)
  | object (fields : List (String × Json))
  deriving Inhabited

namespace Json

def find? (key : String) : List (String × Json) → Option Json
  | [] => none
  | (k, v) :: r => if k = key then some v else find? key r

/-- A key that is there keeps its place and gets the new value. -/
def put (key : String) (value : Json) : List (String × Json) → List (String × Json)
  | [] => [(key, value)]
  | (k, v) :: r => if k = key then (k, value) :: r else (k, v) :: put key value r

def get? (j : Json) (key : String) : Option Json :=
  match j with
  | .object fields => find? key fields
  | _ => none

def ofOption {α : Type} (f : α → Json) : Option α → Json
  | none => .null
  | some a => f a

def text? : Json → Option String
  | .text s => some s
  | _ => none

/-- Whether a value counts as something: zero, the empty text, list and object, false
and null do not. -/
def isTruthy : Json → Bool
  | .null => false
  | .bool b => b
  | .int n => n != 0
  | .float x => !x.isZero
  | .text s => s != ""
  | .list xs => !xs.isEmpty
  | .object fs => !fs.isEmpty

end Json

end WalletLogin
