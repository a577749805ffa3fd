/-
  WalletLogin.Json.Display — the text that stands for a value where a text is asked
  for. A text stands for itself; inside a list or an object it is quoted.
-/

import WalletLogin.Json.Basic
import WalletLogin.Decimal.Shortest
import WalletLogin.Text.Quoted

namespace WalletLogin.Json.Display

mutual

def inner : Json → List Char
  | .null => "None".toList
  | .bool true => "True".toList
  | .bool false => "False".toList
  | .int n => Decimal.Digit.renderInt n
  | .float x => Decimal.Shortest.render x
  | .text s => Text.Quoted.encode s.toList
  | .list xs => '[' :: elements xs ++ [']']
  | .object fs => '\x7b' :: members fs ++ ['\x7d']

def elements : List Json → List Char
  | [] => []
  | [v] => inner v
  | v :: r => inner v ++ ',' :: ' ' :: elements r

def members : List (String × Json) → List Char
  | [] => []
  | [(k, v)] => Text.Quoted.encode k.toList ++ ':' :: ' ' :: inner v
  | (k, v) :: r => Text.Quoted.encode k.toList ++ ':' :: ' ' :: inner v ++ ',' :: ' ' :: members r

end

/-- The text of a value. Two limits are left out, since the reader that values come from
keeps both: no text stands for a whole number of more than 4300 digits, nor for what nests
deeper than the stack allows. -/
def display : Json → String
  | .text s => s
  | j => String.ofList (inner j)

end WalletLogin.Json.Display
