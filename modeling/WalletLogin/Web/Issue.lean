/-
  WalletLogin.Web.Issue — what is wrong with a value that was to have a certain shape,
  and where.
-/

namespace WalletLogin.Web

inductive Place where
  | field (name : String)
  | index (n : Nat)
  deriving DecidableEq, Repr

inductive Complaint where
  | missing
  | notText
  | notWhole
  | notWholeText
  | tooLongText
  | fraction
  | notFinite
  | notBool
  | notFloat
  | notList
  | notObject
  deriving DecidableEq, Repr

def Complaint.name : Complaint → String
  | .missing => "missing"
  | .notText => "string_type"
  | .notWhole => "int_type"
  | .notWholeText => "int_parsing"
  | .tooLongText => "int_parsing_size"
  | .fraction => "int_from_float"
  | .notFinite => "finite_number"
  | .notBool => "bool_parsing"
  | .notFloat => "float_parsing"
  | .notList => "list_type"
  | .notObject => "model_attributes_type"

structure Issue where
  complaint : Complaint
  /-- From the outside in. -/
  place : List Place
  deriving DecidableEq, Repr

def Issue.under (p : Place) (i : Issue) : Issue := { i with place := p :: i.place }

end WalletLogin.Web
