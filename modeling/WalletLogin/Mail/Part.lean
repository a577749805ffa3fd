/-
  WalletLogin.Mail.Part — messages and the parts they are made of.

  The content type of a part is text/plain when it is not said or not well formed, and
  message/rfc822 when it is not said within a digest. A multipart has a boundary, and
  what stands before its parts and behind them.
-/

import WalletLogin.Mail.Field
import WalletLogin.Mail.Parameters

namespace WalletLogin.Mail

open Text

structure Head where
  fields : List Field
  inDigest : Bool
  deriving DecidableEq, Repr

namespace Head

def get? (h : Head) (name : String) : Option (List Char) :=
  (h.fields.find? fun f => Case.lower f.name = name.toList).map (·.value)

def contentType (h : Head) : List Char × List Char :=
  match h.get? "content-type" with
  | none => if h.inDigest then ("message".toList, "rfc822".toList) else ("text".toList, "plain".toList)
  | some value =>
    match Pieces.cut '/' (Case.lower (Blank.trim (Pieces.cutOnce ';' value).1)) with
    | [main, sub] => (main, sub)
    | _ => ("text".toList, "plain".toList)

def mainType (h : Head) : List Char := h.contentType.1

def isMultipart (h : Head) : Bool := h.mainType = "multipart".toList

def isMessage (h : Head) : Bool := h.mainType = "message".toList

def isStatus (h : Head) : Bool := h.contentType = ("message".toList, "delivery-status".toList)

def isDigest (h : Head) : Bool := h.contentType = ("multipart".toList, "digest".toList)

/-- The boundary, if there is one; no answer when the parameters cannot be read. -/
def boundary? (h : Head) : Option (Option (List Char)) :=
  match h.get? "content-type" with
  | none => some none
  | some value => (Parameters.find? "boundary".toList value).map (·.map Blank.trimRight)

end Head

inductive Part where
  | leaf (head : Head) (text : List Char)
  | compound (head : Head) (preamble epilogue : Option (List Char)) (parts : List Part)

namespace Part

def head : Part → Head
  | .leaf h _ => h
  | .compound h _ _ _ => h

/-- The names of the fields, in their order. -/
def names (p : Part) : List (List Char) := p.head.fields.map (·.name)

mutual

/-- Without the end of the last line, which belongs to a boundary that follows. In a
message within a message this is the end of the inner one. -/
def withoutEnd : Part → Part
  | .leaf h text => .leaf h (if h.isMultipart then text else Lines.withoutEnd text)
  | .compound h preamble epilogue parts =>
    if h.isMultipart then
      let epilogue := epilogue.bind fun s => if s.isEmpty then none else some (Lines.withoutEnd s)
      .compound h preamble epilogue parts
    else .compound h preamble epilogue (lastWithoutEnd parts)

def lastWithoutEnd : List Part → List Part
  | [] => []
  | [p] => [withoutEnd p]
  | p :: q :: r => p :: lastWithoutEnd (q :: r)

end

end Part

end WalletLogin.Mail
