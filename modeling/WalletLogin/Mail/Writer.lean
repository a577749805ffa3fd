/-
  WalletLogin.Mail.Writer — messages as texts: the fields, an empty line and the body.

  Lines of a body end with a line feed, however they were read; a multipart that was
  kept as text stays as it is. There is no text when a field has none, or when a
  multipart with parts has an empty boundary.
-/

import WalletLogin.Mail.Part

namespace WalletLogin.Mail

open Text

namespace Part

/-- How a body is put together. -/
inductive Manner where
  | plain
  | message
  | multipart
  | status
  deriving DecidableEq, Repr

def underscored (s : List Char) : List Char := s.map fun c => if c = '-' then '_' else c

def manner (h : Head) : Manner :=
  let main := underscored h.mainType
  let both := main ++ '_' :: underscored h.contentType.2
  let status := "message_delivery_status".toList
  if both = status || main = status then .status
  else if main = "multipart".toList || main = "multipart_signed".toList then .multipart
  else if main = "message".toList then .message
  else .plain

def renderFields? (fs : List Field) : Option (List Char) := (fs.mapM Field.render?).map List.flatten

/-- A block of a delivery status, without its last line end. -/
def block (s : List Char) : List Char := if s.getLast? = some '\n' then s.dropLast else s

def joinParts (boundary : List Char) (bodies : List (List Char)) : List Char :=
  let mark := '-' :: '-' :: boundary
  mark ++ '\n' :: (bodies.intersperse ('\n' :: mark ++ ['\n'])).flatten ++ '\n' :: mark ++ "--\n".toList

def compoundBody? (h : Head) (preamble epilogue : Option (List Char)) (bodies : List (List Char)) :
    Option (List Char) :=
  match manner h with
  | .status => some ((bodies.map block).intersperse ['\n']).flatten
  | .message => bodies.head?
  | .multipart => do
    let boundary ← ← h.boundary?
    if boundary.isEmpty then none
    else
      let before := (preamble.map fun s => Lines.normal s ++ ['\n']).getD []
      let behind := (epilogue.map Lines.normal).getD []
      return before ++ joinParts boundary bodies ++ behind
  | .plain => none

def leafBody? (h : Head) (text : List Char) : Option (List Char) :=
  match manner h with
  | .status => if text.isEmpty then some [] else none
  | .multipart => some text
  | _ => some (Lines.normal text)

mutual

def render? : Part → Option (List Char)
  | .leaf h text => do
    let body ← leafBody? h text
    return (← renderFields? h.fields) ++ '\n' :: body
  | .compound h preamble epilogue parts => do
    let body ← compoundBody? h preamble epilogue (← renderAll? parts)
    return (← renderFields? h.fields) ++ '\n' :: body

def renderAll? : List Part → Option (List (List Char))
  | [] => some []
  | p :: r => do
    let s ← render? p
    return s :: (← renderAll? r)

end

end Part

end WalletLogin.Mail
