/-
  WalletLogin.Proofs.Encoding.Cbor.Leaves — items that hold no others, told by their
  first byte.

  A head of the major types of numbers, strings and simple values starts an item that is
  no container, no tag and no reference. `Returns m p` says that `p` holds of whatever the
  reader `m` returns, in any state.

  Proved:
  - `isLeaf_of_read?`: an item that starts with such a head is a leaf.
-/

import WalletLogin.Proofs.Encoding.Cbor.RoundTrip

namespace WalletLogin.Encoding.Cbor

/-- Whether an item has no items in it and does not stand for another. -/
def isLeaf : Cbor → Bool
  | .array .. => false
  | .stream _ => false
  | .map .. => false
  | .tag .. => false
  | .held _ => false
  | _ => true

theorem substitute_of_isLeaf {x : Cbor} (h : isLeaf x = true) (find : Nat → Option Cbor) : substitute find x = some x := by
  cases x <;> first | rfl | cases h

/-- Nothing of a leaf is settled. -/
theorem settle?_of_isLeaf {x : Cbor} (h : isLeaf x = true) (containers : List (Nat × Cbor)) :
    settle? containers x = some x := by
  unfold settle?
  cases containers.length with
  | zero => exact substitute_of_isLeaf h _
  | succ n => exact substitute_of_isLeaf h _

theorem isLeaf_placed {x : Cbor} (h : isLeaf x = true) (start : Nat) : isLeaf (placed start x) = true := by
  unfold placed
  split
  · rfl
  · exact h

namespace Reader

/-- Whatever the reader returns, in any state, has the property. -/
def Returns {α : Type} (m : Reader α) (p : α → Prop) : Prop := ∀ s a s', m s = some (a, s') → p a

section Returns

variable {α β : Type} {m : Reader α} {f : α → Reader β} {p : α → Prop} {q : β → Prop}

theorem Returns.pure {a : α} (h : p a) : Returns (Pure.pure a : Reader α) p := by
  rintro s b s' hs
  cases hs
  exact h

theorem Returns.failure : Returns (failure : Reader α) p := by
  rintro s a s' hs
  cases hs

theorem Returns.bind (h : Returns m p) (h' : ∀ a, p a → Returns (f a) q) : Returns (m >>= f) q := by
  rintro s c s' hs
  obtain ⟨⟨a, s₁⟩, hm, hf⟩ := Option.bind_eq_some_iff.mp (show Option.bind (m s) (fun r => f r.1 r.2) = _ from hs)
  exact h' a (h s a s₁ hm) s₁ c s' hf

theorem Returns.any (m : Reader α) : Returns m fun _ => True := fun _ _ _ _ => trivial

/-- Whatever comes first, what comes last decides. -/
theorem Returns.last (h : ∀ a, Returns (f a) q) : Returns (m >>= f) q := (Returns.any m).bind fun a _ => h a

end Returns

variable {at_ : Position} {x : Cbor} {p : Cbor → Prop}

theorem share_returns (h : p x) : Returns (share at_ x) p := by
  unfold share
  split
  · exact Returns.last fun _ => Returns.pure h
  · exact Returns.pure h

theorem enumerate_returns (length : Nat) (h : p x) : Returns (enumerate length x) p :=
  Returns.last fun _ => Returns.pure h

theorem byteString_returns (info : Nat) : Returns (byteString info) fun x => isLeaf x = true := by
  unfold byteString
  refine Returns.last fun size => ?_
  split
  · exact Returns.last fun b => enumerate_returns _ rfl
  · exact Returns.last fun b => Returns.pure rfl

theorem textString_returns (info : Nat) : Returns (textString info) fun x => isLeaf x = true := by
  unfold textString
  refine Returns.last fun size => ?_
  split
  · exact Returns.last fun b => Returns.last fun s => enumerate_returns _ rfl
  · exact Returns.last fun bs => Returns.last fun ss => Returns.pure rfl

theorem float_returns (start e m : Nat) : Returns (float at_ start e m) fun x => isLeaf x = true :=
  Returns.last fun _ => share_returns (isLeaf_placed rfl start)

theorem other_returns (start info : Nat) : Returns (other at_ start info) fun x => isLeaf x = true := by
  unfold other
  split
  case h_5 =>
    refine Returns.last fun n => ?_
    split
    · exact Returns.failure
    · exact Returns.pure rfl
  case h_6 => exact float_returns start 5 10
  case h_7 => exact float_returns start 8 23
  case h_8 => exact float_returns start 11 52
  case h_10 =>
    split
    · exact Returns.pure rfl
    · exact Returns.failure
  all_goals exact Returns.pure rfl

/-- Behind a head of these major types stands a leaf. -/
theorem content_returns {major : Nat} (hm : major < 4 ∨ major = 7) (depth start info : Nat) :
    Returns (content depth at_ start major info) fun x => isLeaf x = true := by
  unfold content
  split
  case h_1 => exact Returns.last fun n => share_returns rfl
  case h_2 => exact Returns.last fun n => share_returns rfl
  case h_3 => exact (byteString_returns info).bind fun x hx => share_returns hx
  case h_4 => exact (textString_returns info).bind fun x hx => share_returns hx
  case h_5 => omega
  case h_6 => omega
  case h_7 => omega
  case h_8 => exact other_returns start info

end Reader

/-- An item that starts with a head of these major types is a leaf. -/
theorem isLeaf_of_read? {h : UInt8} {r rest : Bytes} {x : Cbor} (hm : h.toNat / 32 < 4 ∨ h.toNat / 32 = 7)
    (hx : read? (h :: r) = some (x, rest)) : isLeaf x = true := by
  unfold read? at hx
  obtain ⟨⟨y, s⟩, hrun, hsettled⟩ := Option.bind_eq_some_iff.mp hx
  have hleaf : isLeaf y = true := Reader.content_returns hm _ _ _ _ y s hrun
  simp only [settle?_of_isLeaf hleaf, Option.bind_eq_bind, Option.bind_some, Option.pure_def, Option.some.injEq,
    Prod.mk.injEq] at hsettled
  exact hsettled.1 ▸ hleaf

end WalletLogin.Encoding.Cbor
