/-
  WalletLogin.Proofs.Ledger.Plan — the plan of faults along storage work.

  A step takes the faults that it meets off the plan and plans none, so what is known of
  the plan at the start of a piece of work is known at each of its steps (`Spends`). And
  where one operational fault is planned (`Awaits`), work has met it only if it failed with
  it (`Surfaces`). Both close under sequence, and each kind of step has one lemma.

  Proved:
  - `loadUser_there`, `flush_there`: what works only where the tables are there.
  - `reload_there`: a row that is there is read again, unless that is planned to fail.
  - `surfaces_findWallet` and its like: the one planned fault is not swallowed.
-/

import WalletLogin.Proofs.Ledger.Work

namespace WalletLogin.Ledger

/-! ## Plans -/

/-- What steps have left of a plan. -/
structure Faults.Left (f f' : Faults) : Prop where
  missing : f'.missing = f.missing
  plan : ∀ p, ∀ x ∈ f'.plan p, x ∈ f.plan p

theorem Faults.Left.refl (f : Faults) : f.Left f := ⟨rfl, fun _ _ hx => hx⟩

theorem Faults.Left.trans {f g h : Faults} (hf : f.Left g) (hg : g.Left h) : f.Left h :=
  ⟨hg.missing.trans hf.missing, fun p x hx => hf.plan p x (hg.plan p x hx)⟩

theorem Faults.left_past (f : Faults) (p : Point) : f.Left (f.past p) where
  missing := rfl
  plan q x hx := by
    simp only [past] at hx
    split at hx
    · exact List.mem_of_mem_tail hx
    · exact hx

/-- No reading again of a row is planned to fail. -/
def Faults.Rereads (f : Faults) : Prop := ∀ x ∈ f.plan .reload, x = none

theorem Faults.Left.rereads {f f' : Faults} (h : f.Left f') (hr : f.Rereads) : f'.Rereads :=
  fun x hx => hr x (h.plan .reload x hx)

/-- The program meets planned faults and plans none. -/
def Spends {ε α : Type} (m : ExceptT ε (StateM Session) α) : Prop :=
  ∀ s, Ends m s (fun _ s' => s.faults.Left s'.faults) (fun _ s' => s.faults.Left s'.faults)

section Spends

variable {ε α β : Type}

theorem spends_pure (a : α) : Spends (pure a : ExceptT ε (StateM Session) α) := fun s =>
  (ends_pure a).mpr (.refl s.faults)

theorem spends_throw (e : ε) : Spends (throw e : ExceptT ε (StateM Session) α) := fun s =>
  (ends_throw e).mpr (.refl s.faults)

theorem spends_modify {f : Session → Session} (h : ∀ s, (f s).faults = s.faults) :
    Spends (modify f : ExceptT ε (StateM Session) PUnit) := fun s => by
  rw [ends_modify, h]
  exact .refl s.faults

theorem Spends.bind {m : ExceptT ε (StateM Session) α} {f : α → ExceptT ε (StateM Session) β} (hm : Spends m)
    (hf : ∀ a, Spends (f a)) : Spends (m >>= f) := fun s =>
  ends_bind.mpr ((hm s).mono (fun a s' h => (hf a s').mono (fun _ _ h' => h.trans h') fun _ _ h' => h.trans h')
    fun _ _ h => h)

/-- What the session holds decides how the program goes on. -/
theorem spends_get {f : Session → ExceptT ε (StateM Session) α} (hf : ∀ s, Spends (f s)) : Spends (get >>= f) := fun s =>
  ends_bind.mpr (ends_get.mpr (hf s s))

end Spends

namespace Store

theorem spends_meet (p : Point) : Spends (meet p) := fun s => by
  simp only [meet, fail, ends_bind, ends_get, ends_modify]
  cases s.faults.next p with
  | none => exact (ends_pure _).mpr (s.faults.left_past p)
  | some x => exact (ends_throw _).mpr (s.faults.left_past p)

theorem spends_needTables : Spends needTables :=
  spends_get fun s => by
    split
    · exact spends_throw _
    · exact spends_pure _

theorem spends_write (work : Work) : Spends (write work) := by
  refine .bind (spends_modify fun _ => rfl) fun _ => .bind spends_needTables fun _ => fun s => ?_
  rw [ends_bind, ends_get]
  cases work.change s.draft with
  | ok t => exact (ends_set _).mpr (.refl s.faults)
  | error b => exact spends_throw b s

theorem spends_writeAll (works : List Work) : Spends (writeAll works) := by
  induction works with
  | nil => exact spends_pure _
  | cons work rest ih => exact (spends_write work).bind fun _ => ih

theorem spends_flush : Spends flush :=
  spends_get fun s => by
    cases s.pending with
    | nil => exact spends_pure _
    | cons work rest =>
      exact (spends_meet _).bind fun _ => (spends_writeAll _).bind fun _ => spends_modify fun _ => rfl

theorem spends_add (work : Work) : Spends (add work) := spends_modify fun _ => rfl

theorem spends_commit : Spends commit :=
  (spends_meet _).bind fun _ => spends_flush.bind fun _ => (spends_meet _).bind fun _ => spends_modify fun _ => rfl

theorem spends_commitWith (change : Change) : Spends (commitWith change) := (spends_add _).bind fun _ => spends_commit

theorem spends_loadUser (w : WalletRow) : Spends (loadUser w) :=
  (spends_meet _).bind fun _ => spends_needTables.bind fun _ => spends_get fun s => by
    cases s.draft.findUser? w.userId with
    | some u => exact spends_pure u
    | none => exact spends_throw _

theorem spends_reload {α : Type} (row : Tables → Option α) : Spends (reload row) :=
  (spends_meet _).bind fun _ => spends_needTables.bind fun _ => spends_get fun s => by
    cases row s.draft with
    | some a => exact spends_pure a
    | none => exact spends_throw _

theorem spends_findWallet (o : Option Owner) : Spends (findWallet o) := fun s => by
  simp only [findWallet, ends_bind, ends_get, ends_modify]
  have hleft : s.faults.Left s.faults.pastFind := ⟨rfl, fun _ _ hx => hx⟩
  cases s.faults.nextFind with
  | sound =>
    simp only [ends_bind, ends_get, ends_pure]
    exact (spends_needTables _).mono (fun _ _ h => hleft.trans h) (fun _ _ h => hleft.trans h)
  | stale => exact (ends_pure _).mpr hleft
  | fails x => exact (ends_throw _).mpr hleft

/-! ## Rows that are there -/

variable {q : Prop} {t d : Tables} {s : Session}

theorem needTables_there (s : Session) :
    Ends needTables s (fun _ _ => s.faults.missing = false) (fun _ _ => True) := by
  simp only [needTables, fail, ends_bind, ends_get]
  split
  · exact (ends_throw _).mpr trivial
  · rename_i hm
    exact (ends_pure _).mpr (by simpa using hm)

/-- A user is loaded only where the tables are there. -/
theorem loadUser_there (w : WalletRow) (s : Session) :
    Ends (loadUser w) s (fun _ _ => s.faults.missing = false) (fun _ _ => True) := by
  simp only [loadUser, ends_bind, ends_get]
  refine (spends_meet .load s).mono (fun _ s₁ h₁ => ?_) (fun _ _ _ => trivial)
  refine (needTables_there s₁).mono (fun _ s₂ hm => ?_) (fun _ _ _ => trivial)
  exact (ends_trivial _ s₂).mono (fun _ _ _ => h₁.missing.symm.trans hm) (fun _ _ _ => trivial)

/-- Work is written only where the tables are there. -/
theorem flush_there {work : Work} (h : s.Stands q t d [work]) :
    Ends flush s (fun _ _ => s.faults.missing = false) (fun _ _ => True) := by
  simp only [flush, ends_bind, ends_get]
  rw [h.pending]
  simp only [writeAll, write, ends_bind, ends_pure, ends_modify]
  refine (spends_meet .flush s).mono (fun _ s₁ h₁ => ?_) (fun _ _ _ => trivial)
  refine (needTables_there _).mono (fun _ s₂ hm => ?_) (fun _ _ _ => trivial)
  refine (ends_trivial _ s₂).mono (fun _ s₃ _ => ?_) (fun _ _ _ => trivial)
  exact (ends_trivial _ s₃).mono (fun _ _ _ => h₁.missing.symm.trans hm) (fun _ _ _ => trivial)

/-- A row that is there is read again, unless that is planned to fail. -/
theorem reload_there {α : Type} (h : s.At q t d) (hm : s.faults.missing = false) (hr : s.faults.Rereads)
    {row : Tables → Option α} {a : α} (hrow : row d = some a) :
    Ends (reload row) s (fun _ s' => s'.At False t d ∧ s'.faults.missing = false ∧ s'.faults.Rereads)
      (fun _ _ => False) := by
  have hm' : (s.faults.past .reload).missing = false := hm
  simp only [reload, meet, needTables, fail, ends_bind, ends_get, ends_modify, Faults.next_eq_none hr, ends_pure, hm',
    Bool.false_eq_true, if_false, h.draft, hrow]
  exact ⟨⟨⟨h.stored, False.elim⟩, rfl, h.pending⟩, trivial, (s.faults.left_past .reload).rereads hr⟩

end Store

/-! ## One fault -/

/-- Where a fault can be planned. -/
inductive Place where
  | step (p : Point)
  | lookup
  deriving DecidableEq, Repr

/-- One operational fault is planned, and it is planned there. -/
structure Faults.Awaits (f : Faults) (x : Place) : Prop where
  plan : ∀ p, if x = .step p then ∃ n, f.plan p = List.replicate n none ++ [some .operational]
    else ∀ y ∈ f.plan p, y = none
  finds : if x = .lookup then ∃ n, f.finds = List.replicate n .sound ++ [.fails .operational]
    else ∀ l ∈ f.finds, l = .sound
  tables : f.missing = false

section Awaits

variable {f : Faults} {x : Place} {p : Point}

theorem Faults.Awaits.next_of_ne (h : f.Awaits x) (hx : x ≠ .step p) : f.next p = none := by
  have hp := h.plan p
  rw [if_neg hx] at hp
  exact Faults.next_eq_none hp

/-- The plan of a kind of step, with the fault next or later. -/
theorem Faults.Awaits.next (h : f.Awaits x) : f.next p = some .operational ∨ f.next p = none ∧ (f.past p).Awaits x := by
  by_cases hx : x = .step p
  · subst hx
    have hp := h.plan p
    rw [if_pos rfl] at hp
    obtain ⟨n, hn⟩ := hp
    cases n with
    | zero =>
      left
      rw [Faults.next, hn]
      rfl
    | succ n =>
      right
      refine ⟨by rw [Faults.next, hn]; rfl, fun q => ?_, h.finds, h.tables⟩
      by_cases hq : q = p
      · subst hq
        rw [if_pos rfl]
        refine ⟨n, ?_⟩
        rw [Faults.past]
        simp only [if_true, hn]
        rfl
      · have hplan := h.plan q
        rw [if_neg fun he => hq (Place.step.inj he).symm] at hplan ⊢
        intro y hy
        rw [Faults.past] at hy
        simp only [hq, if_false] at hy
        exact hplan y hy
  · right
    refine ⟨h.next_of_ne hx, fun q => ?_, h.finds, h.tables⟩
    have hplan := h.plan q
    by_cases hq : q = p
    · subst hq
      rw [if_neg hx] at hplan ⊢
      intro y hy
      rw [Faults.past] at hy
      simp only [if_true] at hy
      exact hplan y (List.mem_of_mem_tail hy)
    · have hsame : (f.past p).plan q = f.plan q := by simp [Faults.past, hq]
      rw [hsame]
      exact hplan

theorem Faults.Awaits.nextFind (h : f.Awaits x) :
    f.nextFind = .fails .operational ∨ f.nextFind = .sound ∧ f.pastFind.Awaits x := by
  have hf := h.finds
  split at hf
  · rename_i hx
    obtain ⟨n, hn⟩ := hf
    cases n with
    | zero =>
      left
      rw [Faults.nextFind, hn]
      rfl
    | succ n =>
      right
      refine ⟨by rw [Faults.nextFind, hn]; rfl, h.plan, ?_, h.tables⟩
      rw [if_pos hx]
      refine ⟨n, ?_⟩
      rw [Faults.pastFind, hn]
      rfl
  · rename_i hx
    right
    refine ⟨?_, h.plan, ?_, h.tables⟩
    · cases hl : f.finds with
      | nil => rw [Faults.nextFind, hl]; rfl
      | cons l r => rw [Faults.nextFind, hl]; exact hf l (by rw [hl]; exact List.mem_cons_self)
    · rw [if_neg hx]
      exact fun l hl => hf l (List.mem_of_mem_tail hl)

end Awaits

/-- The fault is planned still, or the program has met it and failed as `target` says. -/
def Surfaces {ε α : Type} (x : Place) (target : ε → Prop) (m : ExceptT ε (StateM Session) α) : Prop :=
  ∀ s, s.faults.Awaits x → Ends m s (fun _ s' => s'.faults.Awaits x) (fun e s' => s'.faults.Awaits x ∨ target e)

section Surfaces

variable {ε α β : Type} {x : Place} {target : ε → Prop}

theorem surfaces_pure (a : α) : Surfaces x target (pure a : ExceptT ε (StateM Session) α) := fun _ h => (ends_pure a).mpr h

theorem surfaces_throw (e : ε) : Surfaces x target (throw e : ExceptT ε (StateM Session) α) := fun _ h =>
  (ends_throw e).mpr (Or.inl h)

theorem surfaces_modify {f : Session → Session} (hf : ∀ s, (f s).faults = s.faults) :
    Surfaces x target (modify f : ExceptT ε (StateM Session) PUnit) := fun s h => by
  rw [ends_modify, hf]
  exact h

theorem Surfaces.bind {m : ExceptT ε (StateM Session) α} {f : α → ExceptT ε (StateM Session) β} (hm : Surfaces x target m)
    (hf : ∀ a, Surfaces x target (f a)) : Surfaces x target (m >>= f) := fun s h =>
  ends_bind.mpr ((hm s h).mono (fun a s' h' => hf a s' h') fun _ _ h' => h')

theorem Surfaces.map {m : ExceptT ε (StateM Session) α} (hm : Surfaces x target m) (f : α → β) :
    Surfaces x target (f <$> m) := fun s h => ends_map.mpr (hm s h)

theorem surfaces_get {f : Session → ExceptT ε (StateM Session) α} (hf : ∀ s, Surfaces x target (f s)) :
    Surfaces x target (get >>= f) := fun s h => ends_bind.mpr (ends_get.mpr (hf s s h))

theorem Surfaces.mono {m : ExceptT ε (StateM Session) α} {target' : ε → Prop} (hm : Surfaces x target m)
    (ht : ∀ e, target e → target' e) : Surfaces x target' m := fun s h =>
  (hm s h).mono (fun _ _ h' => h') fun e _ h' => h'.imp_right (ht e)

end Surfaces

namespace Store

variable {x : Place}

/-- The breakdown that the planned fault is. -/
abbrev Struck (b : Breakdown) : Prop := b = .fault .operational

theorem surfaces_meet (p : Point) : Surfaces x Struck (meet p) := fun s h => by
  simp only [meet, fail, ends_bind, ends_get, ends_modify]
  rcases h.next (p := p) with hn | ⟨hn, h'⟩
  · rw [hn]
    exact (ends_throw _).mpr (Or.inr rfl)
  · rw [hn]
    exact (ends_pure _).mpr h'

theorem surfaces_needTables : Surfaces x Struck needTables := fun s h => by
  simp only [needTables, ends_bind, ends_get, h.tables, Bool.false_eq_true, if_false, ends_pure]
  exact h

theorem surfaces_write (work : Work) : Surfaces x Struck (write work) := by
  refine .bind (surfaces_modify fun _ => rfl) fun _ => .bind surfaces_needTables fun _ => fun s h => ?_
  rw [ends_bind, ends_get]
  cases work.change s.draft with
  | ok t => exact (ends_set _).mpr h
  | error b => exact surfaces_throw b s h

theorem surfaces_writeAll (works : List Work) : Surfaces x Struck (writeAll works) := by
  induction works with
  | nil => exact surfaces_pure _
  | cons work rest ih => exact (surfaces_write work).bind fun _ => ih

theorem surfaces_flush : Surfaces x Struck flush :=
  surfaces_get fun s => by
    cases s.pending with
    | nil => exact surfaces_pure _
    | cons work rest =>
      exact (surfaces_meet _).bind fun _ => (surfaces_writeAll _).bind fun _ => surfaces_modify fun _ => rfl

theorem surfaces_add (work : Work) : Surfaces x Struck (add work) := surfaces_modify fun _ => rfl

theorem surfaces_commit : Surfaces x Struck commit :=
  (surfaces_meet _).bind fun _ => surfaces_flush.bind fun _ => (surfaces_meet _).bind fun _ => surfaces_modify fun _ => rfl

theorem surfaces_commitWith (change : Change) : Surfaces x Struck (commitWith change) :=
  (surfaces_add _).bind fun _ => surfaces_commit

theorem surfaces_loadUser (w : WalletRow) : Surfaces x Struck (loadUser w) :=
  (surfaces_meet _).bind fun _ => surfaces_needTables.bind fun _ => surfaces_get fun s => by
    cases s.draft.findUser? w.userId with
    | some u => exact surfaces_pure u
    | none => exact surfaces_throw _

theorem surfaces_reload {α : Type} (row : Tables → Option α) : Surfaces x Struck (reload row) :=
  (surfaces_meet _).bind fun _ => surfaces_needTables.bind fun _ => surfaces_get fun s => by
    cases row s.draft with
    | some a => exact surfaces_pure a
    | none => exact surfaces_throw _

theorem surfaces_query {α : Type} (rows : Tables → α) : Surfaces x Struck (query rows) :=
  (surfaces_meet _).bind fun _ => surfaces_needTables.bind fun _ => surfaces_get fun _ => surfaces_pure _

theorem surfaces_findWallet (o : Option Owner) : Surfaces x Struck (findWallet o) := fun s h => by
  simp only [findWallet, ends_bind, ends_get, ends_modify]
  rcases h.nextFind with hn | ⟨hn, h'⟩
  · rw [hn]
    exact (ends_throw _).mpr (Or.inr rfl)
  · rw [hn]
    simp only [ends_bind, ends_get, ends_pure]
    exact surfaces_needTables _ h'

end Store

end WalletLogin.Ledger
