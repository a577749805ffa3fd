/-
  WalletLogin.Proofs.Ledger.Work — how storage work ends: with a value or with an error,
  and in which session.

  `Ends m s ok bad` says that `m`, started in `s`, ends in `ok` or in `bad`. It opens
  along the program (`ends_bind` and its like), and each kind of step has one lemma that
  says everything it can do. `Session.Stands q stored draft pending s` says where a
  session stands, `Session.At q stored draft s` the same with nothing pending, and
  `Session.Over q stored s` only what is stored; the proposition `q` carries that no
  fault is planned, so an error of a step comes with its cause: `¬ q`, or what the step
  found in the tables.

  Proved: the end of every step of `Ledger.Session`. A step that fails leaves what is
  stored as it was (`commit_ends`, `commitWith_ends`), though perhaps with work pending,
  which a rollback drops (`Over.rollback`); looking changes nothing.
-/

import WalletLogin.Ledger.Session

namespace WalletLogin.Ledger

/-! ## Endings -/

section Ends

variable {ε α β : Type} {s : Session}

/-- `m`, started in `s`, ends in `ok` with a value or in `bad` with an error. -/
def Ends (m : ExceptT ε (StateM Session) α) (s : Session) (ok : α → Session → Prop) (bad : ε → Session → Prop) :
    Prop :=
  match m s with
  | (.ok a, s') => ok a s'
  | (.error e, s') => bad e s'

variable {ok ok' : α → Session → Prop} {bad bad' : ε → Session → Prop} {m : ExceptT ε (StateM Session) α}

theorem Ends.mono (h : Ends m s ok bad) (hok : ∀ a s', ok a s' → ok' a s') (hbad : ∀ e s', bad e s' → bad' e s') :
    Ends m s ok' bad' := by
  unfold Ends at h ⊢
  split at h
  · exact hok _ _ h
  · exact hbad _ _ h

theorem Ends.and (h : Ends m s ok bad) (h' : Ends m s ok' bad') :
    Ends m s (fun a s' => ok a s' ∧ ok' a s') (fun e s' => bad e s' ∧ bad' e s') := by
  unfold Ends at h h' ⊢
  split at h
  · rename_i hm
    rw [hm] at h'
    exact ⟨h, h'⟩
  · rename_i hm
    rw [hm] at h'
    exact ⟨h, h'⟩

/-- Every program ends. -/
theorem ends_trivial (m : ExceptT ε (StateM Session) α) (s : Session) : Ends m s (fun _ _ => True) fun _ _ => True := by
  unfold Ends
  split <;> trivial

theorem Ends.of_ok (h : Ends m s ok bad) {a : α} {s' : Session} (hm : m s = (.ok a, s')) : ok a s' := by
  unfold Ends at h
  rwa [hm] at h

theorem Ends.of_error (h : Ends m s ok bad) {e : ε} {s' : Session} (hm : m s = (.error e, s')) : bad e s' := by
  unfold Ends at h
  rwa [hm] at h

@[simp] theorem ends_pure (a : α) : Ends (pure a : ExceptT ε (StateM Session) α) s ok bad ↔ ok a s := Iff.rfl

@[simp] theorem ends_throw (e : ε) : Ends (throw e : ExceptT ε (StateM Session) α) s ok bad ↔ bad e s := Iff.rfl

@[simp] theorem ends_get {ok : Session → Session → Prop} :
    Ends (get : ExceptT ε (StateM Session) Session) s ok bad ↔ ok s s := Iff.rfl

@[simp] theorem ends_set {ok : PUnit → Session → Prop} (x : Session) :
    Ends (set x : ExceptT ε (StateM Session) PUnit) s ok bad ↔ ok ⟨⟩ x := Iff.rfl

@[simp] theorem ends_modify {ok : PUnit → Session → Prop} (f : Session → Session) :
    Ends (modify f : ExceptT ε (StateM Session) PUnit) s ok bad ↔ ok ⟨⟩ (f s) := Iff.rfl

theorem run_bind (m : ExceptT ε (StateM Session) α) (f : α → ExceptT ε (StateM Session) β) (s : Session) :
    (m >>= f) s = match m s with
      | (.ok a, s') => f a s'
      | (.error e, s') => (.error e, s') := by
  show ExceptT.bindCont f (m s).1 (m s).2 = _
  rcases m s with ⟨a | a, s'⟩ <;> rfl

theorem run_map (m : ExceptT ε (StateM Session) α) (f : α → β) (s : Session) :
    (f <$> m) s = match m s with
      | (.ok a, s') => (.ok (f a), s')
      | (.error e, s') => (.error e, s') := by
  show (match (m s).1 with | .ok a => _ | .error e => _ : StateM Session _) (m s).2 = _
  rcases m s with ⟨a | a, s'⟩ <;> rfl

@[simp] theorem ends_bind {f : α → ExceptT ε (StateM Session) β} {ok : β → Session → Prop} :
    Ends (m >>= f) s ok bad ↔ Ends m s (fun a s' => Ends (f a) s' ok bad) bad := by
  unfold Ends
  rw [run_bind]
  rcases m s with ⟨a | a, s'⟩ <;> rfl

@[simp] theorem ends_map {f : α → β} {ok : β → Session → Prop} :
    Ends (f <$> m) s ok bad ↔ Ends m s (fun a s' => ok (f a) s') bad := by
  unfold Ends
  rw [run_map]
  rcases m s with ⟨a | a, s'⟩ <;> rfl

-- otherwise the elaborator runs the program in search of a binder
attribute [irreducible] Ends

end Ends

/-! ## Where a session stands -/

/-- Nothing is planned to fail. -/
structure Faults.Quiet (f : Faults) : Prop where
  plan : ∀ p, ∀ x ∈ f.plan p, x = none
  finds : ∀ l ∈ f.finds, l = .sound
  tables : f.missing = false

/-- No faults at all. -/
theorem Faults.quiet_default : ({} : Faults).Quiet where
  plan p x hx := by cases hx
  finds l hl := by cases hl
  tables := rfl

theorem Faults.next_eq_none {f : Faults} {p : Point} (h : ∀ x ∈ f.plan p, x = none) : f.next p = none := by
  unfold Faults.next
  cases hp : f.plan p with
  | nil => rfl
  | cons x l => simpa using h x (by simp [hp])

theorem Faults.Quiet.next {f : Faults} (h : f.Quiet) (p : Point) : f.next p = none := next_eq_none (h.plan p)

theorem Faults.Quiet.past {f : Faults} (h : f.Quiet) (p : Point) : (f.past p).Quiet where
  plan q x hx := by
    simp only [Faults.past] at hx
    split at hx
    · exact h.plan q x (List.mem_of_mem_tail hx)
    · exact h.plan q x hx
  finds := h.finds
  tables := h.tables

theorem Faults.Quiet.nextFind {f : Faults} (h : f.Quiet) : f.nextFind = .sound := by
  unfold Faults.nextFind
  cases hf : f.finds with
  | nil => rfl
  | cons x l => simpa using h.finds x (by simp [hf])

theorem Faults.Quiet.pastFind {f : Faults} (h : f.Quiet) : f.pastFind.Quiet :=
  ⟨h.plan, fun l hl => h.finds l (List.mem_of_mem_tail hl), h.tables⟩

def Breakdown.IsFault : Breakdown → Prop
  | .fault _ => True
  | _ => False

theorem Breakdown.IsFault.ne_orphan {b : Breakdown} (h : b.IsFault) : b ≠ .orphan := by
  rintro rfl
  exact h

/-- What a session has stored; under `q` nothing is planned to fail. -/
structure Session.Over (q : Prop) (stored : Tables) (s : Session) : Prop where
  stored : s.stored = stored
  quiet : q → s.faults.Quiet

/-- What a session has stored, in its draft, and pending. -/
structure Session.Stands (q : Prop) (stored draft : Tables) (pending : List Work) (s : Session) : Prop extends
    s.Over q stored where
  draft : s.draft = draft
  pending : s.pending = pending

/-- What a session has stored and in its draft, with nothing pending. -/
abbrev Session.At (q : Prop) (stored draft : Tables) (s : Session) : Prop := s.Stands q stored draft []

theorem Session.at_opened (t : Tables) (f : Faults) : (Session.opened t f).At f.Quiet t t := ⟨⟨rfl, id⟩, rfl, rfl⟩

theorem Session.Over.rollback {q : Prop} {t : Tables} {s : Session} (h : s.Over q t) : s.rollback.At q t t :=
  ⟨⟨h.stored, h.quiet⟩, h.stored, rfl⟩

/-- A session has nothing in its draft but what is stored, and nothing pending. -/
structure Session.Idle (t : Tables) (s : Session) : Prop where
  stored : s.stored = t
  draft : s.draft = t
  pending : s.pending = []

theorem Session.idle_opened (t : Tables) (f : Faults) : (Session.opened t f).Idle t := ⟨rfl, rfl, rfl⟩

theorem Session.Idle.at {t : Tables} {s : Session} (h : s.Idle t) : s.At s.faults.Quiet t t :=
  ⟨⟨h.stored, id⟩, h.draft, h.pending⟩

theorem Session.Stands.idle {q : Prop} {t : Tables} {s : Session} (h : s.At q t t) : s.Idle t :=
  ⟨h.stored, h.draft, h.pending⟩

/-! ## Steps -/

namespace Store

@[simp] theorem constrained_eq_ok_iff {o : Option Tables} {t : Tables} : constrained o = .ok t ↔ o = some t := by
  cases o <;> simp [constrained]

@[simp] theorem constrained_eq_error_iff {o : Option Tables} {b : Breakdown} :
    constrained o = .error b ↔ o = none ∧ b = .fault .integrity := by
  cases o <;> simp [constrained, eq_comm]

@[simp] theorem fitting_eq_ok_iff {ns : List Int} {change : Change} {t t' : Tables} :
    fitting ns change t = .ok t' ↔ (∀ n ∈ ns, fits n = true) ∧ change t = .ok t' := by
  rw [← List.all_eq_true, fitting]
  by_cases h : ns.all fits = true
  · simp [h]
  · simp [-List.all_eq_true, h]

@[simp] theorem fitting_eq_error_iff {ns : List Int} {change : Change} {t : Tables} {b : Breakdown} :
    fitting ns change t = .error b ↔
      ¬ (∀ n ∈ ns, fits n = true) ∧ b = .tooWide ∨ (∀ n ∈ ns, fits n = true) ∧ change t = .error b := by
  rw [← List.all_eq_true, fitting]
  by_cases h : ns.all fits = true
  · simp [h]
  · simp [-List.all_eq_true, h, eq_comm]

variable {q : Prop} {t d : Tables} {works : List Work} {s : Session}

theorem meet_ends (h : s.Stands q t d works) (p : Point) :
    Ends (meet p) s (fun _ s' => s'.Stands q t d works) (fun b s' => s'.Stands q t d works ∧ b.IsFault ∧ ¬ q) := by
  have hp : { s with faults := s.faults.past p }.Stands q t d works :=
    ⟨⟨h.stored, fun hq => (h.quiet hq).past p⟩, h.draft, h.pending⟩
  simp only [meet, fail, ends_bind, ends_get, ends_modify]
  cases hn : s.faults.next p with
  | none => exact (ends_pure _).mpr hp
  | some x =>
    refine (ends_throw _).mpr ⟨hp, trivial, fun hq => ?_⟩
    rw [(h.quiet hq).next p] at hn
    cases hn

theorem needTables_ends (h : s.Stands q t d works) :
    Ends needTables s (fun _ s' => s'.Stands q t d works) (fun b s' => s'.Stands q t d works ∧ b.IsFault ∧ ¬ q) := by
  simp only [needTables, fail, ends_bind, ends_get]
  split
  · rename_i hm
    exact (ends_throw _).mpr ⟨h, trivial, fun hq => by rw [(h.quiet hq).tables] at hm; cases hm⟩
  · exact (ends_pure _).mpr h

theorem write_ends (h : s.Stands q t d works) (work : Work) :
    Ends (write work) s (fun _ s' => ∃ d', work.change d = .ok d' ∧ s'.Stands q t d' works)
      (fun b s' => s'.Stands q t d works ∧ (b.IsFault ∧ ¬ q ∨ work.change d = .error b)) := by
  simp only [write, fail, ends_bind, ends_get, ends_modify]
  have hu : { s with drewUser := s.drewUser || work.drawsUser }.Stands q t d works :=
    ⟨⟨h.stored, h.quiet⟩, h.draft, h.pending⟩
  refine (needTables_ends hu).mono (fun _ s' h' => ?_) (fun b s' h' => ⟨h'.1, Or.inl h'.2⟩)
  rw [h'.draft]
  cases hw : work.change d with
  | ok d' => exact (ends_set _).mpr ⟨d', rfl, ⟨h'.stored, h'.quiet⟩, rfl, h'.pending⟩
  | error b => exact (ends_throw _).mpr ⟨h', Or.inr rfl⟩

/-- With nothing pending a flush does nothing. -/
theorem flush_idle_ends (h : s.At q t d) (bad : Breakdown → Session → Prop) :
    Ends flush s (fun _ s' => s'.At q t d) bad := by
  simp only [flush, ends_bind, ends_get]
  rw [h.pending]
  exact (ends_pure _).mpr h

/-- A flush of one piece of work writes it to the draft; a flush that fails stores nothing. -/
theorem flush_ends {work : Work} (h : s.Stands q t d [work]) :
    Ends flush s (fun _ s' => ∃ d', work.change d = .ok d' ∧ s'.At q t d')
      (fun b s' => s'.Over q t ∧ (b.IsFault ∧ ¬ q ∨ work.change d = .error b)) := by
  simp only [flush, ends_bind, ends_get]
  rw [h.pending]
  simp only [writeAll, ends_bind, ends_pure, ends_modify]
  refine (meet_ends h .flush).mono (fun _ s₁ h₁ => ?_) (fun b _ h' => ⟨h'.1.toOver, Or.inl h'.2⟩)
  refine (write_ends h₁ work).mono (fun _ s₂ h₂ => ?_) (fun b _ h' => ⟨h'.1.toOver, h'.2⟩)
  obtain ⟨d', hw, h₂⟩ := h₂
  exact ⟨d', hw, ⟨h₂.stored, h₂.quiet⟩, h₂.draft, rfl⟩

theorem add_ends (h : s.At q t d) (work : Work) (bad : Breakdown → Session → Prop) :
    Ends (add work) s (fun _ s' => s'.Stands q t d [work]) bad :=
  (ends_modify _).mpr ⟨⟨h.stored, h.quiet⟩, h.draft, by rw [h.pending]; rfl⟩

/-- A commit stores the draft, or fails and stores nothing. -/
theorem commit_ends (h : s.At q t d) :
    Ends commit s (fun _ s' => s'.At q d d) (fun b s' => s'.At q t d ∧ b.IsFault ∧ ¬ q) := by
  simp only [commit, ends_bind, ends_modify]
  refine (meet_ends h .commit).mono (fun _ s₁ h₁ => ?_) (fun _ _ h' => h')
  refine (flush_idle_ends h₁ _).mono (fun _ s₂ h₂ => ?_) (fun _ _ h' => h')
  exact (meet_ends h₂ .seal).mono (fun _ s₃ h₃ => ⟨⟨h₃.draft, h₃.quiet⟩, h₃.draft, h₃.pending⟩) (fun _ _ h' => h')

/-- A commit of one more change stores what it makes of the draft, or nothing. -/
theorem commitWith_ends (h : s.At q t d) (change : Change) :
    Ends (commitWith change) s (fun _ s' => ∃ d', change d = .ok d' ∧ s'.At q d' d')
      (fun b s' => s'.Over q t ∧ (b.IsFault ∧ ¬ q ∨ change d = .error b)) := by
  simp only [commitWith, commit, ends_bind, ends_modify]
  refine (add_ends h _ _).mono (fun _ s₁ h₁ => ?_) (fun _ _ h' => h')
  refine (meet_ends h₁ .commit).mono (fun _ s₂ h₂ => ?_) (fun b _ h' => ⟨h'.1.toOver, Or.inl h'.2⟩)
  refine (flush_ends h₂).mono (fun _ s₃ h₃ => ?_) (fun _ _ h' => h')
  obtain ⟨d', hc, h₃⟩ := h₃
  exact (meet_ends h₃ .seal).mono (fun _ s₄ h₄ => ⟨d', hc, ⟨h₄.draft, h₄.quiet⟩, h₄.draft, h₄.pending⟩)
    (fun b _ h' => ⟨h'.1.toOver, Or.inl h'.2⟩)

/-- What an idle session commits is what it had stored. -/
theorem commit_idle (h : s.Idle t) {s' : Session} (hc : commit s = (.ok (), s')) : s'.stored = t :=
  ((commit_ends h.at).of_ok hc).stored

/-- What an idle session commits with one more change is that change alone. -/
theorem commitWith_idle (h : s.Idle t) {change : Change} {s' : Session} (hc : commitWith change s = (.ok (), s')) :
    change t = .ok s'.stored := by
  obtain ⟨d, hd, h'⟩ := (commitWith_ends h.at change).of_ok hc
  rw [hd, h'.stored]

/-- A look-up finds the owner's wallet; it can miss it only where that is planned. -/
theorem findWallet_ends (h : s.At q t d) (o : Option Owner) :
    Ends (findWallet o) s
      (fun w s' => s'.At q t d ∧ match w with
        | some w => ∃ o', o = some o' ∧ d.findWallet? o' = some w
        | none => ¬ q ∨ ∀ o', o = some o' → d.findWallet? o' = none)
      (fun b s' => s'.At q t d ∧ b.IsFault ∧ ¬ q) := by
  have hp : { s with faults := s.faults.pastFind }.At q t d :=
    ⟨⟨h.stored, fun hq => (h.quiet hq).pastFind⟩, h.draft, h.pending⟩
  simp only [findWallet, fail, ends_bind, ends_get, ends_modify]
  cases hn : s.faults.nextFind with
  | sound =>
    simp only [ends_bind, ends_get, ends_pure]
    refine (needTables_ends hp).mono (fun _ s' h' => ⟨h', ?_⟩) (fun _ _ h' => h')
    rw [h'.draft]
    cases hw : o.bind d.findWallet? with
    | some w => exact Option.bind_eq_some_iff.mp hw
    | none => exact Or.inr (Option.bind_eq_none_iff.mp hw)
  | stale => exact (ends_pure _).mpr ⟨hp, Or.inl fun hq => by rw [(h.quiet hq).nextFind] at hn; cases hn⟩
  | fails x => exact (ends_throw _).mpr ⟨hp, trivial, fun hq => by rw [(h.quiet hq).nextFind] at hn; cases hn⟩

theorem loadUser_ends (h : s.At q t d) (w : WalletRow) :
    Ends (loadUser w) s (fun u s' => s'.At q t d ∧ d.findUser? w.userId = some u)
      (fun b s' => s'.At q t d ∧ (b.IsFault ∧ ¬ q ∨ d.findUser? w.userId = none)) := by
  simp only [loadUser, fail, ends_bind, ends_get]
  refine (meet_ends h .load).mono (fun _ s₁ h₁ => ?_) (fun b _ h' => ⟨h'.1, Or.inl h'.2⟩)
  refine (needTables_ends h₁).mono (fun _ s₂ h₂ => ?_) (fun b _ h' => ⟨h'.1, Or.inl h'.2⟩)
  rw [h₂.draft]
  cases hu : d.findUser? w.userId with
  | some u => exact (ends_pure _).mpr ⟨h₂, rfl⟩
  | none => exact (ends_throw _).mpr ⟨h₂, Or.inr rfl⟩

theorem reload_ends {α : Type} (h : s.At q t d) (row : Tables → Option α) :
    Ends (reload row) s (fun a s' => s'.At q t d ∧ row d = some a)
      (fun b s' => s'.At q t d ∧ b.IsFault ∧ (¬ q ∨ row d = none)) := by
  simp only [reload, fail, ends_bind, ends_get]
  refine (meet_ends h .reload).mono (fun _ s₁ h₁ => ?_) (fun b _ h' => ⟨h'.1, h'.2.1, Or.inl h'.2.2⟩)
  refine (needTables_ends h₁).mono (fun _ s₂ h₂ => ?_) (fun b _ h' => ⟨h'.1, h'.2.1, Or.inl h'.2.2⟩)
  rw [h₂.draft]
  cases hr : row d with
  | some a => exact (ends_pure _).mpr ⟨h₂, rfl⟩
  | none => exact (ends_throw _).mpr ⟨h₂, trivial, Or.inr rfl⟩

theorem query_ends {α : Type} (h : s.At q t d) (rows : Tables → α) :
    Ends (query rows) s (fun a s' => s'.At q t d ∧ a = rows d) (fun b s' => s'.At q t d ∧ b.IsFault ∧ ¬ q) := by
  simp only [query, ends_bind, ends_get, ends_pure]
  refine (meet_ends h .query).mono (fun _ s₁ h₁ => ?_) (fun b _ h' => h')
  refine (needTables_ends h₁).mono (fun _ s₂ h₂ => ⟨h₂, ?_⟩) (fun b _ h' => h')
  rw [h₂.draft]

end Store

end WalletLogin.Ledger
