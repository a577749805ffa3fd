/-
  WalletLogin.Proofs.Ledger.Health — storage work that meets no fault.

  With nothing planned to fail, work that starts with nothing in its draft is a function
  of the stored tables. `Yields m t r t'` says which value or error `m` comes to on the
  tables `t`, and which tables it leaves. After a value the draft is what is stored
  again, so that the next piece of work starts as the first one did (`Yields.bind`).

  Proved: what each step yields, by what it finds in the tables.
-/

import WalletLogin.Proofs.Ledger.Work

namespace WalletLogin.Ledger

/-- Where nothing is planned to fail, `m` comes to `r` on the tables `t` and leaves `t'`. -/
def Yields {ε α : Type} (m : ExceptT ε (StateM Session) α) (t : Tables) (r : Except ε α) (t' : Tables) : Prop :=
  ∀ s : Session, s.At True t t →
    Ends m s (fun a s' => r = .ok a ∧ s'.At True t' t') (fun e s' => r = .error e ∧ s'.Over True t')

theorem Session.at_opened_quiet (t : Tables) {f : Faults} (hf : f.Quiet) : (Session.opened t f).At True t t :=
  ⟨⟨rfl, fun _ => hf⟩, rfl, rfl⟩

section Yields

variable {ε α β : Type} {m : ExceptT ε (StateM Session) α} {t t₁ t' : Tables}

theorem yields_pure (a : α) (t : Tables) : Yields (pure a : ExceptT ε (StateM Session) α) t (.ok a) t := fun _ h =>
  (ends_pure a).mpr ⟨rfl, h⟩

theorem yields_throw (e : ε) (t : Tables) : Yields (throw e : ExceptT ε (StateM Session) α) t (.error e) t := fun _ h =>
  (ends_throw e).mpr ⟨rfl, h.toOver⟩

theorem Yields.ends_ok {a : α} (hm : Yields m t (.ok a) t') {s : Session} (h : s.At True t t) :
    Ends m s (fun a' s' => a' = a ∧ s'.At True t' t') fun _ _ => False := by
  refine (hm s h).mono (fun a' s' h' => ?_) fun e s' h' => ?_
  · obtain ⟨heq, h'⟩ := h'
    cases heq
    exact ⟨rfl, h'⟩
  · cases h'.1

theorem Yields.ends_error {e : ε} (hm : Yields m t (.error e) t') {s : Session} (h : s.At True t t) :
    Ends m s (fun _ _ => False) fun e' s' => e' = e ∧ s'.Over True t' := by
  refine (hm s h).mono (fun a s' h' => ?_) fun e' s' h' => ?_
  · cases h'.1
  · obtain ⟨heq, h'⟩ := h'
    cases heq
    exact ⟨rfl, h'⟩

theorem Yields.bind {f : α → ExceptT ε (StateM Session) β} {a : α} {r : Except ε β} (hm : Yields m t (.ok a) t₁)
    (hf : Yields (f a) t₁ r t') : Yields (m >>= f) t r t' := fun s h => by
  refine ends_bind.mpr ((hm.ends_ok h).mono (fun a' s' h' => ?_) fun _ _ => False.elim)
  obtain ⟨rfl, h'⟩ := h'
  exact hf s' h'

theorem Yields.bind_error {e : ε} (hm : Yields m t (.error e) t') (f : α → ExceptT ε (StateM Session) β) :
    Yields (m >>= f) t (.error e) t' := fun s h => by
  refine ends_bind.mpr ((hm.ends_error h).mono (fun _ _ => False.elim) fun e' s' h' => ?_)
  obtain ⟨rfl, h'⟩ := h'
  exact ⟨rfl, h'⟩

theorem Yields.map {r : Except ε α} (hm : Yields m t r t') (f : α → β) : Yields (f <$> m) t (r.map f) t' := fun s h => by
  refine ends_map.mpr ((hm s h).mono (fun a s' h' => ?_) fun e s' h' => ?_)
  · obtain ⟨rfl, h'⟩ := h'
    exact ⟨rfl, h'⟩
  · obtain ⟨rfl, h'⟩ := h'
    exact ⟨rfl, h'⟩

end Yields

namespace Store

variable {t t' d d' : Tables} {s : Session}

/-- A flush of one piece of work, where nothing is planned to fail. -/
theorem flush_sound {work : Work} (h : s.Stands True t d [work]) :
    Ends flush s (fun _ s' => ∃ d', work.change d = .ok d' ∧ s'.At True t d')
      (fun b s' => work.change d = .error b ∧ s'.Over True t) :=
  (flush_ends h).mono (fun _ _ h' => h') fun _ _ h' => ⟨h'.2.resolve_left fun hf => hf.2 trivial, h'.1⟩

/-- A commit of one more change, where nothing is planned to fail. -/
theorem commitWith_sound (h : s.At True t d) (change : Change) :
    Ends (commitWith change) s (fun _ s' => ∃ d', change d = .ok d' ∧ s'.At True d' d')
      (fun b s' => change d = .error b ∧ s'.Over True t) :=
  (commitWith_ends h change).mono (fun _ _ h' => h') fun _ _ h' => ⟨h'.2.resolve_left fun hf => hf.2 trivial, h'.1⟩

theorem yields_commitWith {change : Change} (hc : change t = .ok t') : Yields (commitWith change) t (.ok ()) t' :=
  fun s h => by
    refine (commitWith_sound h change).mono (fun _ s' h' => ?_) fun b s' h' => ?_
    · obtain ⟨d, hd, h'⟩ := h'
      cases hc.symm.trans hd
      exact ⟨rfl, h'⟩
    · cases hc.symm.trans h'.1

theorem yields_commitWith_error {change : Change} {b : Breakdown} (hc : change t = .error b) :
    Yields (commitWith change) t (.error b) t := fun s h => by
  refine (commitWith_sound h change).mono (fun _ s' h' => ?_) fun b' s' h' => ?_
  · obtain ⟨d, hd, -⟩ := h'
    cases hc.symm.trans hd
  · cases hc.symm.trans h'.1
    exact ⟨rfl, h'.2⟩

theorem yields_findWallet (o : Option Owner) (t : Tables) : Yields (findWallet o) t (.ok (o.bind t.findWallet?)) t :=
  fun s h => by
    refine (findWallet_ends h o).mono (fun w s' h' => ⟨?_, h'.1⟩) fun b s' h' => absurd trivial h'.2.2
    obtain ⟨-, hw⟩ := h'
    cases w with
    | some w =>
      obtain ⟨o', rfl, hw⟩ := hw
      rw [Option.bind_some, hw]
    | none => rw [Option.bind_eq_none_iff.mpr (hw.resolve_left fun hq => hq trivial)]

theorem yields_loadUser {w : WalletRow} {u : UserRow} (hu : t.findUser? w.userId = some u) :
    Yields (loadUser w) t (.ok u) t := fun s h => by
  refine (loadUser_ends h w).mono (fun u' s' h' => ⟨?_, h'.1⟩) fun b s' h' => ?_
  · rw [Option.some.inj (hu.symm.trans h'.2)]
  · rcases h'.2 with hf | hn
    · exact absurd trivial hf.2
    · rw [hu] at hn
      cases hn

theorem yields_reload {α : Type} {row : Tables → Option α} {a : α} (hr : row t = some a) :
    Yields (reload row) t (.ok a) t := fun s h => by
  refine (reload_ends h row).mono (fun a' s' h' => ⟨?_, h'.1⟩) fun b s' h' => ?_
  · rw [Option.some.inj (hr.symm.trans h'.2)]
  · rcases h'.2.2 with hq | hn
    · exact absurd trivial hq
    · rw [hr] at hn
      cases hn

end Store

end WalletLogin.Ledger
