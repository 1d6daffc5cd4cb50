import TileKiln.Error

namespace TileKiln

variable {σ ε α β : Type}

theorem ok_of_bind {act : Except ε α} {next : α → Except ε β} {b : β}
    (h : (act >>= next) = .ok b) : ∃ a, act = .ok a ∧ next a = .ok b := by
  cases act with
  | error e => cases h
  | ok a => exact ⟨a, rfl, h⟩

theorem error_of_bind {act : Except ε α} {next : α → Except ε β} {e : ε}
    (h : (act >>= next) = .error e) : act = .error e ∨ ∃ a, act = .ok a ∧ next a = .error e := by
  cases act with
  | error e' =>
      cases h
      exact .inl rfl
  | ok a => exact .inr ⟨a, rfl, h⟩

theorem map_eq_ok_iff {act : Except ε α} {f : α → β} {b : β} :
    act.map f = .ok b ↔ ∃ a, act = .ok a ∧ b = f a := by
  constructor
  · intro h
    cases act with
    | error e => cases h
    | ok a => exact ⟨a, rfl, (Except.ok.inj h).symm⟩
  · rintro ⟨a, rfl, rfl⟩
    rfl

theorem map_eq_error_iff {act : Except ε α} {f : α → β} {e : ε} :
    act.map f = .error e ↔ act = .error e := by
  constructor
  · intro h
    cases act with
    | error e' =>
        cases h
        rfl
    | ok a => cases h
  · rintro rfl
    rfl

theorem ok_of_toOption {result : Except ε α} {a : α} (h : result.toOption = some a) :
    result = .ok a := by
  cases result with
  | error e => cases h
  | ok b =>
      cases h
      rfl

theorem ok_of_mapError {ε' : Type} {result : Except ε α} {f : ε → ε'} {a : α}
    (h : result.mapError f = .ok a) : result = .ok a := by
  cases result with
  | error e => cases h
  | ok b =>
      cases h
      rfl

theorem ok_of_forM {check : α → Except ε Unit} {as : List α} (h : as.forM check = .ok ()) :
    ∀ a ∈ as, check a = .ok () := by
  induction as with
  | nil => simp
  | cons a as ih =>
      obtain ⟨_, hfirst, hothers⟩ := ok_of_bind h
      simp only [List.mem_cons, forall_eq_or_imp]
      exact ⟨hfirst, ih hothers⟩

theorem error_of_forM {check : α → Except ε Unit} {as : List α} {e : ε}
    (h : as.forM check = .error e) : ∃ a ∈ as, check a = .error e := by
  induction as with
  | nil => cases h
  | cons a as ih =>
      rcases error_of_bind h with hfirst | ⟨_, _, hothers⟩
      · exact ⟨a, List.mem_cons_self, hfirst⟩
      · obtain ⟨b, hb, hcheck⟩ := ih hothers
        exact ⟨b, List.mem_cons_of_mem a hb, hcheck⟩

/-- What each step of a fold keeps, the whole fold keeps. -/
theorem foldlM_keeps {step : β → α → Except ε β} {P : β → Prop}
    (hstep : ∀ b a b', step b a = .ok b' → P b → P b') {as : List α} {b b' : β}
    (h : as.foldlM step b = .ok b') (hb : P b) : P b' := by
  induction as generalizing b with
  | nil =>
      cases h
      exact hb
  | cons a as ih =>
      rw [List.foldlM_cons] at h
      obtain ⟨c, hfirst, hothers⟩ := ok_of_bind h
      exact ih hothers (hstep b a c hfirst hb)

namespace Bake

theorem run_tryCatch (act : Bake σ α) (handle : BakeError → Bake σ α) (s : σ) :
    tryCatch act handle s =
      match act s with
      | (.ok a, s) => (.ok a, s)
      | (.error e, s) => handle e s := by
  change ExceptT.tryCatch (m := StateM σ) act handle s = _
  simp only [ExceptT.tryCatch, ExceptT.mk, bind, StateT.bind]
  rcases act s with ⟨_ | _, _⟩ <;> rfl

theorem ok_of_bind {act : Bake σ α} {next : α → Bake σ β} {b : β} {s s' : σ}
    (h : (act >>= next).run.run s = (.ok b, s')) :
    ∃ a s₁, act.run.run s = (.ok a, s₁) ∧ (next a).run.run s₁ = (.ok b, s') := by
  change (act >>= next) s = _ at h
  rw [run_bind] at h
  split at h
  next a s₁ hact => exact ⟨a, s₁, hact, h⟩
  next => cases h

theorem bind_of_ok {act : Bake σ α} {next : α → Bake σ β} {a : α} {s s₁ : σ}
    (h : act.run.run s = (.ok a, s₁)) : (act >>= next).run.run s = (next a).run.run s₁ := by
  change act s = _ at h
  change (act >>= next) s = _
  rw [run_bind, h]
  rfl

theorem ok_of_liftExcept {result : Except ε α} {f : ε → BakeError} {a : α} {s s' : σ}
    (h : (liftExcept (result.mapError f) : Bake σ α).run.run s = (.ok a, s')) :
    result = .ok a ∧ s' = s := by
  cases result with
  | error e => cases h
  | ok b =>
      cases h
      exact ⟨rfl, rfl⟩

end Bake

end TileKiln
