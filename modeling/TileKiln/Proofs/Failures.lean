import TileKiln.Proofs.Success
import TileKiln.Proofs.WorkResults

namespace TileKiln

variable {σ ε α β : Type} {P : BakeError → Prop}

namespace Bake

def FailsWith (P : BakeError → Prop) (act : Bake σ α) : Prop :=
  ∀ ⦃s e s'⦄, act.run.run s = (.error e, s') → P e

variable {act : Bake σ α} {next : α → Bake σ β}

theorem FailsWith.mono {Q : BakeError → Prop} (h : FailsWith P act) (himp : ∀ e, P e → Q e) :
    FailsWith Q act :=
  fun _ _ _ hrun => himp _ (h hrun)

theorem failsWith_pure (a : α) : FailsWith P (pure a : Bake σ α) := by
  intro s e s' h
  cases h

theorem failsWith_throw {e : BakeError} (h : P e) : FailsWith P (throw e : Bake σ α) := by
  intro s e' s' hrun
  cases hrun
  exact h

theorem failsWith_lift (act : StateM σ α) : FailsWith P (liftM act : Bake σ α) := by
  intro s e s' h
  cases h

theorem failsWith_liftExcept {result : Except ε α} {f : ε → BakeError}
    (h : ∀ e, result = .error e → P (f e)) :
    FailsWith P (liftExcept (result.mapError f) : Bake σ α) := by
  intro s e s' hrun
  cases result with
  | ok a => cases hrun
  | error cause =>
      cases hrun
      exact h cause rfl

theorem FailsWith.bind (h : FailsWith P act)
    (hnext : ∀ s a s', act.run.run s = (.ok a, s') → FailsWith P (next a)) :
    FailsWith P (act >>= next) := by
  intro s e s' hrun
  change (act >>= next) s = _ at hrun
  rw [run_bind] at hrun
  split at hrun
  next a s₁ hact => exact hnext s a s₁ hact hrun
  next e' s₁ hact =>
    cases hrun
    exact h hact

theorem FailsWith.tryCatch {handle : BakeError → Bake σ α} (h : FailsWith P act)
    (hhandle : ∀ e, P e → FailsWith P (handle e)) : FailsWith P (tryCatch act handle) := by
  intro s e s' hrun
  change MonadExcept.tryCatch act handle s = _ at hrun
  rw [run_tryCatch] at hrun
  split at hrun
  next => cases hrun
  next cause s₁ hact => exact hhandle cause (h hact) hrun

end Bake

namespace Work

def FailsWith (P : BakeError → Prop) (work : Work σ α) : Prop :=
  ∀ ⦃s a e s'⦄, work s = (⟨a, some e⟩, s') → P e

variable {work : Work σ α}

theorem failsWith_done (a : α) : FailsWith P (done a : Work σ α) := by
  intro s b e s' h
  cases h

theorem failsWith_step {a : α} {next : Bake σ α} (h : next.FailsWith P) :
    FailsWith P (step a next) := by
  intro s b e s' hwork
  rw [step] at hwork
  split at hwork
  next => cases hwork
  next cause s₁ hnext =>
    cases hwork
    exact h hnext

theorem FailsWith.andThen {next : α → Work σ α} (h : work.FailsWith P)
    (hnext : ∀ a, work.Yields a → (next a).FailsWith P) : FailsWith P (andThen work next) := by
  intro s b e s' hwork
  rw [Work.andThen] at hwork
  split at hwork
  next a s₁ hfirst => exact hnext a (.of_eq hfirst) hwork
  next a cause s₁ hfirst =>
    cases hwork
    exact h hfirst

theorem FailsWith.part {whole : β → α} {work : Work σ β} (h : work.FailsWith P) :
    FailsWith P (part whole work) := by
  intro s b e s' hwork
  rw [Work.part] at hwork
  rcases hresult : work s with ⟨⟨a, failure⟩, s₁⟩
  rw [hresult] at hwork
  cases hwork
  exact h hresult

theorem FailsWith.within {place : BakeError → BakeError} (h : work.FailsWith P)
    (hplace : ∀ e, P e → P (place e)) : FailsWith P (within place work) := by
  intro s b e s' hwork
  rw [Work.within] at hwork
  rcases hresult : work s with ⟨⟨a, _ | cause⟩, s₁⟩
  · rw [hresult] at hwork
    cases hwork
  · rw [hresult] at hwork
    cases hwork
    by_cases hcause : cause = .decode .overflow
    · subst hcause
      exact h hresult
    · rw [BakeError.within_of_ne hcause]
      exact hplace cause (h hresult)

theorem FailsWith.cons {others : List α} {next : Work σ (List α)} (h : work.FailsWith P)
    (hnext : next.FailsWith P) : FailsWith P (cons work others next) := by
  intro s b e s' hwork
  rw [Work.cons] at hwork
  split at hwork
  next a s₁ _ => exact hnext.part hwork
  next a cause s₁ hfirst =>
    cases hwork
    exact h hfirst

theorem failsWith_each {work : α → Work σ α} (h : ∀ a, (work a).FailsWith P) :
    (as : List α) → FailsWith P (each work as)
  | [] => failsWith_done []
  | a :: as => (h a).cons (failsWith_each h as)

theorem failsWith_each? {work : α → Work σ α} (h : ∀ a, (work a).FailsWith P) :
    (a : Option α) → FailsWith P (each? work a)
  | none => failsWith_done none
  | some a => (h a).part

theorem FailsWith.toBake (h : work.FailsWith P) : work.toBake.FailsWith P := by
  intro s e s' hrun
  change Work.toBake work s = _ at hrun
  simp only [Work.toBake, ExceptT.mk] at hrun
  rcases hwork : work s with ⟨⟨a, _ | cause⟩, s₁⟩
  · rw [hwork] at hrun
    cases hrun
  · rw [hwork] at hrun
    cases hrun
    exact h hwork

end Work

end TileKiln
