import Mathlib.Data.List.Forall2
import TileKiln.Assembly.Work

namespace TileKiln.Work

variable {σ α β : Type} {a b : α} {work : Work σ α} {s s' : σ}

def Yields (work : Work σ α) (a : α) : Prop := ∃ s s', work s = (⟨a, none⟩, s')

theorem Yields.of_eq (h : work s = (⟨a, none⟩, s')) : work.Yields a := ⟨s, s', h⟩

theorem Yields.of_done (h : (done a : Work σ α).Yields b) : b = a := by
  obtain ⟨s, s', h⟩ := h
  cases h
  rfl

theorem not_yields_fail {e : BakeError} : ¬ (fail a e : Work σ α).Yields b := by
  rintro ⟨s, s', h⟩
  cases h

theorem Yields.of_step {next : Bake σ α} (h : (step a next).Yields b) :
    ∃ s s', next.run.run s = (.ok b, s') := by
  obtain ⟨s, s', h⟩ := h
  rw [step] at h
  split at h
  next c s₁ hnext =>
    cases h
    exact ⟨s, s', hnext⟩
  next => cases h

theorem Yields.of_andThen {next : α → Work σ α} (h : (andThen work next).Yields b) :
    ∃ a, work.Yields a ∧ (next a).Yields b := by
  obtain ⟨s, s', h⟩ := h
  rw [andThen] at h
  split at h
  next a s₁ hwork => exact ⟨a, ⟨s, s₁, hwork⟩, s₁, s', h⟩
  next => cases h

theorem Yields.of_part {whole : β → α} {work : Work σ β} (h : (part whole work).Yields a) :
    ∃ b, work.Yields b ∧ a = whole b := by
  obtain ⟨s, s', h⟩ := h
  rw [part] at h
  rcases hwork : work s with ⟨⟨b, failure⟩, s₁⟩
  rw [hwork] at h
  cases h
  exact ⟨b, ⟨s, s', hwork⟩, rfl⟩

theorem Yields.of_within {place : BakeError → BakeError} (h : (within place work).Yields a) :
    work.Yields a := by
  obtain ⟨s, s', h⟩ := h
  rw [within] at h
  rcases hwork : work s with ⟨⟨b, _ | e⟩, s₁⟩
  · rw [hwork] at h
    cases h
    exact ⟨s, s', hwork⟩
  · rw [hwork] at h
    cases h

theorem Yields.of_cons {others rest : List α} {next : Work σ (List α)}
    (h : (cons work others next).Yields rest) :
    ∃ b bs, rest = b :: bs ∧ work.Yields b ∧ next.Yields bs := by
  obtain ⟨s, s', h⟩ := h
  rw [cons] at h
  split at h
  next b s₁ hwork =>
    obtain ⟨bs, hnext, hrest⟩ := Yields.of_part ⟨s₁, s', h⟩
    exact ⟨b, bs, hrest, ⟨s, s₁, hwork⟩, hnext⟩
  next => cases h

theorem Yields.of_each {work : α → Work σ α} {as bs : List α} (h : (each work as).Yields bs) :
    List.Forall₂ (fun a b => (work a).Yields b) as bs := by
  induction as generalizing bs with
  | nil =>
      rw [h.of_done]
      exact .nil
  | cons a as ih =>
      obtain ⟨b, bs, rfl, hfirst, hothers⟩ := h.of_cons
      exact .cons hfirst (ih hothers)

theorem andThen_assoc (work : Work σ α) (next last : α → Work σ α) :
    (work.andThen next).andThen last = work.andThen fun a => (next a).andThen last := by
  funext s
  simp only [andThen]
  rcases work s with ⟨⟨a, _ | e⟩, s₁⟩ <;> rfl

theorem toBake_eq_ok_iff :
    work.toBake.run.run s = (.ok a, s') ↔ work s = (⟨a, none⟩, s') := by
  change toBake work s = _ ↔ _
  simp only [toBake, ExceptT.mk]
  rcases work s with ⟨⟨b, _ | e⟩, s₁⟩
  · constructor <;> rintro ⟨⟩ <;> rfl
  · constructor <;> rintro ⟨⟩

theorem toBake_step (a : α) (next : Bake σ α) : (step a next).toBake = next := by
  funext s
  simp only [toBake, ExceptT.mk, step, ExceptT.run, StateT.run]
  rcases next s with ⟨_ | _, _⟩ <;> rfl

theorem toBake_andThen (work : Work σ α) (next : α → Work σ α) :
    (andThen work next).toBake = work.toBake >>= fun a => (next a).toBake := by
  funext s
  rw [run_bind]
  simp only [toBake, ExceptT.mk, andThen]
  rcases work s with ⟨⟨a, _ | e⟩, s₁⟩ <;> rfl

theorem toBake_part (whole : β → α) (work : Work σ β) :
    (part whole work).toBake = work.toBake >>= fun b => pure (whole b) := by
  funext s
  rw [run_bind]
  simp only [toBake, ExceptT.mk, part]
  rcases work s with ⟨⟨b, _ | e⟩, s₁⟩ <;> rfl

theorem toBake_cons (first : Work σ α) (others : List α) (next : Work σ (List α)) :
    (cons first others next).toBake =
      first.toBake >>= fun a => next.toBake >>= fun as => pure (a :: as) := by
  funext s
  rw [run_bind]
  simp only [toBake, ExceptT.mk, cons]
  rcases first s with ⟨⟨a, _ | e⟩, s₁⟩
  · exact congrFun (toBake_part (a :: ·) next) s₁
  · rfl

theorem toBake_within_eq_ok_iff {place : BakeError → BakeError} :
    (within place work).toBake.run.run s = (.ok a, s') ↔ work.toBake.run.run s = (.ok a, s') := by
  rw [toBake_eq_ok_iff, toBake_eq_ok_iff, within]
  rcases work s with ⟨⟨b, _ | e⟩, s₁⟩ <;> simp

end TileKiln.Work
