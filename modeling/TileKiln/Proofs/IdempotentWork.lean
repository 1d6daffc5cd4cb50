import TileKiln.Proofs.Success
import TileKiln.Proofs.WorkResults

namespace TileKiln

variable {σ α β : Type}

namespace Bake

def Always (act : Bake σ α) (a : α) : Prop := ∀ s, ∃ s', act.run.run s = (.ok a, s')

theorem always_pure (a : α) : (pure a : Bake σ α).Always a := fun s => ⟨s, rfl⟩

theorem always_lift (act : StateM σ Unit) : (liftM act : Bake σ Unit).Always () :=
  fun s => ⟨(act.run s).2, rfl⟩

theorem always_of_answer {act : Bake σ α} {a : α}
    (h : ∀ s, (act.run.run s).1 = .ok a) : act.Always a :=
  fun s => ⟨_, Prod.ext (h s) rfl⟩

theorem Always.bind {act : Bake σ α} {next : α → Bake σ β} {a : α} {b : β} (h : act.Always a)
    (hnext : (next a).Always b) : (act >>= next).Always b := by
  intro s
  obtain ⟨s₁, hact⟩ := h s
  obtain ⟨s', hrest⟩ := hnext s₁
  exact ⟨s', (bind_of_ok hact).trans hrest⟩

end Bake

namespace Work

variable {work : Work σ α} {a b : α}

def Always (work : Work σ α) (a : α) : Prop := ∀ s, ∃ s', work s = (⟨a, none⟩, s')

def Idempotent (work : α → Work σ α) : Prop := ∀ a b, (work a).Yields b → (work b).Always b

theorem always_done (a : α) : (done a : Work σ α).Always a := fun s => ⟨s, rfl⟩

theorem always_step (a : α) {next : Bake σ α} (h : next.Always b) : (step a next).Always b := by
  intro s
  obtain ⟨s', hnext⟩ := h s
  refine ⟨s', ?_⟩
  rw [step, hnext]
  rfl

theorem Always.andThen {next : α → Work σ α} (h : work.Always a) (hnext : (next a).Always b) :
    (work.andThen next).Always b := by
  intro s
  obtain ⟨s₁, hwork⟩ := h s
  obtain ⟨s', hrest⟩ := hnext s₁
  refine ⟨s', ?_⟩
  rw [Work.andThen, hwork]
  exact hrest

theorem Always.part {work : Work σ β} {b : β} (h : work.Always b) (whole : β → α) :
    (work.part whole).Always (whole b) := by
  intro s
  obtain ⟨s', hwork⟩ := h s
  refine ⟨s', ?_⟩
  rw [Work.part, hwork]

theorem Always.within (h : work.Always a) (place : BakeError → BakeError) :
    (work.within place).Always a := by
  intro s
  obtain ⟨s', hwork⟩ := h s
  refine ⟨s', ?_⟩
  rw [Work.within, hwork]
  rfl

theorem Always.cons {others as : List α} {next : Work σ (List α)} (h : work.Always a)
    (hnext : next.Always as) : (work.cons others next).Always (a :: as) := by
  intro s
  obtain ⟨s₁, hwork⟩ := h s
  obtain ⟨s', hrest⟩ := hnext.part (a :: ·) s₁
  refine ⟨s', ?_⟩
  rw [Work.cons, hwork]
  exact hrest

theorem always_each {work : α → Work σ α} {as : List α} (h : ∀ a ∈ as, (work a).Always a) :
    (each work as).Always as := by
  induction as with
  | nil => exact always_done []
  | cons a as ih =>
      exact (h a List.mem_cons_self).cons (ih fun b hb => h b (List.mem_cons_of_mem _ hb))

theorem Idempotent.each {work : α → Work σ α} (h : Idempotent work) : Idempotent (each work) := by
  intro as
  induction as with
  | nil =>
      intro bs hwork
      rw [hwork.of_done]
      exact always_done []
  | cons a as ih =>
      intro bs hwork
      obtain ⟨b, bs, rfl, hfirst, hothers⟩ := hwork.of_cons
      exact (h a b hfirst).cons (ih bs hothers)

end Work

end TileKiln
