import Mathlib.Data.List.Nodup
import TileKiln.Proofs.Inheritance
import TileKiln.Template.Chain

namespace TileKiln

variable {σ : Type}

namespace Object

inductive Resolution (fetch : String → Bake σ Object) :
    List String → Object → σ → Progress Object → σ → Prop
  | plain (chain object s) (htemplate : object.template = none) :
      Resolution fetch chain object s ⟨object, none⟩ s
  | cycle (chain object s reference) (htemplate : object.template = some reference)
      (hseen : reference ∈ chain) :
      Resolution fetch chain object s ⟨object, some (.templateCycle (chain ++ [reference]))⟩ s
  | unfetched (chain object s reference e s₁) (htemplate : object.template = some reference)
      (hnew : reference ∉ chain) (hfetch : (fetch reference).run.run s = (.error e, s₁)) :
      Resolution fetch chain object s ⟨object, some e⟩ s₁
  | inherits (chain object s reference template s₁ base s₂)
      (htemplate : object.template = some reference) (hnew : reference ∉ chain)
      (hfetch : (fetch reference).run.run s = (.ok template, s₁))
      (hrest : Resolution fetch (chain ++ [reference]) template s₁ ⟨base, none⟩ s₂) :
      Resolution fetch chain object s ⟨object.inherit base, none⟩ s₂
  | unresolved (chain object s reference template s₁ base e s₂)
      (htemplate : object.template = some reference) (hnew : reference ∉ chain)
      (hfetch : (fetch reference).run.run s = (.ok template, s₁))
      (hrest : Resolution fetch (chain ++ [reference]) template s₁ ⟨base, some e⟩ s₂) :
      Resolution fetch chain object s ⟨object, some e⟩ s₂

variable {fetch : String → Bake σ Object} {chain : List String} {object value : Object} {s s' : σ}
  {failure : Option BakeError}

theorem Resolution.of_resolveFrom? {result : Progress Object × σ}
    (h : resolveFrom? fetch chain object s = some result) :
    Resolution fetch chain object s result.1 result.2 := by
  apply resolveFrom?.partial_correctness fetch
    (fun chain object s result => Resolution fetch chain object s result.1 result.2) ?_
    chain object s result h
  -- A result comes after finitely many templates: what holds of the rest of the chain is `ih`.
  intro resolve ih chain object s result h
  split at h
  next htemplate =>
    cases h
    exact .plain chain object s htemplate
  next reference htemplate =>
    split at h
    next hseen =>
      cases h
      exact .cycle chain object s reference htemplate hseen
    next hnew =>
      split at h
      next e s₁ hfetch =>
        cases h
        exact .unfetched chain object s reference e s₁ htemplate hnew hfetch
      next template s₁ hfetch =>
        obtain ⟨⟨⟨base, failure⟩, s₂⟩, hrest, h⟩ := Option.bind_eq_some_iff.1 h
        have hrest := ih _ _ _ _ hrest
        rcases failure with _ | e
        · cases h
          exact .inherits chain object s reference template s₁ base s₂ htemplate hnew hfetch hrest
        · cases h
          exact .unresolved chain object s reference template s₁ base e s₂ htemplate hnew hfetch
            hrest

theorem Resolution.resolveFrom?_eq {progress : Progress Object}
    (h : Resolution fetch chain object s progress s') :
    resolveFrom? fetch chain object s = some (progress, s') := by
  induction h with
  | plain chain object s htemplate =>
      rw [resolveFrom?, htemplate]
      rfl
  | cycle chain object s reference htemplate hseen =>
      rw [resolveFrom?, htemplate]
      exact if_pos hseen
  | unfetched chain object s reference e s₁ htemplate hnew hfetch =>
      rw [resolveFrom?, htemplate]
      simp only [if_neg hnew, hfetch]
      rfl
  | inherits chain object s reference template s₁ base s₂ htemplate hnew hfetch hrest ih =>
      rw [resolveFrom?, htemplate]
      simp only [if_neg hnew, hfetch, ih]
      rfl
  | unresolved chain object s reference template s₁ base e s₂ htemplate hnew hfetch hrest ih =>
      rw [resolveFrom?, htemplate]
      simp only [if_neg hnew, hfetch, ih]
      rfl

/-- A failure, wherever in the chain it arises, leaves the object as it was. -/
theorem Resolution.value_of_failure {e : BakeError}
    (h : Resolution fetch chain object s ⟨value, some e⟩ s') : value = object := by
  cases h <;> rfl

theorem resolveInPlace_of_failure {source : TemplateSource σ} {e : BakeError}
    (h : object.resolveInPlace source s = (⟨value, some e⟩, s')) : value = object := by
  rw [resolveInPlace] at h
  cases hr : resolveFrom? source.fetch [] object s with
  | none =>
      rw [hr, Option.getD_none] at h
      cases h
      rfl
  | some result =>
      rw [hr, Option.getD_some] at h
      subst h
      exact (Resolution.of_resolveFrom? hr).value_of_failure

theorem resolution_of_resolveInPlace {source : TemplateSource σ}
    (h : object.resolveInPlace source s = (⟨value, none⟩, s')) :
    Resolution source.fetch [] object s ⟨value, none⟩ s' := by
  rw [resolveInPlace] at h
  cases hr : resolveFrom? source.fetch [] object s with
  | none =>
      rw [hr, Option.getD_none] at h
      cases h
  | some result =>
      rw [hr, Option.getD_some] at h
      subst h
      exact Resolution.of_resolveFrom? hr

inductive Chain (answer : String → Except BakeError Object) :
    Object → List String → List Object → Prop
  | plain (object : Object) (htemplate : object.template = none) : Chain answer object [] []
  | template (object : Object) (reference : String) (template : Object) (references templates)
      (htemplate : object.template = some reference) (hanswer : answer reference = .ok template)
      (hrest : Chain answer template references templates) :
      Chain answer object (reference :: references) (template :: templates)

end Object

namespace TemplateSource

/-- Each reference has one answer, whatever was asked for before. -/
def Answers (source : TemplateSource σ) (answer : String → Except BakeError Object) : Prop :=
  ∀ reference s, ((source.fetch reference).run.run s).1 = answer reference

def after (source : TemplateSource σ) (references : List String) (s : σ) : σ :=
  references.foldl (fun s reference => ((source.fetch reference).run.run s).2) s

def noting (source : TemplateSource σ) : TemplateSource (List String × σ) where
  fetch reference := ExceptT.mk fun (asked, s) =>
    let (answer, s) := (source.fetch reference).run.run s
    (answer, asked ++ [reference], s)

theorem noting_answers {source : TemplateSource σ} {answer : String → Except BakeError Object}
    (h : source.Answers answer) : source.noting.Answers answer :=
  fun reference s => h reference s.2

theorem noting_after (source : TemplateSource σ) (references asked : List String) (s : σ) :
    source.noting.after references (asked, s) = (asked ++ references, source.after references s) := by
  induction references generalizing asked s with
  | nil => rw [List.append_nil]; rfl
  | cons reference references ih =>
      rw [List.append_cons]
      exact ih _ _

def listed (templates : List (String × Object)) (reference : String) : Except BakeError Object :=
  match templates.lookup reference with
  | some object => .ok object
  | none => .error (.missing reference .template)

theorem ofList_answers (templates : List (String × Object)) :
    (ofList templates).Answers (listed templates) := by
  intro reference s
  change ((match templates.lookup reference with
    | some object => pure object
    | none => throw (.missing reference .template) : Bake (List String) Object).run.run
      (s ++ [reference])).1 = _
  unfold listed
  cases templates.lookup reference <;> rfl

end TemplateSource

namespace Object

variable {source : TemplateSource σ} {answer : String → Except BakeError Object}
  {references : List String} {templates : List Object}

theorem Chain.resolution (hsource : source.Answers answer)
    (h : Chain answer object references templates) (hnodup : (chain ++ references).Nodup) (s : σ) :
    Resolution source.fetch chain object s ⟨object.inheritAll templates, none⟩
      (source.after references s) := by
  induction h generalizing chain s with
  | plain object htemplate => exact .plain chain object s htemplate
  | template object reference template references templates htemplate hanswer hrest ih =>
      have hnew : reference ∉ chain := by
        intro hseen
        exact List.disjoint_of_nodup_append hnodup hseen List.mem_cons_self
      have hfetch : (source.fetch reference).run.run s =
          (.ok template, ((source.fetch reference).run.run s).2) :=
        Prod.ext ((hsource reference s).trans hanswer) rfl
      rw [List.append_cons] at hnodup
      exact .inherits chain object s reference template _ _ _ htemplate hnew hfetch
        (ih hnodup ((source.fetch reference).run.run s).2)

theorem Resolution.exists_chain (hsource : source.Answers answer) (hnodup : chain.Nodup)
    (h : Resolution source.fetch chain object s ⟨value, none⟩ s') :
    ∃ references templates, Object.Chain answer object references templates ∧
      (chain ++ references).Nodup ∧ value = object.inheritAll templates := by
  generalize hp : (⟨value, none⟩ : Progress Object) = progress at h
  induction h generalizing value with
  | plain chain object s htemplate =>
      cases hp
      exact ⟨[], [], .plain object htemplate, by rwa [List.append_nil], rfl⟩
  | inherits chain object s reference template s₁ base s₂ htemplate hnew hfetch hrest ih =>
      cases hp
      have hanswer : answer reference = .ok template := by
        rw [← hsource reference s, hfetch]
      have hseen : (chain ++ [reference]).Nodup := by
        rw [← List.concat_eq_append]
        exact hnodup.concat hnew
      obtain ⟨references, templates, hchain, hall, rfl⟩ := ih hseen rfl
      exact ⟨reference :: references, template :: templates,
        .template object reference template references templates htemplate hanswer hchain,
        by rwa [List.append_cons], rfl⟩
  | cycle | unfetched | unresolved => cases hp

theorem Chain.resolveInPlace_eq (hsource : source.Answers answer)
    (h : Chain answer object references templates) (hnodup : references.Nodup) (s : σ) :
    object.resolveInPlace source s =
      (⟨object.inheritAll templates, none⟩, source.after references s) := by
  have hnew : ([] ++ references).Nodup := hnodup
  have hresolution := h.resolution hsource hnew s
  rw [resolveInPlace, hresolution.resolveFrom?_eq, Option.getD_some]

/-- An object whose chain ends, repeats no reference and is served without an error is resolved:
every reference of the chain is asked for once, in order, and the nearest definition wins. An object
that fails to resolve, for whatever reason, stays as it was. -/
theorem resolveInPlace_nearestWins (hsource : source.Answers answer) :
    (∀ object references templates, Chain answer object references templates →
      references.Nodup → ∃ resolved,
        (∀ s, object.resolveInPlace source s = (⟨resolved, none⟩, source.after references s)) ∧
        (∀ asked s, object.resolveInPlace source.noting (asked, s) =
          (⟨resolved, none⟩, asked ++ references, source.after references s)) ∧
        object.NearestWins templates resolved) ∧
    ∀ (object value : Object) (e : BakeError) (s s' : σ),
      object.resolveInPlace source s = (⟨value, some e⟩, s') → value = object := by
  constructor
  · intro object references templates hchain hnodup
    refine ⟨object.inheritAll templates, hchain.resolveInPlace_eq hsource hnodup, ?_,
      nearestWins_inheritAll object templates⟩
    intro asked s
    rw [← TemplateSource.noting_after]
    exact hchain.resolveInPlace_eq (TemplateSource.noting_answers hsource) hnodup (asked, s)
  · intro object value e s s' h
    exact resolveInPlace_of_failure h

def sampleTemplates : List (String × Object) :=
  [("base.tx", { name := some "crate", width := some .one, height := some .one,
                 properties := [⟨"breakable", "true", []⟩, ⟨"hp", "3", []⟩] }),
   ("heavy.tx", { height := some .zero, template := some "base.tx",
                  properties := [⟨"hp", "10", []⟩] })]

def sampleInstance : Object where
  id := some 7
  template := some "heavy.tx"

theorem sampleInstance_chain :
    Chain (TemplateSource.listed sampleTemplates) sampleInstance ["heavy.tx", "base.tx"]
      [sampleTemplates[1].2, sampleTemplates[0].2] :=
  .template _ _ _ _ _ rfl rfl (.template _ _ _ _ _ rfl rfl (.plain _ rfl))

/-- The heavy crate keeps its height and its hit points, and an unknown template is no harm. -/
theorem resolveInPlace_nearestWins_sample :
    (TemplateSource.ofList sampleTemplates).Answers (TemplateSource.listed sampleTemplates) ∧
    Chain (TemplateSource.listed sampleTemplates) sampleInstance ["heavy.tx", "base.tx"]
      [sampleTemplates[1].2, sampleTemplates[0].2] ∧
    ["heavy.tx", "base.tx"].Nodup ∧
    ∃ resolved lost,
      (sampleInstance.resolveInPlace (.ofList sampleTemplates) [] =
        (⟨resolved, none⟩, (TemplateSource.ofList sampleTemplates).after ["heavy.tx", "base.tx"] [])) ∧
      sampleInstance.NearestWins [sampleTemplates[1].2, sampleTemplates[0].2] resolved ∧
      Object.resolveInPlace (.ofList []) sampleInstance [] =
        (⟨lost, some (.missing "heavy.tx" .template)⟩, ["heavy.tx"]) ∧
      lost = sampleInstance := by
  have hsample := resolveInPlace_nearestWins (TemplateSource.ofList_answers sampleTemplates)
  have hempty := resolveInPlace_nearestWins (TemplateSource.ofList_answers [])
  obtain ⟨resolved, hresolved, _, hwins⟩ :=
    hsample.1 sampleInstance _ _ sampleInstance_chain (by decide)
  have hlost : Object.resolveInPlace (.ofList []) sampleInstance [] =
      (⟨sampleInstance, some (.missing "heavy.tx" .template)⟩, ["heavy.tx"]) := by
    have h : Resolution (TemplateSource.ofList []).fetch [] sampleInstance [] _ _ :=
      .unfetched [] sampleInstance [] "heavy.tx" (.missing "heavy.tx" .template) ["heavy.tx"] rfl
        (by decide) rfl
    rw [resolveInPlace, h.resolveFrom?_eq, Option.getD_some]
  exact ⟨TemplateSource.ofList_answers sampleTemplates, sampleInstance_chain, by decide, resolved,
    sampleInstance, hresolved [], hwins, hlost, hempty.2 _ _ _ _ _ hlost⟩

end Object

end TileKiln
