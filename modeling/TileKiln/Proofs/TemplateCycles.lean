import Mathlib.Data.List.Perm.Subperm
import TileKiln.Proofs.TemplateChain

namespace TileKiln.Object

variable {σ : Type} {answer : String → Except BakeError Object}

/-- Following templates from an object through `visited`, each of which is answered, leads to the
object `last`. -/
inductive Leads (answer : String → Except BakeError Object) : Object → List String → Object → Prop
  | here (object : Object) : Leads answer object [] object
  | onward (object : Object) (reference : String) (template : Object) (visited : List String)
      (last : Object) (htemplate : object.template = some reference)
      (hanswer : answer reference = .ok template) (hrest : Leads answer template visited last) :
      Leads answer object (reference :: visited) last

def Ends (answer : String → Except BakeError Object) (object : Object) (visited : List String) :
    Prop :=
  visited.Nodup ∧ ∃ last, Leads answer object visited last ∧ last.template = none

def ComesBack (answer : String → Except BakeError Object) (object : Object) (visited : List String)
    (reference : String) : Prop :=
  visited.Nodup ∧ reference ∈ visited ∧
    ∃ last, Leads answer object visited last ∧ last.template = some reference

def FailsAt (answer : String → Except BakeError Object) (object : Object) (visited : List String)
    (reference : String) (e : BakeError) : Prop :=
  (visited ++ [reference]).Nodup ∧ answer reference = .error e ∧
    ∃ last, Leads answer object visited last ∧ last.template = some reference

namespace Leads

variable {object last : Object} {visited : List String}

theorem concat (h : Leads answer object visited last) {reference : String} {template : Object}
    (htemplate : last.template = some reference) (hanswer : answer reference = .ok template) :
    Leads answer object (visited ++ [reference]) template := by
  induction h with
  | here object => exact .onward object reference template [] template htemplate hanswer (.here _)
  | onward object first next visited last hfirst hnext _ ih =>
      exact .onward object first next _ template hfirst hnext (ih htemplate)

theorem answered (h : Leads answer object visited last) :
    ∀ reference ∈ visited, ∃ template, answer reference = .ok template := by
  induction h with
  | here object => simp
  | onward object first next visited last _ hnext _ ih =>
      rw [List.forall_mem_cons]
      exact ⟨⟨next, hnext⟩, ih⟩

theorem exists_chain (h : Leads answer object visited last) (hlast : last.template = none) :
    ∃ templates, Chain answer object visited templates := by
  induction h with
  | here object => exact ⟨[], .plain object hlast⟩
  | onward object first next visited last hfirst hnext _ ih =>
      obtain ⟨templates, hchain⟩ := ih hlast
      exact ⟨next :: templates, .template object first next visited templates hfirst hnext hchain⟩

/-- A failure at the far end of the way is a failure for the object, which it leaves alone. -/
theorem resolution_of_failure {source : TemplateSource σ} (hsource : source.Answers answer)
    (h : Leads answer object visited last) {chain : List String}
    (hnodup : (chain ++ visited).Nodup) {e : BakeError} {s s' : σ}
    (hlast : Resolution source.fetch (chain ++ visited) last (source.after visited s)
      ⟨last, some e⟩ s') :
    Resolution source.fetch chain object s ⟨object, some e⟩ s' := by
  induction h generalizing chain s with
  | here object => rwa [List.append_nil] at hlast
  | onward object reference template visited last htemplate hanswer _ ih =>
      have hnew : reference ∉ chain := fun hseen =>
        List.disjoint_of_nodup_append hnodup hseen List.mem_cons_self
      have hfetch : (source.fetch reference).run.run s =
          (.ok template, ((source.fetch reference).run.run s).2) :=
        Prod.ext ((hsource reference s).trans hanswer) rfl
      rw [List.append_cons] at hnodup hlast
      exact .unresolved chain object s reference template _ template e s' htemplate hnew hfetch
        (ih hnodup hlast)

end Leads

inductive Course (answer : String → Except BakeError Object) (object : Object) :
    List String → Option BakeError → Prop
  | ends (visited) (h : object.Ends answer visited) : Course answer object visited none
  | comesBack (visited reference) (h : object.ComesBack answer visited reference) :
      Course answer object visited (some (.templateCycle (visited ++ [reference])))
  | failsAt (visited reference e) (h : object.FailsAt answer visited reference e) :
      Course answer object (visited ++ [reference]) (some e)

/-- A way that has not ended goes on to a reference that it has not come through, of which there are
fewer with each step. -/
theorem Leads.exists_course {known : List String}
    (hknown : ∀ reference template, answer reference = .ok template → reference ∈ known)
    {object last : Object} {visited : List String} (h : Leads answer object visited last)
    (hnodup : visited.Nodup) : ∃ asked failure, object.Course answer asked failure := by
  cases htemplate : last.template with
  | none => exact ⟨visited, none, .ends visited ⟨hnodup, last, h, htemplate⟩⟩
  | some reference =>
      by_cases hseen : reference ∈ visited
      · exact ⟨_, _, .comesBack visited reference ⟨hnodup, hseen, last, h, htemplate⟩⟩
      · have hnodup' : (visited ++ [reference]).Nodup := by
          rw [← List.concat_eq_append]
          exact hnodup.concat hseen
        cases hanswer : answer reference with
        | error e =>
            exact ⟨_, _, .failsAt visited reference e ⟨hnodup', hanswer, last, h, htemplate⟩⟩
        | ok template =>
            have hnext := h.concat htemplate hanswer
            have hfound : visited ++ [reference] ⊆ known := fun r hr =>
              let ⟨t, ht⟩ := hnext.answered r hr
              hknown r t ht
            have hlength : (visited ++ [reference]).length ≤ known.length :=
              (List.subperm_of_subset hnodup' hfound).length_le
            exact hnext.exists_course hknown hnodup'
termination_by known.length - visited.length
decreasing_by
  rw [List.length_append, List.length_singleton] at hlength ⊢
  omega

namespace Course

variable {object : Object} {asked asked' : List String} {failure failure' : Option BakeError}

theorem nodup (h : object.Course answer asked failure) : asked.Nodup := by
  cases h with
  | ends _ h => exact h.1
  | comesBack _ _ h => exact h.1
  | failsAt _ _ _ h => exact h.1

theorem exists_resolution (h : object.Course answer asked failure) :
    ∃ value, ∀ {τ : Type} {source : TemplateSource τ}, source.Answers answer → ∀ s,
      Resolution source.fetch [] object s ⟨value, failure⟩ (source.after asked s) := by
  cases h with
  | ends _ h =>
      obtain ⟨hnodup, last, hleads, hlast⟩ := h
      obtain ⟨templates, hchain⟩ := hleads.exists_chain hlast
      have hnew : ([] ++ asked).Nodup := hnodup
      exact ⟨object.inheritAll templates, fun hsource s => hchain.resolution hsource hnew s⟩
  | comesBack _ reference h =>
      obtain ⟨hnodup, hseen, last, hleads, hlast⟩ := h
      have hnew : ([] ++ asked).Nodup := hnodup
      refine ⟨object, fun hsource s => hleads.resolution_of_failure hsource hnew ?_⟩
      exact .cycle asked last _ reference hlast hseen
  | failsAt visited reference e h =>
      obtain ⟨hnodup, hanswer, last, hleads, hlast⟩ := h
      refine ⟨object, fun {τ source} hsource s => ?_⟩
      have hnew : reference ∉ visited := fun hseen =>
        List.disjoint_of_nodup_append hnodup hseen (List.mem_singleton_self reference)
      have hvisited : ([] ++ visited).Nodup := hnodup.of_append_left
      have hafter : source.after (visited ++ [reference]) s =
          ((source.fetch reference).run.run (source.after visited s)).2 := List.foldl_concat ..
      rw [hafter]
      exact hleads.resolution_of_failure hsource hvisited
        (.unfetched visited last _ reference e _ hlast hnew
          (Prod.ext ((hsource reference _).trans hanswer) rfl))

theorem unique (h : object.Course answer asked failure) (h' : object.Course answer asked' failure') :
    asked = asked' ∧ failure = failure' := by
  let source : TemplateSource Unit := ⟨fun reference => liftExcept (answer reference)⟩
  have hsource : source.Answers answer := by
    intro reference s
    change ((liftExcept (answer reference) : Bake Unit Object).run.run s).1 = _
    cases answer reference <;> rfl
  obtain ⟨value, hresolution⟩ := h.exists_resolution
  obtain ⟨value', hresolution'⟩ := h'.exists_resolution
  have hrun := (hresolution (TemplateSource.noting_answers hsource) ([], ())).resolveFrom?_eq
  rw [(hresolution' (TemplateSource.noting_answers hsource) ([], ())).resolveFrom?_eq] at hrun
  simp only [TemplateSource.noting_after, Option.some.injEq, Prod.mk.injEq, Progress.mk.injEq,
    List.nil_append] at hrun
  exact ⟨hrun.2.1.symm, hrun.1.2.symm⟩

end Course

/-- Where finitely many references are answered, resolution has a result for every object, and asks
for each reference at most once. It fails if the way comes back to one of its references, with the
references on the way and the one that comes again; if a reference is answered by an error before
that, with this error; and not at all if the way ends. -/
theorem resolve_ends {source : TemplateSource σ} {known : List String}
    (hsource : source.Answers answer)
    (hknown : ∀ reference template, answer reference = .ok template → reference ∈ known)
    (object : Object) :
    ∃ asked value failure, asked.Nodup ∧
      (∀ s, resolveFrom? source.fetch [] object s =
        some (⟨value, failure⟩, source.after asked s)) ∧
      (∀ before s, object.resolveInPlace source.noting (before, s) =
        (⟨value, failure⟩, before ++ asked, source.after asked s)) ∧
      (failure = none ↔ ∃ visited, object.Ends answer visited) ∧
      (∀ e, failure = some e ↔
        (∃ visited reference, object.ComesBack answer visited reference ∧
          e = .templateCycle (visited ++ [reference])) ∨
        ∃ visited reference, object.FailsAt answer visited reference e) ∧
      ((∀ reference cycle, answer reference ≠ .error (.templateCycle cycle)) →
        ∀ cycle, failure = some (.templateCycle cycle) ↔
          ∃ visited reference, object.ComesBack answer visited reference ∧
            cycle = visited ++ [reference]) := by
  obtain ⟨asked, failure, hcourse⟩ := (Leads.here object).exists_course hknown List.nodup_nil
  obtain ⟨value, hresolution⟩ := hcourse.exists_resolution
  have hfailure (e : BakeError) : failure = some e ↔
      (∃ visited reference, object.ComesBack answer visited reference ∧
        e = .templateCycle (visited ++ [reference])) ∨
      ∃ visited reference, object.FailsAt answer visited reference e := by
    constructor
    · rintro rfl
      cases hcourse with
      | comesBack _ reference h => exact .inl ⟨asked, reference, h, rfl⟩
      | failsAt visited reference _ h => exact .inr ⟨visited, reference, h⟩
    · rintro (⟨visited, reference, h, rfl⟩ | ⟨visited, reference, h⟩)
      · exact (hcourse.unique (.comesBack visited reference h)).2
      · exact (hcourse.unique (.failsAt visited reference e h)).2
  refine ⟨asked, value, failure, hcourse.nodup, ?_, ?_, ?_, hfailure, ?_⟩
  · intro s
    exact (hresolution hsource s).resolveFrom?_eq
  · intro before s
    have hnoting := hresolution (TemplateSource.noting_answers hsource) (before, s)
    rw [resolveInPlace, hnoting.resolveFrom?_eq, Option.getD_some, TemplateSource.noting_after]
  · constructor
    · rintro rfl
      cases hcourse with
      | ends _ h => exact ⟨asked, h⟩
    · rintro ⟨visited, h⟩
      exact (hcourse.unique (.ends visited h)).2
  · intro hanswers cycle
    rw [hfailure]
    constructor
    · rintro (⟨visited, reference, h, hcycle⟩ | ⟨visited, reference, h⟩)
      · exact ⟨visited, reference, h, BakeError.templateCycle.inj hcycle⟩
      · exact absurd h.2.1 (hanswers reference cycle)
    · rintro ⟨visited, reference, h, rfl⟩
      exact .inl ⟨visited, reference, h, rfl⟩

def cyclicTemplates : List (String × Object) :=
  [("gem.tx", { template := some "ruby.tx" }), ("ruby.tx", { template := some "stone.tx" }),
   ("stone.tx", { template := some "ruby.tx" })]

theorem comesBack_cyclicTemplates :
    ComesBack (TemplateSource.listed cyclicTemplates) { template := some "gem.tx" }
      ["gem.tx", "ruby.tx", "stone.tx"] "ruby.tx" :=
  ⟨by decide, by decide, { template := some "ruby.tx" },
    .onward _ "gem.tx" _ _ _ rfl rfl (.onward _ "ruby.tx" _ _ _ rfl rfl
      (.onward _ "stone.tx" _ _ _ rfl rfl (.here _))), rfl⟩

theorem known_of_listed {templates : List (String × Object)} {reference : String} {template : Object}
    (h : TemplateSource.listed templates reference = .ok template) :
    reference ∈ templates.map (·.1) := by
  rw [TemplateSource.listed] at h
  split at h
  next hlookup =>
    obtain ⟨front, back, rfl, _⟩ := List.lookup_eq_some_iff.1 hlookup
    simp
  next => cases h

/-- The gem fails with the way that its templates go, and what no template is known for with that. -/
theorem resolve_ends_sample :
    (TemplateSource.ofList cyclicTemplates).Answers (TemplateSource.listed cyclicTemplates) ∧
    (∃ value s, resolveFrom? (TemplateSource.ofList cyclicTemplates).fetch []
      { template := some "gem.tx" } [] =
        some (⟨value, some (.templateCycle ["gem.tx", "ruby.tx", "stone.tx", "ruby.tx"])⟩, s)) ∧
    ∃ value s, resolveFrom? (TemplateSource.ofList cyclicTemplates).fetch []
      { template := some "opal.tx" } [] =
        some (⟨value, some (.missing "opal.tx" .template)⟩, s) := by
  have hsource := TemplateSource.ofList_answers cyclicTemplates
  have hknown : ∀ reference template,
      TemplateSource.listed cyclicTemplates reference = .ok template →
        reference ∈ cyclicTemplates.map (·.1) := fun _ _ => known_of_listed
  refine ⟨hsource, ?_, ?_⟩
  · obtain ⟨asked, value, _, _, hrun, _, _, hfailure, _⟩ :=
      resolve_ends hsource hknown { template := some "gem.tx" }
    obtain rfl := (hfailure _).2 (.inl ⟨_, _, comesBack_cyclicTemplates, rfl⟩)
    exact ⟨value, _, hrun []⟩
  · obtain ⟨asked, value, _, _, hrun, _, _, hfailure, _⟩ :=
      resolve_ends hsource hknown { template := some "opal.tx" }
    have hfails : FailsAt (TemplateSource.listed cyclicTemplates) { template := some "opal.tx" } []
        "opal.tx" (.missing "opal.tx" .template) :=
      ⟨by decide, rfl, _, .here _, rfl⟩
    obtain rfl := (hfailure _).2 (.inr ⟨_, _, hfails⟩)
    exact ⟨value, _, hrun []⟩

end TileKiln.Object
