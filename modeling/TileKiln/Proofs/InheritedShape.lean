import TileKiln.Proofs.TemplateChain

namespace TileKiln.Object

variable {σ : Type}

/-- The templates that are fetched for an object, from the nearest to the farthest, whatever the
source makes of being asked again. -/
inductive Fetches (fetch : String → Bake σ Object) : Object → σ → List Object → σ → Prop
  | plain (object s) (htemplate : object.template = none) : Fetches fetch object s [] s
  | template (object s reference template s₁ templates s₂)
      (htemplate : object.template = some reference)
      (hfetch : (fetch reference).run.run s = (.ok template, s₁))
      (hrest : Fetches fetch template s₁ templates s₂) :
      Fetches fetch object s (template :: templates) s₂

theorem Resolution.exists_fetches {fetch : String → Bake σ Object} {chain : List String}
    {object value : Object} {s s' : σ} (h : Resolution fetch chain object s ⟨value, none⟩ s') :
    ∃ templates, Fetches fetch object s templates s' ∧ value = object.inheritAll templates := by
  generalize hp : (⟨value, none⟩ : Progress Object) = progress at h
  induction h generalizing value with
  | plain chain object s htemplate =>
      cases hp
      exact ⟨[], .plain object s htemplate, rfl⟩
  | inherits chain object s reference template s₁ base s₂ htemplate _ hfetch _ ih =>
      cases hp
      obtain ⟨templates, hfetches, rfl⟩ := ih rfl
      exact ⟨template :: templates, .template object s reference template s₁ templates s₂ htemplate
        hfetch hfetches, rfl⟩
  | cycle | unfetched | unresolved => cases hp

def Tileless (object : Object) : Prop := ∀ gid, object.gid = some gid → gid = 0

def Forms (object : Object) : Shape → Prop
  | .tile gid => object.gid = some gid ∧ gid ≠ 0
  | .ellipse => object.Tileless ∧ object.ellipse = some ()
  | .polygon points => object.Tileless ∧ object.ellipse = none ∧ object.polygon = some points
  | .polyline points => object.Tileless ∧ object.ellipse = none ∧ object.polygon = none ∧
    object.polyline = some points
  | .rectangle => object.Tileless ∧ object.ellipse = none ∧ object.polygon = none ∧
    object.polyline = none

theorem forms_shape (object : Object) : object.Forms object.shape := by
  have houtline (h : object.Tileless) : object.Forms object.outline := by
    unfold outline
    split
    next _ _ hellipse => exact ⟨h, hellipse⟩
    next _ points hellipse hpolygon => exact ⟨h, hellipse, hpolygon⟩
    next points hellipse hpolygon hpolyline => exact ⟨h, hellipse, hpolygon, hpolyline⟩
    next hellipse hpolygon hpolyline => exact ⟨h, hellipse, hpolygon, hpolyline⟩
  unfold shape
  split
  next gid hgid =>
    split
    next hzero =>
      refine houtline fun found hfound => ?_
      rw [hgid] at hfound
      cases hfound
      exact hzero
    next hzero => exact ⟨hgid, hzero⟩
  next hgid =>
    refine houtline fun found hfound => ?_
    rw [hgid] at hfound
    cases hfound

/-- The fields that an object sets form one shape. -/
theorem Forms.unique {object : Object} {s s' : Shape} (h : object.Forms s) (h' : object.Forms s') :
    s = s' := by
  cases s <;> cases s' <;> simp_all [Forms, Tileless]

theorem shape_eq_iff {object : Object} {s : Shape} : object.shape = s ↔ object.Forms s := by
  constructor
  · rintro rfl
    exact forms_shape object
  · exact (forms_shape object).unique

def TilelessBelow (object : Object) (templates : List Object) : Prop :=
  ∀ gid, (object :: templates).findSome? Object.gid = some gid → gid = 0

/-- Whether no template sets a field that goes before those of the object's own shape. An id counts if
it is the nearest one and not 0; of the other fields the object has none, so any template's counts. -/
def KeepsShape (object : Object) (templates : List Object) : Prop :=
  match object.shape with
  | .tile _ => True
  | .ellipse => object.TilelessBelow templates
  | .polygon _ => object.TilelessBelow templates ∧ ∀ template ∈ templates, template.ellipse = none
  | .polyline _ => object.TilelessBelow templates ∧ ∀ template ∈ templates,
    template.ellipse = none ∧ template.polygon = none
  | .rectangle => object.TilelessBelow templates ∧ ∀ template ∈ templates,
    template.ellipse = none ∧ template.polygon = none ∧ template.polyline = none

section

variable {object : Object} {templates : List Object}

theorem tileless_inheritAll_iff :
    (object.inheritAll templates).Tileless ↔ object.TilelessBelow templates := by
  rw [Tileless, (nearestWins_inheritAll object templates).gid, TilelessBelow]

theorem inheritAll_field_of_set {α : Type} {field : Object → Option α} {value : α}
    (templates : List Object)
    (hfield : ∀ a b : Object, field (a.inherit b) = Field.inherit (field a) (field b))
    (hown : field object = some value) : field (object.inheritAll templates) = some value := by
  rw [inheritAll_field hfield, List.findSome?_cons, hown]

theorem inheritAll_field_of_unset {α : Type} {field : Object → Option α} (templates : List Object)
    (hfield : ∀ a b : Object, field (a.inherit b) = Field.inherit (field a) (field b))
    (hown : field object = none) :
    field (object.inheritAll templates) = none ↔ ∀ template ∈ templates, field template = none := by
  rw [inheritAll_field hfield, List.findSome?_eq_none_iff, List.forall_mem_cons]
  exact and_iff_right hown

theorem shape_inheritAll_iff :
    (object.inheritAll templates).shape = object.shape ↔ object.KeepsShape templates := by
  have hforms := forms_shape object
  rw [shape_eq_iff, KeepsShape]
  cases hshape : object.shape with rw [hshape] at hforms
  | tile gid =>
      obtain ⟨hgid, hzero⟩ := hforms
      have hgid := inheritAll_field_of_set templates (fun _ _ => rfl) hgid
      exact iff_of_true ⟨hgid, hzero⟩ trivial
  | ellipse =>
      obtain ⟨_, hellipse⟩ := hforms
      have hellipse := inheritAll_field_of_set templates (fun _ _ => rfl) hellipse
      rw [Forms, tileless_inheritAll_iff]
      exact and_iff_left hellipse
  | polygon points =>
      obtain ⟨_, hellipse, hpolygon⟩ := hforms
      have hellipse := inheritAll_field_of_unset templates (fun _ _ => rfl) hellipse
      have hpolygon := inheritAll_field_of_set templates (fun _ _ => rfl) hpolygon
      rw [Forms, tileless_inheritAll_iff, hellipse, and_iff_left hpolygon]
  | polyline points =>
      obtain ⟨_, hellipse, hpolygon, hpolyline⟩ := hforms
      have hellipse := inheritAll_field_of_unset templates (fun _ _ => rfl) hellipse
      have hpolygon := inheritAll_field_of_unset templates (fun _ _ => rfl) hpolygon
      have hpolyline := inheritAll_field_of_set templates (fun _ _ => rfl) hpolyline
      rw [Forms, tileless_inheritAll_iff, hellipse, hpolygon, and_iff_left hpolyline]
      simp only [forall_and]
  | rectangle =>
      obtain ⟨_, hellipse, hpolygon, hpolyline⟩ := hforms
      have hellipse := inheritAll_field_of_unset templates (fun _ _ => rfl) hellipse
      have hpolygon := inheritAll_field_of_unset templates (fun _ _ => rfl) hpolygon
      have hpolyline := inheritAll_field_of_unset templates (fun _ _ => rfl) hpolyline
      rw [Forms, tileless_inheritAll_iff, hellipse, hpolygon, hpolyline]
      simp only [forall_and]

/-- An object that resolves keeps the shape that it has by itself unless one of the templates that are
fetched for it sets a field that goes before that shape. -/
theorem shape_of_resolveInPlace {source : TemplateSource σ} {resolved : Object} {s s' : σ}
    (h : object.resolveInPlace source s = (⟨resolved, none⟩, s')) :
    ∃ templates, Fetches source.fetch object s templates s' ∧
      (resolved.shape = object.shape ↔ object.KeepsShape templates) := by
  obtain ⟨templates, hfetches, rfl⟩ := (resolution_of_resolveInPlace h).exists_fetches
  exact ⟨templates, hfetches, shape_inheritAll_iff⟩

end

def shapedTemplates : List (String × Object) :=
  [("pond.tx", { polyline := some [.origin] }), ("gem.tx", { gid := some 3 })]

/-- A polygon stays one although the template has a polyline. -/
theorem shape_of_resolveInPlace_pond :
    ∃ object resolved : Object, ∃ s',
      object.resolveInPlace (.ofList shapedTemplates) [] = (⟨resolved, none⟩, s') ∧
      object.shape = .polygon [] ∧ resolved.polyline = some [.origin] ∧
      ∃ templates, Fetches (TemplateSource.ofList shapedTemplates).fetch object [] templates s' ∧
        (resolved.shape = object.shape ↔ object.KeepsShape templates) := by
  let object : Object := { polygon := some [], template := some "pond.tx" }
  have hchain : Chain (TemplateSource.listed shapedTemplates) object ["pond.tx"]
      [shapedTemplates[0].2] :=
    .template _ _ _ _ _ rfl rfl (.plain _ rfl)
  have hresolved := hchain.resolveInPlace_eq (TemplateSource.ofList_answers shapedTemplates)
    (by decide) []
  exact ⟨object, _, _, hresolved, rfl, rfl, shape_of_resolveInPlace hresolved⟩

/-- An ellipse becomes a tile: of the fields that the object and its template set, the id goes first. -/
theorem shape_of_resolveInPlace_gem :
    ∃ object resolved : Object, ∃ s',
      object.resolveInPlace (.ofList shapedTemplates) [] = (⟨resolved, none⟩, s') ∧
      object.shape = .ellipse ∧ resolved.shape = .tile 3 := by
  let object : Object := { ellipse := some (), template := some "gem.tx" }
  have hchain : Chain (TemplateSource.listed shapedTemplates) object ["gem.tx"]
      [shapedTemplates[1].2] :=
    .template _ _ _ _ _ rfl rfl (.plain _ rfl)
  have hresolved := hchain.resolveInPlace_eq (TemplateSource.ofList_answers shapedTemplates)
    (by decide) []
  exact ⟨object, _, _, hresolved, rfl, rfl⟩

end TileKiln.Object
