import TileKiln.Object

namespace TileKiln

namespace Property

theorem merge_nil (own : List Property) : merge own [] = own := rfl

theorem merge_cons (own : List Property) (p : Property) (fallback : List Property) :
    merge own (p :: fallback) = merge (addUnlessNamed own p) fallback := rfl

theorem merge_append (own front back : List Property) :
    merge own (front ++ back) = merge (merge own front) back :=
  List.foldl_append

theorem addUnlessNamed_of_named {own : List Property} {p : Property}
    (h : own.any (·.name == p.name)) : addUnlessNamed own p = own :=
  if_pos h

theorem addUnlessNamed_of_not_named {own : List Property} {p : Property}
    (h : ¬ own.any (·.name == p.name)) : addUnlessNamed own p = own ++ [p] :=
  if_neg h

theorem any_addUnlessNamed (own : List Property) (p : Property) (name : String) :
    (addUnlessNamed own p).any (·.name == name) =
      (own.any (·.name == name) || p.name == name) := by
  by_cases h : own.any (·.name == p.name)
  · rw [addUnlessNamed_of_named h]
    by_cases hp : p.name = name
    · subst hp
      rw [h, Bool.true_or]
    · simp [hp]
  · rw [addUnlessNamed_of_not_named h, List.any_append, List.any_cons, List.any_nil, Bool.or_false]

theorem any_merge (own fallback : List Property) (name : String) :
    (merge own fallback).any (·.name == name) =
      (own.any (·.name == name) || fallback.any (·.name == name)) := by
  induction fallback generalizing own with
  | nil => rw [merge_nil, List.any_nil, Bool.or_false]
  | cons p fallback ih =>
      rw [merge_cons, ih, any_addUnlessNamed, List.any_cons, Bool.or_assoc]

theorem merge_addUnlessNamed (a b : List Property) (p : Property) :
    merge a (addUnlessNamed b p) = addUnlessNamed (merge a b) p := by
  by_cases h : b.any (·.name == p.name)
  · have hmerge : (merge a b).any (·.name == p.name) := by
      rw [any_merge, h, Bool.or_true]
    rw [addUnlessNamed_of_named h, addUnlessNamed_of_named hmerge]
  · rw [addUnlessNamed_of_not_named h, merge_append]
    rfl

theorem merge_assoc (a b c : List Property) : merge (merge a b) c = merge a (merge b c) := by
  induction c generalizing b with
  | nil => rfl
  | cons p c ih => rw [merge_cons, merge_cons, ← merge_addUnlessNamed, ih]

theorem merge_of_named {own fallback : List Property}
    (h : ∀ p ∈ fallback, own.any (·.name == p.name)) : merge own fallback = own := by
  induction fallback with
  | nil => rfl
  | cons p fallback ih =>
      rw [merge_cons, addUnlessNamed_of_named (h p List.mem_cons_self)]
      exact ih fun q hq => h q (List.mem_cons_of_mem _ hq)

theorem merge_merge_self (own fallback : List Property) :
    merge (merge own fallback) fallback = merge own fallback := by
  apply merge_of_named
  intro p hp
  have hnamed : fallback.any (·.name == p.name) := List.any_eq_true.2 ⟨p, hp, beq_self_eq_true _⟩
  rw [any_merge, hnamed, Bool.or_true]

/-- Merging keeps the own properties and adds, in order, the first of each name that they lack. -/
theorem merge_eq (own fallback : List Property) :
    merge own fallback =
      own ++ (fallback.filter fun p => !own.any (·.name == p.name)).eraseDupsBy
        (·.name == ·.name) := by
  induction fallback generalizing own with
  | nil => simp [merge_nil]
  | cons p fallback ih =>
      rw [merge_cons, ih]
      by_cases h : own.any (·.name == p.name)
      · rw [addUnlessNamed_of_named h, List.filter_cons_of_neg (by simp [h])]
      · rw [addUnlessNamed_of_not_named h, List.filter_cons_of_pos (by simpa using h),
          List.eraseDupsBy_cons, List.filter_filter, List.append_assoc, List.singleton_append]
        -- The own list has grown by `p`, so of the rest those named like `p` are dropped as well.
        have hfilter : ∀ q ∈ fallback, (!(own ++ [p]).any (·.name == q.name)) =
            (decide ((q.name == p.name) = false) && !own.any (·.name == q.name)) := by
          intro q _
          rw [List.any_append, Bool.not_or, Bool.and_comm, List.any_cons, List.any_nil,
            Bool.or_false, BEq.comm (a := p.name)]
          cases q.name == p.name <;> rfl
        rw [List.filter_congr hfilter]

end Property

namespace Object

def inheritAll (object : Object) : List Object → Object
  | [] => object
  | base :: bases => object.inherit (inheritAll base bases)

theorem inheritAll_template (object : Object) (bases : List Object) :
    (object.inheritAll bases).template = object.template := by
  cases bases <;> rfl

theorem inherit_inherit_self (object base : Object) :
    (object.inherit base).inherit base = object.inherit base := by
  simp only [inherit, Field.inherit_assoc, Field.inherit_self, Property.merge_merge_self]

theorem inheritAll_inheritAll_self (object : Object) (bases : List Object) :
    (object.inheritAll bases).inheritAll bases = object.inheritAll bases := by
  cases bases with
  | nil => rfl
  | cons base bases => exact inherit_inherit_self object (base.inheritAll bases)

theorem inheritAll_field {α : Type} {field : Object → Option α}
    (h : ∀ a b : Object, field (a.inherit b) = Field.inherit (field a) (field b))
    (object : Object) (bases : List Object) :
    field (object.inheritAll bases) = (object :: bases).findSome? field := by
  induction bases generalizing object with
  | nil => cases hf : field object <;> simp [inheritAll, hf]
  | cons base bases ih =>
      rw [inheritAll, h, ih, List.findSome?_cons (a := object)]
      cases field object <;> rfl

theorem inheritAll_properties (object : Object) (bases : List Object) :
    (object.inheritAll bases).properties =
      Property.merge object.properties (bases.flatMap Object.properties) := by
  induction bases generalizing object with
  | nil => rfl
  | cons base bases ih =>
      rw [List.flatMap_cons, Property.merge_append, Property.merge_assoc, ← ih base]
      rfl

/-- What an object is after it has inherited from its templates, the nearest first. -/
structure NearestWins (object : Object) (templates : List Object) (resolved : Object) : Prop where
  id : resolved.id = (object :: templates).findSome? Object.id
  name : resolved.name = (object :: templates).findSome? Object.name
  type : resolved.type = (object :: templates).findSome? Object.type
  gid : resolved.gid = (object :: templates).findSome? Object.gid
  x : resolved.x = (object :: templates).findSome? Object.x
  y : resolved.y = (object :: templates).findSome? Object.y
  width : resolved.width = (object :: templates).findSome? Object.width
  height : resolved.height = (object :: templates).findSome? Object.height
  rotation : resolved.rotation = (object :: templates).findSome? Object.rotation
  visible : resolved.visible = (object :: templates).findSome? Object.visible
  ellipse : resolved.ellipse = (object :: templates).findSome? Object.ellipse
  polygon : resolved.polygon = (object :: templates).findSome? Object.polygon
  polyline : resolved.polyline = (object :: templates).findSome? Object.polyline
  template : resolved.template = object.template
  properties : resolved.properties = object.properties ++
    ((templates.flatMap Object.properties).filter fun p =>
      !object.properties.any (·.name == p.name)).eraseDupsBy (·.name == ·.name)

theorem nearestWins_inheritAll (object : Object) (templates : List Object) :
    object.NearestWins templates (object.inheritAll templates) where
  id := inheritAll_field (fun _ _ => rfl) object templates
  name := inheritAll_field (fun _ _ => rfl) object templates
  type := inheritAll_field (fun _ _ => rfl) object templates
  gid := inheritAll_field (fun _ _ => rfl) object templates
  x := inheritAll_field (fun _ _ => rfl) object templates
  y := inheritAll_field (fun _ _ => rfl) object templates
  width := inheritAll_field (fun _ _ => rfl) object templates
  height := inheritAll_field (fun _ _ => rfl) object templates
  rotation := inheritAll_field (fun _ _ => rfl) object templates
  visible := inheritAll_field (fun _ _ => rfl) object templates
  ellipse := inheritAll_field (fun _ _ => rfl) object templates
  polygon := inheritAll_field (fun _ _ => rfl) object templates
  polyline := inheritAll_field (fun _ _ => rfl) object templates
  template := inheritAll_template object templates
  properties := by rw [inheritAll_properties, Property.merge_eq]

end Object

end TileKiln
