import TileKiln.Proofs.AlikeHosts
import TileKiln.Proofs.Assembled

namespace TileKiln

variable {σ α β : Type}

namespace Work

def failureOf : Except BakeError α → Option BakeError
  | .ok _ => none
  | .error e => some e

def EndsIn (work : Work σ α) (failure : Option BakeError) : Prop :=
  ∀ s, (work s).1.failure = failure

variable {work : Work σ α} {failure other : Option BakeError}

theorem endsIn_done (a : α) : (done a : Work σ α).EndsIn none := fun _ => rfl

theorem endsIn_step {a : α} {next : Bake σ α}
    (h : ∀ s, failureOf (next.run.run s).1 = failure) : (step a next).EndsIn failure := by
  intro s
  rw [← h s, step]
  split
  next hnext => rw [hnext]; rfl
  next hnext => rw [hnext]; rfl

theorem EndsIn.part (h : work.EndsIn failure) (whole : α → β) :
    (part whole work).EndsIn failure := h

theorem EndsIn.within (h : work.EndsIn failure) (place : BakeError → BakeError) :
    (within place work).EndsIn (failure.map (BakeError.within place)) :=
  fun s => congrArg (Option.map (BakeError.within place)) (h s)

theorem EndsIn.cons {next : Work σ (List α)} (h : work.EndsIn failure) (hnext : next.EndsIn other)
    (others : List α) : (cons work others next).EndsIn (failure.or other) := by
  intro s
  rw [← h s, Work.cons]
  rcases work s with ⟨⟨a, _ | e⟩, s₁⟩
  · exact hnext s₁
  · rfl

theorem endsIn_each {work : α → Work σ α} {failure : α → Option BakeError}
    (h : ∀ a, (work a).EndsIn (failure a)) (as : List α) :
    (each work as).EndsIn (as.findSome? failure) := by
  induction as with
  | nil => exact endsIn_done []
  | cons a as ih =>
      rw [each, List.findSome?_cons]
      have hcons := (h a).cons ih as
      cases hfirst : failure a <;> simpa [hfirst] using hcons

end Work

def BakeError.inLayers (names : List String) (e : BakeError) : BakeError :=
  names.foldr (fun name => within (.inLayer name)) e

theorem BakeError.foldr_inLayer_ne {e : BakeError} (h : e ≠ .decode .overflow)
    (names : List String) : names.foldr .inLayer e ≠ .decode .overflow := by
  cases names with
  | nil => exact h
  | cons => exact BakeError.noConfusion

theorem BakeError.inLayers_of_ne {e : BakeError} (h : e ≠ .decode .overflow) (names : List String) :
    e.inLayers names = names.foldr .inLayer e := by
  induction names with
  | nil => rfl
  | cons name names ih =>
      change within (.inLayer name) (e.inLayers names) = _
      rw [ih, within_of_ne (foldr_inLayer_ne h names), List.foldr_cons]

theorem BakeError.inLayers_overflow (names : List String) :
    inLayers names (.decode .overflow) = .decode .overflow := by
  induction names with
  | nil => rfl
  | cons name names ih => exact congrArg (within (.inLayer name)) ih

def Object.failure? (answers : Answers) (around : Surroundings) (o : Object) : Option BakeError :=
  (o.resolveInPlace (Assembly.templates answers.host around) ()).1.failure

namespace Layer

mutual

/-- The layers that hold no others, in document order, each with the names on the way down to it. -/
def leaves : Layer → List (List String × Layer)
  | .group head members =>
    (leavesAmong members).map fun (names, leaf) => (head.name :: names, leaf)
  | .tiles head grid => [([head.name], .tiles head grid)]
  | .image head picture => [([head.name], .image head picture)]
  | .objects head items => [([head.name], .objects head items)]

def leavesAmong : List Layer → List (List String × Layer)
  | [] => []
  | l :: ls => l.leaves ++ leavesAmong ls

end

variable (answers : Answers) (around : Surroundings)

def failure? : Layer → Option BakeError
  | .tiles _ grid => Work.failureOf ((grid.data.decode grid.width grid.height).mapError .decode)
  | .image _ picture => picture.image.bind fun image => Work.failureOf (answers.image image.source)
  | .objects _ items =>
    items.findSome? fun o => (o.failure? answers around).map (.within (.inObject o.label))
  | .group _ _ => none

def failureAmong (leaves : List (List String × Layer)) : Option BakeError :=
  leaves.findSome? fun (names, leaf) =>
    (leaf.failure? answers around).map (.inLayers names)

theorem failureAmong_below (name : String) (leaves : List (List String × Layer)) :
    failureAmong answers around (leaves.map fun (names, leaf) => (name :: names, leaf)) =
      (failureAmong answers around leaves).map (.within (.inLayer name)) := by
  rw [failureAmong, failureAmong, List.findSome?_map, List.map_findSome?]
  apply congrArg (List.findSome? · leaves)
  funext ⟨names, leaf⟩
  simp only [Function.comp_apply, Option.map_map]
  rfl

theorem failureAmong_singleton (name : String) (leaf : Layer) :
    failureAmong answers around [([name], leaf)] =
      (leaf.failure? answers around).map (.within (.inLayer name)) := by
  cases h : leaf.failure? answers around <;> simp [failureAmong, BakeError.inLayers, h]

variable {answers around}

/-- A layer that holds no others cannot be assembled, even by itself. A layer of objects fails with
the first of them that cannot be resolved, under the label that this object has as authored. -/
inductive FailsWith (answers : Answers) (around : Surroundings) : Layer → BakeError → Prop
  | tiles (head : LayerHead) (grid : TileGrid) (e : DecodeError)
      (hcells : grid.data.decode grid.width grid.height = .error e) :
      FailsWith answers around (.tiles head grid) (.decode e)
  | image (head : LayerHead) (picture : Picture) (image : Image) (e : BakeError)
      (himage : picture.image = some image) (hanswer : answers.image image.source = .error e) :
      FailsWith answers around (.image head picture) e
  | objects (head : LayerHead) (before : List Object) (o : Object) (after : List Object)
      (e : BakeError) (hbefore : ∀ o' ∈ before, o'.failure? answers around = none)
      (ho : o.failure? answers around = some e) :
      FailsWith answers around (.objects head (before ++ o :: after)) (e.within (.inObject o.label))

theorem failsWith_iff {l : Layer} {e : BakeError} :
    l.FailsWith answers around e ↔ l.failure? answers around = some e := by
  constructor
  · intro h
    cases h with
    | tiles head grid e hcells => rw [failure?, hcells]; rfl
    | image head picture image e himage hanswer => rw [failure?, himage, Option.bind_some, hanswer]; rfl
    | objects head before o after e hbefore ho =>
        rw [failure?, List.findSome?_eq_some_iff]
        refine ⟨before, o, after, rfl, by rw [ho]; rfl, fun o' ho' => ?_⟩
        rw [hbefore o' ho']
        rfl
  · intro h
    cases l with
    | tiles head grid =>
        rw [failure?] at h
        cases hcells : grid.data.decode grid.width grid.height with
        | ok cells =>
            rw [hcells] at h
            cases h
        | error cause =>
            rw [hcells] at h
            cases h
            exact .tiles head grid cause hcells
    | image head picture =>
        obtain ⟨image, himage, h⟩ := Option.bind_eq_some_iff.1 h
        cases hanswer : answers.image image.source with
        | ok source =>
            rw [hanswer] at h
            cases h
        | error cause =>
            rw [hanswer] at h
            cases h
            exact .image head picture image _ himage hanswer
    | objects head items =>
        rw [failure?, List.findSome?_eq_some_iff] at h
        obtain ⟨before, o, after, rfl, ho, hbefore⟩ := h
        obtain ⟨cause, hcause, rfl⟩ := Option.map_eq_some_iff.1 ho
        refine .objects head before o after cause (fun o' ho' => ?_) hcause
        exact Option.map_eq_none_iff.1 (hbefore o' ho')
    | group head members => cases h

def FirstFails (answers : Answers) (around : Surroundings) (ls : List Layer) (names : List String)
    (cause : BakeError) : Prop :=
  ∃ before leaf after, leavesAmong ls = before ++ (names, leaf) :: after ∧
    leaf.FailsWith answers around cause ∧
    ∀ entry ∈ before, ∀ e, ¬ entry.2.FailsWith answers around e

theorem firstFails_of_failureAmong {ls : List Layer} {e : BakeError}
    (h : failureAmong answers around (leavesAmong ls) = some e) :
    ∃ names cause, FirstFails answers around ls names cause ∧ e = cause.inLayers names := by
  rw [failureAmong, List.findSome?_eq_some_iff] at h
  obtain ⟨before, ⟨names, leaf⟩, after, hleaves, hleaf, hbefore⟩ := h
  obtain ⟨cause, hcause, rfl⟩ := Option.map_eq_some_iff.1 hleaf
  refine ⟨names, cause, ⟨before, leaf, after, hleaves, failsWith_iff.2 hcause, ?_⟩, rfl⟩
  intro entry hentry e hfails
  have hnone := Option.map_eq_none_iff.1 (hbefore entry hentry)
  rw [failsWith_iff.1 hfails] at hnone
  cases hnone

end Layer

namespace Assembly

open Work

variable {host : Host σ} {answers : Answers}

theorem alike_of_outcome {τ : Type} {run : σ → α × σ} {run' : τ → α × τ} {a : α}
    (h : ∀ s, (run s).1 = a) (h' : ∀ t, (run' t).1 = a) :
    Alike (fun _ _ => True) run run' :=
  fun s t _ => ⟨a, (run s).2, (run' t).2, Prod.ext (h s) rfl, Prod.ext (h' t) rfl, trivial⟩

theorem alike_of_gives (h : host.Gives answers) : host.Alike (fun _ _ => True) answers.host where
  tileset path := alike_of_outcome (h.tileset path) (answers.host_gives.tileset path)
  template path := alike_of_outcome (h.template path) (answers.host_gives.template path)
  image path := alike_of_outcome (h.image path) (answers.host_gives.image path)
  dependency _ := alike_of_outcome (fun _ => rfl) fun _ => rfl
  log _ _ := alike_of_outcome (fun _ => rfl) fun _ => rfl

theorem object_endsIn (h : host.Gives answers) (around : Surroundings) (o : Object) :
    (object host around o).EndsIn
      ((o.failure? answers around).map (.within (.inObject o.label))) := by
  refine EndsIn.within ?_ _
  intro s
  have halike : Alike (fun _ _ => True) (o.resolveInPlace (templates host around))
      (o.resolveInPlace (templates answers.host around)) :=
    o.alike_resolveInPlace (alike_fetchTemplate (alike_of_gives h) around)
  obtain ⟨progress, s', t', hrun, hrun', _⟩ := halike (s := s) (t := ()) trivial
  rw [Object.failure?, hrun, hrun']

theorem image_endsIn (h : host.Gives answers) (image : Option Image) :
    (Assembly.image host image).EndsIn
      (image.bind fun image => failureOf (answers.image image.source)) := by
  cases image with
  | none => exact endsIn_done none
  | some image =>
      refine (endsIn_step fun s => ?_).part some
      have hanswer : (host.resolveImage image.source s).1 = answers.image image.source :=
        h.image image.source s
      change failureOf ((host.resolveImage image.source >>= fun source =>
        (pure { image with source } : Bake σ Image)) s).1 = failureOf (answers.image image.source)
      rw [run_bind, ← hanswer]
      rcases host.resolveImage image.source s with ⟨_ | _, _⟩ <;> rfl

theorem grid_endsIn (host : Host σ) (around : Surroundings) (name : String) (g : TileGrid) :
    (grid host around name g).EndsIn
      (failureOf ((g.data.decode g.width g.height).mapError .decode)) := by
  refine endsIn_step fun s => ?_
  cases g.data.decode g.width g.height <;> rfl

mutual

theorem layer_endsIn (h : host.Gives answers) (around : Surroundings) : (l : Layer) →
    (layer host around l).EndsIn (Layer.failureAmong answers around l.leaves)
  | .tiles head g => by
      rw [layer, Layer.leaves, Layer.failureAmong_singleton]
      exact ((grid_endsIn host around head.name g).part _).within _
  | .image head picture => by
      rw [layer, Layer.leaves, Layer.failureAmong_singleton]
      exact ((image_endsIn h picture.image).part _).within _
  | .objects head items => by
      rw [layer, Layer.leaves, Layer.failureAmong_singleton]
      exact ((endsIn_each (object_endsIn h around) items).part _).within _
  | .group head members => by
      rw [layer, Layer.leaves, Layer.failureAmong_below]
      exact ((layers_endsIn h around members).part _).within _

theorem layers_endsIn (h : host.Gives answers) (around : Surroundings) : (ls : List Layer) →
    (layers host around ls).EndsIn (Layer.failureAmong answers around (Layer.leavesAmong ls))
  | [] => by
      rw [layers]
      exact endsIn_done []
  | l :: ls => by
      rw [layers, Layer.leavesAmong, Layer.failureAmong, List.findSome?_append]
      exact (layer_endsIn h around l).cons (layers_endsIn h around ls) ls

end

end Assembly

end TileKiln
