import TileKiln.Path

namespace TileKiln.Path

variable {path dir reference c : String} {names : List String} {isRoot : Bool} {sep char : Char}

structure IsName (c : String) : Prop where
  ne_empty : c ≠ ""
  ne_here : c ≠ "."
  ne_up : c ≠ ".."
  no_slash : '/' ∉ c.toList
  no_backslash : '\\' ∉ c.toList

/-- Names between single slashes, perhaps behind a slash in front; nothing at all is `.`. -/
inductive IsNormal : String → Prop
  | here : IsNormal "."
  | relative {names : List String} (hne : names ≠ []) (h : ∀ c ∈ names, IsName c) :
      IsNormal ("/".intercalate names)
  | rooted {names : List String} (h : ∀ c ∈ names, IsName c) :
      IsNormal ("/" ++ "/".intercalate names)

structure IsComponent (c : String) : Prop where
  ne_empty : c ≠ ""
  ne_here : c ≠ "."
  no_slash : '/' ∉ c.toList

theorem IsName.isComponent (h : IsName c) : IsComponent c :=
  ⟨h.ne_empty, h.ne_here, h.no_slash⟩

theorem of_mem_splitOn {cs part : List Char} (h : part ∈ cs.splitOn sep) :
    sep ∉ part ∧ part ⊆ cs := by
  induction cs generalizing part with
  | nil =>
      rw [List.splitOn_nil, List.mem_singleton] at h
      rw [h]
      exact ⟨List.not_mem_nil, List.nil_subset _⟩
  | cons c cs ih =>
      rw [List.splitOn_cons_eq_if_modifyHead] at h
      split at h
      next =>
        rcases List.mem_cons.1 h with rfl | h
        · exact ⟨List.not_mem_nil, List.nil_subset _⟩
        · exact ⟨(ih h).1, List.subset_cons_of_subset c (ih h).2⟩
      next hsep =>
        cases hsplit : cs.splitOn sep with
        | nil => exact absurd hsplit (List.splitOn_ne_nil sep cs)
        | cons first others =>
            rw [hsplit, List.modifyHead_cons] at h
            rcases List.mem_cons.1 h with rfl | h
            · obtain ⟨hfirst, hsub⟩ := ih (hsplit ▸ List.mem_cons_self)
              refine ⟨?_, List.cons_subset_cons c hsub⟩
              rw [List.mem_cons, not_or]
              exact ⟨fun hc => hsep (by rw [hc, beq_self_eq_true]), hfirst⟩
            · obtain ⟨hpart, hsub⟩ := ih (hsplit ▸ List.mem_cons_of_mem first h)
              exact ⟨hpart, List.subset_cons_of_subset c hsub⟩

theorem of_mem_intercalate {parts : List (List Char)} (h : char ∈ [sep].intercalate parts) :
    char = sep ∨ ∃ part ∈ parts, char ∈ part := by
  induction parts with
  | nil => cases h
  | cons part parts ih =>
      by_cases hne : parts = []
      · rw [hne, List.intercalate_singleton] at h
        exact .inr ⟨part, List.mem_cons_self, h⟩
      · rw [List.intercalate_cons_of_ne_nil hne, List.append_assoc, List.mem_append,
          List.mem_append, List.mem_singleton] at h
        rcases h with h | h | h
        · exact .inr ⟨part, List.mem_cons_self, h⟩
        · exact .inl h
        · exact (ih h).imp_right fun ⟨other, hother, hchar⟩ =>
            ⟨other, List.mem_cons_of_mem part hother, hchar⟩

theorem of_mem_components (h : c ∈ components path) :
    IsComponent c ∧ c.toList ⊆ path.toList := by
  obtain ⟨hc, hkept⟩ := List.mem_filter.1 h
  obtain ⟨part, hpart, rfl⟩ := List.mem_map.1 hc
  simp only [Bool.and_eq_true, bne_iff_ne] at hkept
  obtain ⟨hslash, hsub⟩ := of_mem_splitOn hpart
  rw [← String.toList_ofList (l := part)] at hslash hsub
  exact ⟨⟨hkept.1, hkept.2, hslash⟩, hsub⟩

theorem components_eq_filter (hsplit : path.toList.splitOn '/' = names.map String.toList) :
    components path = names.filter fun c => c != "" && c != "." := by
  rw [components, hsplit, List.map_map]
  congr 1
  simp [Function.comp_def]

theorem filter_components (h : ∀ c ∈ names, IsComponent c) :
    (names.filter fun c => c != "" && c != ".") = names := by
  rw [List.filter_eq_self]
  intro c hc
  rw [Bool.and_eq_true, bne_iff_ne, bne_iff_ne]
  exact ⟨(h c hc).ne_empty, (h c hc).ne_here⟩

theorem splitOn_intercalate (h : ∀ c ∈ names, IsComponent c) (hne : names ≠ []) :
    ("/".intercalate names).toList.splitOn '/' = names.map String.toList := by
  rw [String.toList_intercalate]
  refine List.splitOn_intercalate '/' ?_ (by simpa using hne)
  intro part hpart
  obtain ⟨c, hc, rfl⟩ := List.mem_map.1 hpart
  exact (h c hc).no_slash

theorem intercalate_ne_empty (h : ∀ c ∈ names, IsComponent c) (hne : names ≠ []) :
    "/".intercalate names ≠ "" := by
  intro hempty
  have hsplit := splitOn_intercalate h hne
  rw [hempty] at hsplit
  obtain ⟨c, hc⟩ := List.exists_mem_of_ne_nil names hne
  have hmem : c.toList ∈ ("".toList.splitOn '/') := hsplit ▸ List.mem_map_of_mem hc
  rw [String.toList_empty, List.splitOn_nil, List.mem_singleton] at hmem
  exact (h c hc).ne_empty (String.toList_eq_nil_iff.1 hmem)

theorem render_relative (h : ∀ c ∈ names, IsComponent c) (hne : names ≠ []) :
    render false names = "/".intercalate names := by
  simp [render, intercalate_ne_empty h hne]

theorem render_rooted (names : List String) : render true names = "/" ++ "/".intercalate names := by
  simp [render]

theorem isRooted_iff : isRooted path = true ↔ ∃ rest, path.toList = '/' :: rest := by
  rw [isRooted, String.startsWith_string_iff]
  exact ⟨fun ⟨rest, h⟩ => ⟨rest, h.symm⟩, fun ⟨rest, h⟩ => ⟨rest, h.symm⟩⟩

theorem isRooted_render (h : ∀ c ∈ names, IsComponent c) :
    isRooted (render isRoot names) = isRoot := by
  cases isRoot with
  | true =>
      rw [isRooted_iff, render_rooted, String.toList_append]
      exact ⟨_, rfl⟩
  | false =>
      rw [Bool.eq_false_iff, Ne, isRooted_iff]
      rintro ⟨rest, hrest⟩
      by_cases hne : names = []
      · subst hne
        cases hrest
      · rw [render_relative h hne] at hrest
        have hsplit := splitOn_intercalate h hne
        rw [hrest, ← List.nil_append ('/' :: rest), List.splitOn_append_cons_self_of_not_mem
          List.not_mem_nil] at hsplit
        obtain ⟨c, others, rfl, hc, _⟩ := List.map_eq_cons_iff.1 hsplit.symm
        exact (h c List.mem_cons_self).ne_empty (String.toList_eq_nil_iff.1 hc)

theorem components_render (h : ∀ c ∈ names, IsComponent c) :
    components (render isRoot names) = names := by
  by_cases hne : names = []
  · subst hne
    cases isRoot <;> rfl
  · have hsplit := splitOn_intercalate h hne
    cases isRoot with
    | false =>
        rw [render_relative h hne, components_eq_filter hsplit, filter_components h]
    | true =>
        have hroot : (render true names).toList.splitOn '/' =
            ("" :: names).map String.toList := by
          rw [render_rooted, String.toList_append, List.map_cons, ← hsplit]
          exact List.splitOn_append_cons_self_of_not_mem List.not_mem_nil _
        rw [components_eq_filter hroot, List.filter_cons_of_neg (by decide), filter_components h]

theorem foldl_collapse (h : ∀ c ∈ names, c ≠ "..") (above : List String) :
    names.foldl (fun above c => if c == ".." then above.tail else c :: above) above =
      names.reverse ++ above := by
  induction names generalizing above with
  | nil => rfl
  | cons c names ih =>
      obtain ⟨hc, hnames⟩ := List.forall_mem_cons.1 h
      rw [List.foldl_cons, if_neg (by simpa using hc), ih hnames, List.reverse_cons,
        List.append_assoc, List.singleton_append]

theorem collapse_eq_self (h : ∀ c ∈ names, c ≠ "..") : collapse names = names := by
  rw [collapse, foldl_collapse h, List.append_nil, List.reverse_reverse]

theorem mem_foldl_collapse {above : List String} (h : c ∈ names.foldl
      (fun above c => if c == ".." then above.tail else c :: above) above) :
    c ∈ above ∨ c ∈ names ∧ c ≠ ".." := by
  induction names generalizing above with
  | nil => exact .inl h
  | cons first names ih =>
      rw [List.foldl_cons] at h
      rcases ih h with habove | ⟨hc, hup⟩
      · split at habove
        next => exact .inl (List.mem_of_mem_tail habove)
        next hfirst =>
          rcases List.mem_cons.1 habove with rfl | habove
          · exact .inr ⟨List.mem_cons_self, by simpa using hfirst⟩
          · exact .inl habove
      · exact .inr ⟨List.mem_cons_of_mem first hc, hup⟩

theorem of_mem_collapse (h : c ∈ collapse names) : c ∈ names ∧ c ≠ ".." := by
  rcases mem_foldl_collapse (List.mem_reverse.1 h) with hnil | hc
  · exact absurd hnil List.not_mem_nil
  · exact hc

theorem forwardSlashes_eq_self (h : '\\' ∉ path.toList) : forwardSlashes path = path := by
  have hsame : path.toList.map (fun c => if c == '\\' then '/' else c) = path.toList.map id := by
    refine List.map_congr_left fun c hc => if_neg ?_
    intro hbackslash
    exact h (beq_iff_eq.1 hbackslash ▸ hc)
  rw [forwardSlashes, hsame, List.map_id, String.ofList_toList]

theorem backslash_not_mem_forwardSlashes (path : String) :
    '\\' ∉ (forwardSlashes path).toList := by
  rw [forwardSlashes, String.toList_ofList]
  intro h
  obtain ⟨c, _, hc⟩ := List.mem_map.1 h
  split at hc
  next => cases hc
  next hne => exact hne (by simpa using hc)

theorem backslash_not_mem_intercalate (h : ∀ c ∈ names, IsName c) :
    '\\' ∉ ("/".intercalate names).toList := by
  rw [String.toList_intercalate]
  intro hmem
  rcases of_mem_intercalate hmem with hsep | ⟨part, hpart, hbackslash⟩
  · cases hsep
  · obtain ⟨c, hc, rfl⟩ := List.mem_map.1 hpart
    exact (h c hc).no_backslash hbackslash

theorem isNormal_render (h : ∀ c ∈ names, IsName c) : IsNormal (render isRoot names) := by
  cases isRoot with
  | true => exact render_rooted names ▸ .rooted h
  | false =>
      by_cases hne : names = []
      · subst hne
        exact .here
      · exact render_relative (fun c hc => (h c hc).isComponent) hne ▸ .relative hne h

theorem IsNormal.exists_render (h : IsNormal path) :
    ∃ isRoot names, (∀ c ∈ names, IsName c) ∧ path = render isRoot names := by
  cases h with
  | here => exact ⟨false, [], by simp, rfl⟩
  | relative hne h =>
      exact ⟨false, _, h, (render_relative (fun c hc => (h c hc).isComponent) hne).symm⟩
  | rooted h => exact ⟨true, _, h, (render_rooted _).symm⟩

theorem IsNormal.backslash_not_mem (h : IsNormal path) : '\\' ∉ path.toList := by
  cases h with
  | here => decide
  | relative _ h => exact backslash_not_mem_intercalate h
  | rooted h =>
      rw [String.toList_append, List.mem_append, not_or]
      exact ⟨by decide, backslash_not_mem_intercalate h⟩

def join (dir reference : String) : String :=
  if isRooted reference || dir == "" then reference else dir ++ "/" ++ reference

theorem resolve_eq (dir reference : String) :
    resolve dir reference = forwardSlashes
      (render (isRooted (join dir reference)) (collapse (components (join dir reference)))) := rfl

theorem render_ne_empty (isRoot : Bool) (names : List String) : render isRoot names ≠ "" := by
  cases isRoot with
  | true => simp [render]
  | false =>
      dsimp only [render]
      rw [if_neg Bool.false_ne_true]
      split
      next => decide
      next hbody => simpa using hbody

theorem resolve_ne_empty (dir reference : String) : resolve dir reference ≠ "" := by
  rw [resolve_eq, Ne, ← String.toList_eq_nil_iff, forwardSlashes, String.toList_ofList,
    List.map_eq_nil_iff, String.toList_eq_nil_iff]
  exact render_ne_empty _ _

theorem resolve_empty (path : String) :
    resolve "" path = forwardSlashes (render (isRooted path) (collapse (components path))) := by
  have hjoin : join "" path = path := if_pos (by simp)
  rw [resolve_eq, hjoin]

theorem backslash_not_mem_join (hdir : '\\' ∉ dir.toList) (href : '\\' ∉ reference.toList) :
    '\\' ∉ (join dir reference).toList := by
  rw [join]
  split
  · exact href
  · simp only [String.toList_append, List.mem_append, not_or]
    exact ⟨⟨hdir, by decide⟩, href⟩

theorem isNormal_resolve (hdir : '\\' ∉ dir.toList) (href : '\\' ∉ reference.toList) :
    IsNormal (resolve dir reference) := by
  have hnames : ∀ c ∈ collapse (components (join dir reference)), IsName c := by
    intro c hc
    obtain ⟨hc, hup⟩ := of_mem_collapse hc
    obtain ⟨hcomponent, hsub⟩ := of_mem_components hc
    exact ⟨hcomponent.ne_empty, hcomponent.ne_here, hup, hcomponent.no_slash,
      fun h => backslash_not_mem_join hdir href (hsub h)⟩
  have hnormal : IsNormal (render (isRooted (join dir reference))
      (collapse (components (join dir reference)))) := isNormal_render hnames
  rw [resolve_eq, forwardSlashes_eq_self hnormal.backslash_not_mem]
  exact hnormal

theorem IsNormal.resolve_eq_self (h : IsNormal path) : resolve "" path = path := by
  have hslashes := forwardSlashes_eq_self h.backslash_not_mem
  obtain ⟨isRoot, names, hnames, rfl⟩ := h.exists_render
  have hcomponents : ∀ c ∈ names, IsComponent c := fun c hc => (hnames c hc).isComponent
  rw [resolve_empty, isRooted_render hcomponents, components_render hcomponents,
    collapse_eq_self fun c hc => (hnames c hc).ne_up, hslashes]

theorem isNormal_resolve_resolve (dir reference : String) :
    IsNormal (resolve "" (resolve dir reference)) :=
  isNormal_resolve (by decide) (backslash_not_mem_forwardSlashes _)

/-- A reference without backslashes is resolved to a path in normal form. Any other is after it has
been resolved a second time, and the first result is in normal form only if the second changes
nothing about it. -/
theorem normal_of_resolve (dir reference : String) :
    ('\\' ∉ dir.toList → '\\' ∉ reference.toList → IsNormal (resolve dir reference)) ∧
    IsNormal (resolve "" (resolve dir reference)) ∧
    (resolve "" (resolve dir reference) = resolve dir reference ↔
      IsNormal (resolve dir reference)) := by
  refine ⟨isNormal_resolve, isNormal_resolve_resolve dir reference, ?_, IsNormal.resolve_eq_self⟩
  intro h
  rw [← h]
  exact isNormal_resolve_resolve dir reference

theorem normal_of_resolve_sample :
    ('\\' ∉ "maps/deep".toList ∧ '\\' ∉ ".././/tiles/cave.tsx".toList) ∧
    resolve "maps/deep" ".././/tiles/cave.tsx" = "maps/tiles/cave.tsx" ∧
    IsNormal (resolve "maps/deep" ".././/tiles/cave.tsx") ∧
    resolve "" (resolve "maps/deep" ".././/tiles/cave.tsx") =
      resolve "maps/deep" ".././/tiles/cave.tsx" := by
  have hdir : '\\' ∉ "maps/deep".toList := by decide
  have href : '\\' ∉ ".././/tiles/cave.tsx".toList := by decide
  obtain ⟨hnormal, _, hagain⟩ := normal_of_resolve "maps/deep" ".././/tiles/cave.tsx"
  exact ⟨⟨hdir, href⟩, by decide +kernel, hnormal hdir href, hagain.2 (hnormal hdir href)⟩

/-- One file under two names: the backslash becomes a slash when it is too late for the `..`. -/
theorem not_normal_of_backslash :
    resolve "maps" "../cave.tsx" = "cave.tsx" ∧
    resolve "maps" "..\\cave.tsx" = "maps/../cave.tsx" ∧
    resolve "" (resolve "maps" "..\\cave.tsx") = "cave.tsx" ∧
    ¬ IsNormal (resolve "maps" "..\\cave.tsx") := by
  obtain ⟨hslash, hfirst, hagain⟩ : resolve "maps" "../cave.tsx" = "cave.tsx" ∧
      resolve "maps" "..\\cave.tsx" = "maps/../cave.tsx" ∧
      resolve "" "maps/../cave.tsx" = "cave.tsx" := by decide +kernel
  rw [hfirst]
  refine ⟨hslash, rfl, hagain, ?_⟩
  intro hnormal
  rw [hnormal.resolve_eq_self] at hagain
  exact absurd hagain (by decide)

end TileKiln.Path
