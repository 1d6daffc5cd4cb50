import TileKiln.Proofs.GidRanges

namespace TileKiln

/-- A stable sort does not move elements past each other that may stand in any order. -/
theorem filter_mergeSort {α : Type} {le : α → α → Bool} {p : α → Bool}
    (trans : ∀ a b c, le a b → le b c → le a c) (total : ∀ a b, le a b || le b a)
    (hp : ∀ a b, p a → p b → le a b) (as : List α) : (as.mergeSort le).filter p = as.filter p := by
  have hsorted : (as.filter p).Pairwise fun a b => le a b := by
    rw [List.pairwise_iff_forall_sublist]
    intro a b hab
    have ha := hab.subset List.mem_cons_self
    have hb := hab.subset (List.mem_cons_of_mem a List.mem_cons_self)
    exact hp a b (List.mem_filter.1 ha).2 (List.mem_filter.1 hb).2
  have hkept := (List.sublist_mergeSort trans total hsorted List.filter_sublist).filter p
  rw [List.filter_filter] at hkept
  simp only [Bool.and_self] at hkept
  exact (hkept.eq_of_length ((List.mergeSort_perm as le).filter p).length_eq.symm).symm

theorem pair_sublist_filter_iff {α : Type} {p : α → Bool} {a b : α} (ha : p a) (hb : p b)
    {as : List α} : [a, b].Sublist (as.filter p) ↔ [a, b].Sublist as := by
  constructor
  · intro h
    exact h.trans List.filter_sublist
  · intro h
    have hkept := h.filter p
    rwa [List.filter_cons_of_pos ha, List.filter_cons_of_pos hb] at hkept

namespace Tileset

variable {a b : Tileset} {tilesets : List Tileset}

theorem checkNeighbours_eq_ok_iff :
    checkNeighbours tilesets = .ok () ↔ tilesets.IsChain Precedes := by
  constructor
  · exact chain_of_checkNeighbours
  · intro h
    induction h with
    | nil => rfl
    | singleton first => rfl
    | cons_cons hfirst _ ih =>
        rw [checkNeighbours, if_neg (UInt32.not_lt.2 hfirst)]
        exact ih

theorem pair_of_checkNeighbours {e : BakeError} (h : checkNeighbours tilesets = .error e) :
    ∃ a b, [a, b].Sublist tilesets ∧ b.firstGid < a.gidEnd ∧ e = .overlap a.label b.label := by
  induction tilesets with
  | nil => cases h
  | cons first rest ih =>
      cases rest with
      | nil => cases h
      | cons second rest =>
          rw [checkNeighbours] at h
          split at h
          next hsecond =>
            cases h
            exact ⟨first, second, List.sublist_append_left [first, second] rest, hsecond, rfl⟩
          next =>
            obtain ⟨a, b, hab, hclash⟩ := ih h
            exact ⟨a, b, hab.cons first, hclash⟩

def Staggered (a b : Tileset) : Prop :=
  (a.firstGid < b.firstGid → a.Precedes b) ∧ (b.firstGid < a.firstGid → b.Precedes a)

theorem Staggered.symm (h : a.Staggered b) : b.Staggered a := And.symm h

/-- How two tilesets lie of which the check has nothing to say if `a` is listed before `b`. -/
structure Clear (a b : Tileset) : Prop where
  staggered : a.Staggered b
  level : a.firstGid = b.firstGid → a.Precedes b

theorem precedes_iff_clear (hab : a.firstGid ≤ b.firstGid) : a.Precedes b ↔ a.Clear b := by
  constructor
  · intro h
    exact ⟨⟨fun _ => h, fun hba => absurd hab (UInt32.not_le.2 hba)⟩, fun _ => h⟩
  · intro h
    rcases UInt32.lt_or_eq_of_le hab with hlt | heq
    · exact h.staggered.1 hlt
    · exact h.level heq

theorem trans_firstGid (a b c : Tileset) (hab : decide (a.firstGid ≤ b.firstGid))
    (hbc : decide (b.firstGid ≤ c.firstGid)) : decide (a.firstGid ≤ c.firstGid) :=
  decide_eq_true (UInt32.le_trans (of_decide_eq_true hab) (of_decide_eq_true hbc))

theorem total_firstGid (a b : Tileset) :
    decide (a.firstGid ≤ b.firstGid) || decide (b.firstGid ≤ a.firstGid) := by
  simpa using UInt32.le_total a.firstGid b.firstGid

/-- Of tilesets that begin at one id, sorting keeps the order. -/
theorem pair_sublist_mergeSort_iff (hab : a.firstGid = b.firstGid) :
    [a, b].Sublist (tilesets.mergeSort fun a b => a.firstGid ≤ b.firstGid) ↔
      [a, b].Sublist tilesets := by
  have hsame : (tilesets.mergeSort fun a b => a.firstGid ≤ b.firstGid).filter
      (fun c => c.firstGid == a.firstGid) = tilesets.filter fun c => c.firstGid == a.firstGid := by
    refine filter_mergeSort trans_firstGid total_firstGid ?_ tilesets
    intro c d hc hd
    rw [decide_eq_true_eq, beq_iff_eq.1 hc, beq_iff_eq.1 hd]
    exact UInt32.le_refl _
  have ha : a.firstGid == a.firstGid := beq_self_eq_true _
  have hb : b.firstGid == a.firstGid := beq_iff_eq.2 hab.symm
  have hpair (as : List Tileset) : [a, b].Sublist (as.filter fun c => c.firstGid == a.firstGid) ↔
      [a, b].Sublist as :=
    pair_sublist_filter_iff (p := fun c : Tileset => c.firstGid == a.firstGid) ha hb
  rw [← hpair, hsame, hpair]

/-- The check lets a list through exactly if any two of its tilesets are clear of each other. -/
theorem checkRanges_eq_ok_iff : checkRanges tilesets = .ok () ↔ tilesets.Pairwise Clear := by
  have hperm := List.mergeSort_perm tilesets fun a b => decide (a.firstGid ≤ b.firstGid)
  have hsorted := List.pairwise_mergeSort trans_firstGid total_firstGid tilesets
  have hstaggered : _ ↔ tilesets.Pairwise Staggered := hperm.pairwise_iff Staggered.symm
  rw [checkRanges, checkNeighbours_eq_ok_iff, List.isChain_iff_pairwise]
  rw [List.pairwise_iff_forall_sublist] at hsorted ⊢
  have hclear : ∀ {a b : Tileset},
      [a, b].Sublist (tilesets.mergeSort fun a b => decide (a.firstGid ≤ b.firstGid)) →
        (a.Precedes b ↔ a.Clear b) := fun hab => precedes_iff_clear (of_decide_eq_true (hsorted hab))
  constructor
  · intro h
    have hboth : tilesets.Pairwise Staggered :=
      hstaggered.1 (List.pairwise_iff_forall_sublist.2 fun hab => ((hclear hab).1 (h hab)).staggered)
    rw [List.pairwise_iff_forall_sublist] at hboth ⊢
    intro a b hab
    exact ⟨hboth hab, fun hlevel => h ((pair_sublist_mergeSort_iff hlevel).2 hab)⟩
  · intro h a b hab
    have hboth := hstaggered.2 (h.imp Clear.staggered)
    rw [List.pairwise_iff_forall_sublist] at hboth h
    refine (hclear hab).2 ⟨hboth hab, fun hlevel => ?_⟩
    exact (h ((pair_sublist_mergeSort_iff hlevel).1 hab)).level hlevel

theorem has_firstGid {t : Tileset} (h : t.tileCount ≠ 0) : t.range.Has t.firstGid := by
  have hcount : t.tileCount.toNat ≠ 0 := fun hzero => h (UInt32.toNat_inj.1 hzero)
  simp only [GidRange.Has, range]
  omega

/-- If the ids of `a` are no flip flags, `a` precedes what does not begin before it exactly if that
does not begin at one of them. -/
theorem precedes_iff_not_has (ha : a.checkGids = .ok ()) (hab : a.firstGid ≤ b.firstGid) :
    a.Precedes b ↔ ¬ a.range.Has b.firstGid := by
  have hbelow := below_of_checkGids ha
  have hend := a.toNat_gidEnd
  have hmask : Gid.mask.toNat < UInt32.size - 1 := by decide
  simp only [Precedes, UInt32.le_iff_toNat_le, GidRange.Has, range] at *
  omega

/-- How two tilesets lie, of which `a` is listed before `b`, if none that is empty begins at an id of
the other one, except that `a` may begin where `b` does. -/
structure EmptyOutside (a b : Tileset) : Prop where
  second : b.tileCount = 0 → ¬ a.range.Has b.firstGid
  first : a.tileCount = 0 → b.range.Has a.firstGid → a.firstGid = b.firstGid

theorem Clear.not_has (h : a.Clear b) (ha : a.checkGids = .ok ()) : ¬ a.range.Has b.firstGid := by
  intro hhas
  have hle : a.firstGid ≤ b.firstGid := UInt32.le_iff_toNat_le.2 hhas.1
  exact (precedes_iff_not_has ha hle).1 ((precedes_iff_clear hle).2 h) hhas

theorem Clear.eq_of_has (h : a.Clear b) (hb : b.checkGids = .ok ()) (hhas : b.range.Has a.firstGid) :
    a.firstGid = b.firstGid := by
  have hle : b.firstGid ≤ a.firstGid := UInt32.le_iff_toNat_le.2 hhas.1
  rcases UInt32.lt_or_eq_of_le hle with hlt | heq
  · exact absurd hhas ((precedes_iff_not_has hb hle).1 (h.staggered.2 hlt))
  · exact heq.symm

theorem Clear.apart (h : a.Clear b) (ha : a.checkGids = .ok ()) (hb : b.checkGids = .ok ()) :
    a.range.Apart b.range := by
  rcases UInt32.le_total a.firstGid b.firstGid with hle | hle
  · exact ((precedes_iff_clear hle).2 h).apart ha
  · rcases UInt32.lt_or_eq_of_le hle with hlt | heq
    · exact ((h.staggered.2 hlt).apart hb).symm
    · exact (h.level heq.symm).apart ha

theorem clear_iff (ha : a.checkGids = .ok ()) (hb : b.checkGids = .ok ()) :
    a.Clear b ↔ a.range.Apart b.range ∧ a.EmptyOutside b := by
  constructor
  · intro h
    exact ⟨h.apart ha hb, fun _ => h.not_has ha, fun _ => h.eq_of_has hb⟩
  · rintro ⟨hapart, hempty⟩
    have hbehind : ¬ a.range.Has b.firstGid := by
      by_cases hcount : b.tileCount = 0
      · exact hempty.second hcount
      · exact fun hhas => hapart _ hhas (has_firstGid hcount)
    have hbefore : b.range.Has a.firstGid → a.firstGid = b.firstGid := by
      by_cases hcount : a.tileCount = 0
      · exact hempty.first hcount
      · exact fun hhas => absurd hhas (hapart _ (has_firstGid hcount))
    refine ⟨⟨fun hlt => ?_, fun hlt => ?_⟩, fun heq => ?_⟩
    · exact (precedes_iff_not_has ha (UInt32.le_of_lt hlt)).2 hbehind
    · refine (precedes_iff_not_has hb (UInt32.le_of_lt hlt)).2 fun hhas => ?_
      rw [hbefore hhas] at hlt
      exact UInt32.lt_irrefl _ hlt
    · exact (precedes_iff_not_has ha (UInt32.le_of_eq heq)).2 hbehind

theorem checkRanges_eq_ok_iff_apart (hgids : ∀ tileset ∈ tilesets, tileset.checkGids = .ok ()) :
    checkRanges tilesets = .ok () ↔
      (tilesets.map range).Pairwise GidRange.Apart ∧ tilesets.Pairwise EmptyOutside := by
  rw [checkRanges_eq_ok_iff, List.pairwise_map, ← List.pairwise_and_iff]
  exact List.Pairwise.iff_of_mem fun ha hb => clear_iff (hgids _ ha) (hgids _ hb)

/-- A refusal is about two tilesets, of which one begins at an id of the other. -/
theorem overlap_of_checkRanges (hgids : ∀ tileset ∈ tilesets, tileset.checkGids = .ok ())
    {failure : BakeError} (h : checkRanges tilesets = .error failure) :
    ∃ a b others, tilesets.Perm (a :: b :: others) ∧ failure = .overlap a.label b.label ∧
      a.range.Has b.firstGid := by
  have hperm := List.mergeSort_perm tilesets fun a b => decide (a.firstGid ≤ b.firstGid)
  have hsorted := List.pairwise_mergeSort trans_firstGid total_firstGid tilesets
  obtain ⟨a, b, hab, hclash, rfl⟩ := pair_of_checkNeighbours h
  have hle : a.firstGid ≤ b.firstGid :=
    of_decide_eq_true (List.pairwise_iff_forall_sublist.1 hsorted hab)
  have ha : a ∈ tilesets := hperm.mem_iff.1 (hab.subset List.mem_cons_self)
  have hnot : ¬ a.Precedes b := UInt32.not_le.2 hclash
  rw [precedes_iff_not_has (hgids a ha) hle, not_not] at hnot
  obtain ⟨others, hothers⟩ := hab.exists_perm_append
  exact ⟨a, b, others, hperm.symm.trans hothers, rfl, hnot⟩

/-- The check of ranges refuses every list in which two tilesets share an id. Of the others it
refuses those with an empty tileset that begins at an id of another one, unless it begins with it and
is listed before it. So where no empty tileset begins at an id of another one, it refuses exactly
the lists in which two tilesets share an id, whatever the order. -/
theorem verdict_of_checkRanges (hgids : ∀ tileset ∈ tilesets, tileset.checkGids = .ok ()) :
    (checkRanges tilesets = .ok () ↔
      (tilesets.map range).Pairwise GidRange.Apart ∧ tilesets.Pairwise EmptyOutside) ∧
    ((∀ e ∈ tilesets, e.tileCount = 0 → ∀ t ∈ tilesets, ¬ t.range.Has e.firstGid) →
      ∀ listed : List Tileset, listed.Perm tilesets →
        (checkRanges listed = .ok () ↔ (tilesets.map range).Pairwise GidRange.Apart)) ∧
    ∀ failure, checkRanges tilesets = .error failure →
      ∃ a b others, tilesets.Perm (a :: b :: others) ∧ failure = .overlap a.label b.label ∧
        a.range.Has b.firstGid ∧ (b.tileCount ≠ 0 → b.range.Has b.firstGid) := by
  refine ⟨checkRanges_eq_ok_iff_apart hgids, ?_, ?_⟩
  · intro houtside listed hperm
    have hempty : listed.Pairwise EmptyOutside := by
      rw [List.pairwise_iff_forall_sublist]
      intro a b hab
      have ha := hperm.subset (hab.subset List.mem_cons_self)
      have hb := hperm.subset (hab.subset (List.mem_cons_of_mem a List.mem_cons_self))
      exact ⟨fun hcount => houtside b hb hcount a ha,
        fun hcount hhas => absurd hhas (houtside a ha hcount b hb)⟩
    have hlisted := checkRanges_eq_ok_iff_apart fun t ht => hgids t (hperm.subset ht)
    rw [hlisted, (hperm.map range).pairwise_iff GidRange.Apart.symm]
    exact and_iff_left hempty
  · intro failure h
    obtain ⟨a, b, others, hperm, hfailure, hhas⟩ := overlap_of_checkRanges hgids h
    exact ⟨a, b, others, hperm, hfailure, hhas, has_firstGid⟩

theorem checkRanges_of_sorted (h : tilesets.Pairwise fun a b => decide (a.firstGid ≤ b.firstGid)) :
    checkRanges tilesets = checkNeighbours tilesets := by
  rw [checkRanges, List.mergeSort_of_pairwise h]

def sampleRow : List Tileset :=
  [{ firstGid := 1, tileCount := 4 }, { firstGid := 5, tileCount := 4 }, { firstGid := 9 }]

def sampleCave : Tileset := { name := "cave", firstGid := 3, tileCount := 4 }

def sampleBare : Tileset := { name := "bare", firstGid := 3 }

theorem sample_gids :
    (∀ tileset ∈ sampleRow, tileset.checkGids = .ok ()) ∧
    ∀ tileset ∈ [sampleCave, sampleBare], tileset.checkGids = .ok () := by
  simp only [sampleRow, List.forall_mem_cons]
  exact ⟨⟨rfl, rfl, rfl, fun _ ht => absurd ht List.not_mem_nil⟩, rfl, rfl,
    fun _ ht => absurd ht List.not_mem_nil⟩

/-- The tilesets of the row pass in the other order as well. Behind the cave the empty tileset is
refused, as it begins at an id of the cave. -/
theorem verdict_of_checkRanges_sample :
    (∀ tileset ∈ sampleRow, tileset.checkGids = .ok ()) ∧
    (∀ e ∈ sampleRow, e.tileCount = 0 → ∀ t ∈ sampleRow, ¬ t.range.Has e.firstGid) ∧
    checkRanges sampleRow.reverse = .ok () ∧
    ∃ a b others, [sampleCave, sampleBare].Perm (a :: b :: others) ∧
      checkRanges [sampleCave, sampleBare] = .error (.overlap a.label b.label) ∧
      a.range.Has b.firstGid := by
  have houtside : ∀ e ∈ sampleRow, e.tileCount = 0 → ∀ t ∈ sampleRow, ¬ t.range.Has e.firstGid := by
    decide
  have hrow : checkRanges sampleRow = .ok () := by
    rw [checkRanges_of_sorted (by decide)]
    rfl
  have hcave : checkRanges [sampleCave, sampleBare] = .error (.overlap "cave" "bare") := by
    rw [checkRanges_of_sorted (by decide)]
    rfl
  obtain ⟨hverdict, horder, _⟩ := verdict_of_checkRanges sample_gids.1
  obtain ⟨a, b, others, hperm, hfailure, hhas, _⟩ :=
    (verdict_of_checkRanges sample_gids.2).2.2 _ hcave
  exact ⟨sample_gids.1, houtside,
    (horder houtside _ (List.reverse_perm _)).2 (hverdict.1 hrow).1, a, b, others, hperm,
    hfailure ▸ hcave, hhas⟩

/-- Two tilesets that share no id, as one of them is empty: whether they pass depends on the order
in which they are listed. -/
theorem checkRanges_of_order :
    (∀ tileset ∈ [sampleCave, sampleBare], tileset.checkGids = .ok ()) ∧
    sampleCave.range.Apart sampleBare.range ∧
    checkRanges [sampleBare, sampleCave] = .ok () ∧
    checkRanges [sampleCave, sampleBare] = .error (.overlap "cave" "bare") := by
  refine ⟨sample_gids.2, ?_, ?_, ?_⟩
  · intro id _ hbare
    exact absurd hbare.2 (Nat.not_lt.2 hbare.1)
  · rw [checkRanges_of_sorted (by decide)]
    rfl
  · rw [checkRanges_of_sorted (by decide)]
    rfl

end Tileset

end TileKiln
