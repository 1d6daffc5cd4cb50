import TileKiln.Path
import TileKiln.Settings

namespace TileKiln.Path

variable {path dir name stem extension text : String} {char : Char}

/-- The path of `name` in the directory `dir`, which has its last slash with it. -/
structure Splits (path dir name : String) : Prop where
  append_eq : dir ++ name = path
  closed : dir = "" ∨ ∃ outer, dir = outer ++ "/"
  no_slash : '/' ∉ name.toList

inductive Stem : (name stem : String) → Prop
  | plain {name : String} (h : '.' ∉ name.toList) : Stem name name
  | hidden {name : String} (h : '.' ∉ name.toList) : Stem ("." ++ name) ("." ++ name)
  | extended {stem extension : String} (hne : stem ≠ "") (h : '.' ∉ extension.toList) :
      Stem (stem ++ "." ++ extension) stem

theorem exists_last_of_mem (h : char ∈ text.toList) :
    ∃ front back, text = front ++ String.singleton char ++ back ∧ char ∉ back.toList := by
  obtain ⟨back, front, htext, hback⟩ := List.eq_append_cons_of_mem (List.mem_reverse.2 h)
  refine ⟨.ofList front.reverse, .ofList back.reverse, ?_, ?_⟩
  · apply String.toList_inj.1
    rw [← List.reverse_reverse text.toList, htext]
    simp
  · rwa [String.toList_ofList, List.mem_reverse]

theorem takeWhile_reverse_of_not_mem (h : char ∉ text.toList) (rest : List Char) :
    (text.toList.reverse ++ rest).takeWhile (· != char) =
        text.toList.reverse ++ rest.takeWhile (· != char) ∧
      (text.toList.reverse ++ rest).dropWhile (· != char) = rest.dropWhile (· != char) := by
  have hall : ∀ c ∈ text.toList.reverse, (c != char) = true := by
    intro c hc
    rw [bne_iff_ne]
    rintro rfl
    exact h (List.mem_reverse.1 hc)
  exact ⟨List.takeWhile_append_of_pos hall, List.dropWhile_append_of_pos hall⟩

theorem exists_splits (path : String) : ∃ dir name, Splits path dir name := by
  by_cases hslash : '/' ∈ path.toList
  · obtain ⟨outer, name, rfl, hname⟩ := exists_last_of_mem hslash
    exact ⟨outer ++ "/", name, rfl, .inr ⟨outer, rfl⟩, hname⟩
  · exact ⟨"", path, String.empty_append, .inl rfl, hslash⟩

theorem exists_stem (name : String) : ∃ stem, Stem name stem := by
  by_cases hdot : '.' ∈ name.toList
  · obtain ⟨front, back, rfl, hback⟩ := exists_last_of_mem hdot
    by_cases hfront : front = ""
    · subst hfront
      exact ⟨_, .hidden hback⟩
    · exact ⟨front, .extended hfront hback⟩
  · exact ⟨name, .plain hdot⟩

theorem Stem.eq_empty_iff (h : Stem name stem) : stem = "" ↔ name = "" := by
  cases h with
  | plain | hidden => exact Iff.rfl
  | extended hne => simp [hne]

/-- Going back from its end, a path shows the name and then the directory. -/
theorem Splits.backward (h : Splits path dir name) :
    path.toList.reverse.takeWhile (· != '/') = name.toList.reverse ∧
      path.toList.reverse.dropWhile (· != '/') = dir.toList.reverse := by
  obtain ⟨htake, hdrop⟩ := takeWhile_reverse_of_not_mem h.no_slash dir.toList.reverse
  rw [← h.append_eq, String.toList_append, List.reverse_append, htake, hdrop]
  rcases h.closed with rfl | ⟨outer, rfl⟩
  · simp
  · simp

theorem imageReference_of_splits (h : Splits path dir name) (hstem : Stem name stem) :
    imageReference path = dir ++ stem := by
  obtain ⟨hname, hdir⟩ := h.backward
  have hpath := h.append_eq
  dsimp only [imageReference]
  rw [hname, hdir]
  cases hstem with
  | plain hdot =>
      have hdrop := (takeWhile_reverse_of_not_mem hdot []).2
      rw [List.append_nil] at hdrop
      rw [hdrop]
      exact hpath.symm
  | @hidden rest hdot =>
      have hdrop := (takeWhile_reverse_of_not_mem hdot ['.']).2
      have hback : ("." ++ rest).toList.reverse = rest.toList.reverse ++ ['.'] := by simp
      rw [hback, hdrop]
      exact hpath.symm
  | @extended stem extension hne hdot =>
      have hdrop := (takeWhile_reverse_of_not_mem hdot ('.' :: stem.toList.reverse)).2
      have hback : (stem ++ "." ++ extension).toList.reverse =
          extension.toList.reverse ++ '.' :: stem.toList.reverse := by simp
      rw [hback, hdrop]
      simp [hne]

theorem imageReference_eq_empty_iff (path : String) : imageReference path = "" ↔ path = "" := by
  obtain ⟨dir, name, hsplits⟩ := exists_splits path
  obtain ⟨stem, hstem⟩ := exists_stem name
  rw [imageReference_of_splits hsplits hstem, ← hsplits.append_eq, String.append_eq_empty_iff,
    String.append_eq_empty_iff, hstem.eq_empty_iff]

theorem imagePath_imageReference (h : Splits path dir (stem ++ "." ++ extension)) (hne : stem ≠ "")
    (hdot : '.' ∉ extension.toList) :
    LoadSettings.imagePath ⟨extension⟩ (imageReference path) = path := by
  rw [imageReference_of_splits h (.extended hne hdot), LoadSettings.imagePath, ← h.append_eq]
  simp only [String.append_assoc]

end TileKiln.Path
