import TileKiln.Proofs.DecodedCells
import TileKiln.Proofs.TileFormats

namespace TileKiln

namespace Text

variable {cs core digits : List Char} {c : Char} {n : Nat} {gid : UInt32}

structure Digits (gid : UInt32) (digits : List Char) : Prop where
  nonempty : digits ≠ []
  all : ∀ c ∈ digits, c.isDigit
  value : Nat.ofDigitChars 10 digits 0 = gid.toNat

inductive Numeral (gid : UInt32) : List Char → Prop
  | unsigned (digits : List Char) (h : Digits gid digits) : Numeral gid digits
  | signed (digits : List Char) (h : Digits gid digits) : Numeral gid ('+' :: digits)

theorem isDigit_of_digit? (h : digit? 10 c = some n) : c.isDigit := by
  obtain ⟨hvalue, hlt⟩ := Option.filter_eq_some_iff.1 h
  have hlt : n < 10 := of_decide_eq_true hlt
  split at hvalue
  next hdigit =>
    rw [Char.isDigit, Bool.and_eq_true, decide_eq_true_eq, decide_eq_true_eq]
    exact hdigit
  next =>
    split at hvalue
    next =>
      cases hvalue
      omega
    next =>
      split at hvalue
      next =>
        cases hvalue
        omega
      next => cases hvalue

theorem isDigit_of_mapM {values : List Nat} (h : cs.mapM (digit? 10) = some values) :
    ∀ c ∈ cs, c.isDigit := by
  induction cs generalizing values with
  | nil => exact fun c hc => absurd hc List.not_mem_nil
  | cons c cs ih =>
      rw [List.mapM_cons] at h
      obtain ⟨value, hvalue, h⟩ := Option.bind_eq_some_iff.1 h
      obtain ⟨values, hvalues, _⟩ := Option.bind_eq_some_iff.1 h
      exact List.forall_mem_cons.2 ⟨isDigit_of_digit? hvalue, ih hvalues⟩

theorem digits?_eq_some_iff :
    digits? 10 cs = some n ↔
      cs ≠ [] ∧ (∀ c ∈ cs, c.isDigit) ∧ Nat.ofDigitChars 10 cs 0 = n := by
  constructor
  · intro h
    have hne : cs ≠ [] := by
      rintro rfl
      cases h
    have hall : ∀ c ∈ cs, c.isDigit := by
      rw [digits?] at h
      · obtain ⟨values, hvalues, _⟩ := Option.map_eq_some_iff.1 h
        exact isDigit_of_mapM hvalues
      · exact hne
    rw [digits?_of_isDigit hne hall] at h
    exact ⟨hne, hall, Option.some.inj h⟩
  · rintro ⟨hne, hall, rfl⟩
    exact digits?_of_isDigit hne hall

theorem magnitude?_eq_some_iff :
    magnitude? 10 cs = some n ↔
      digits? 10 cs = some n ∨ ∃ digits, cs = '+' :: digits ∧ digits? 10 digits = some n := by
  constructor
  · intro h
    rw [magnitude?.eq_def] at h
    split at h
    next digits => exact .inr ⟨digits, rfl, h⟩
    next => exact .inl h
  · rintro (h | ⟨digits, rfl, h⟩)
    · rw [magnitude?_of_isDigit (digits?_eq_some_iff.1 h).2.1]
      exact h
    · exact h

theorem digits_iff : Digits gid digits ↔ digits? 10 digits = some gid.toNat := by
  rw [digits?_eq_some_iff]
  constructor
  · intro h
    exact ⟨h.nonempty, h.all, h.value⟩
  · rintro ⟨hne, hall, hvalue⟩
    exact ⟨hne, hall, hvalue⟩

theorem word32?_eq_some_iff : word32? cs = some gid ↔ Numeral gid cs := by
  constructor
  · intro h
    obtain ⟨n, hfilter, rfl⟩ := Option.map_eq_some_iff.1 h
    obtain ⟨hmagnitude, hlt⟩ := Option.filter_eq_some_iff.1 hfilter
    have hn : (UInt32.ofNat n).toNat = n := UInt32.toNat_ofNat_of_lt' (of_decide_eq_true hlt)
    rcases magnitude?_eq_some_iff.1 hmagnitude with hdigits | ⟨digits, rfl, hdigits⟩
    · exact .unsigned cs (digits_iff.2 (hn.symm ▸ hdigits))
    · exact .signed digits (digits_iff.2 (hn.symm ▸ hdigits))
  · intro h
    have hmagnitude : magnitude? 10 cs = some gid.toNat := by
      rw [magnitude?_eq_some_iff]
      cases h with
      | unsigned _ h => exact .inl (digits_iff.1 h)
      | signed digits h => exact .inr ⟨digits, rfl, digits_iff.1 h⟩
    rw [word32?, hmagnitude, Option.filter_some, if_pos (decide_eq_true gid.toNat_lt),
      Option.map_some, UInt32.ofNat_toNat]

theorem blanks_takeWhile (cs : List Char) : Blanks (cs.takeWhile isBlank) :=
  List.all_eq_true.1 List.all_takeWhile

theorem head?_dropWhile (cs : List Char) :
    ∀ c ∈ (cs.dropWhile isBlank).head?, isBlank c = false := by
  intro c hc
  have hhead := List.head?_dropWhile_not isBlank cs
  rw [Option.mem_def.1 hc] at hhead
  exact hhead

theorem trimmed_trim (cs : List Char) : Trimmed (trim cs) cs := by
  let rest := cs.dropWhile isBlank
  have hfront : cs.takeWhile isBlank ++ rest = cs := List.takeWhile_append_dropWhile
  have hrest : trim cs ++ (rest.reverse.takeWhile isBlank).reverse = rest := by
    rw [trim, ← List.reverse_append, List.takeWhile_append_dropWhile, List.reverse_reverse]
  refine ⟨⟨cs.takeWhile isBlank, (rest.reverse.takeWhile isBlank).reverse, ?_, blanks_takeWhile cs,
    ?_⟩, ?_, ?_⟩
  · rw [List.append_assoc, hrest, hfront]
  · exact fun c hc => blanks_takeWhile _ c (List.mem_reverse.1 hc)
  · intro c hc
    have hhead : rest.head? = some c := by
      rw [← hrest, List.head?_append, Option.mem_def.1 hc]
      rfl
    exact head?_dropWhile cs c hhead
  · rw [trim, List.getLast?_reverse]
    exact head?_dropWhile _

theorem trim_eq_iff : trim cs = core ↔ Trimmed core cs := by
  constructor
  · rintro rfl
    exact trimmed_trim cs
  · exact trim_of_trimmed

theorem trim_eq_nil_iff : trim cs = [] ↔ Blanks cs := by
  constructor
  · intro h
    obtain ⟨front, back, rfl, hfront, hback⟩ := (trim_eq_iff.1 h).padded
    rw [List.append_nil]
    exact fun c hc => (List.mem_append.1 hc).elim (hfront c) (hback c)
  · exact trim_of_blanks

def Writes (gid : UInt32) (field : List Char) : Prop :=
  ∃ numeral, Numeral gid numeral ∧ Padded numeral field

theorem Numeral.not_blank (h : Numeral gid cs) : ∀ c ∈ cs, isBlank c = false := by
  cases h with
  | unsigned _ h => exact fun c hc => isBlank_of_isDigit (h.all c hc)
  | signed digits h =>
      rw [List.forall_mem_cons]
      exact ⟨by decide, fun c hc => isBlank_of_isDigit (h.all c hc)⟩

theorem word32?_trim_eq_some_iff : word32? (trim cs) = some gid ↔ Writes gid cs := by
  rw [word32?_eq_some_iff]
  constructor
  · intro h
    exact ⟨trim cs, h, (trimmed_trim cs).padded⟩
  · rintro ⟨numeral, h, hpadded⟩
    rw [trim_of_padded hpadded h.not_blank]
    exact h

theorem word32?_trim_eq_none_iff : word32? (trim cs) = none ↔ ∀ gid, ¬ Writes gid cs := by
  rw [Option.eq_none_iff_forall_ne_some]
  exact forall_congr' fun gid => not_congr word32?_trim_eq_some_iff

end Text

namespace TileData

variable {text : String} {width height : UInt32} {parts : List (List Char)} {gids : List UInt32}
  {index : Nat}

def nonblank (text : String) : List (List Char) :=
  (text.toList.splitOn ',').filter fun field => !decide (Text.Blanks field)

theorem fields_eq (text : String) : fields text = (nonblank text).map Text.trim := by
  rw [fields, nonblank, List.filter_map]
  congr 1
  apply List.filter_congr
  intro field _
  rw [Function.comp_apply, Bool.not_inj_iff, Bool.eq_iff_iff, List.isEmpty_iff,
    Text.trim_eq_nil_iff, decide_eq_true_eq]

theorem cellsOfTrimmed_eq_ok_iff :
    cellsOfFields index (parts.map Text.trim) = .ok gids ↔
      List.Forall₂ Text.Writes gids parts := by
  rw [cellsOfFields_eq_ok_iff, List.forall₂_map_right_iff]
  simp only [Text.word32?_trim_eq_some_iff]

theorem cellsOfTrimmed_eq_error_iff {e : DecodeError} :
    cellsOfFields index (parts.map Text.trim) = .error e ↔
      ∃ before field after, parts = before ++ field :: after ∧
        (∀ written ∈ before, ∃ gid, Text.Writes gid written) ∧
        (∀ gid, ¬ Text.Writes gid field) ∧
        e = .badCell (index + before.length) (String.ofList (Text.trim field)) := by
  rw [cellsOfFields_eq_error_iff]
  constructor
  · rintro ⟨front, token, rest, hparts, hfront, htoken, rfl⟩
    obtain ⟨before, others, rfl, rfl, hothers⟩ := List.map_eq_append_iff.1 hparts
    obtain ⟨field, after, rfl, rfl, rfl⟩ := List.map_eq_cons_iff.1 hothers
    refine ⟨before, field, after, rfl, fun written hwritten => ?_,
      Text.word32?_trim_eq_none_iff.1 htoken, by rw [List.length_map]⟩
    obtain ⟨gid, hgid⟩ := hfront _ (List.mem_map_of_mem hwritten)
    exact ⟨gid, Text.word32?_trim_eq_some_iff.1 hgid⟩
  · rintro ⟨before, field, after, rfl, hbefore, hfield, rfl⟩
    refine ⟨before.map Text.trim, Text.trim field, after.map Text.trim,
      by rw [List.map_append, List.map_cons], fun token htoken => ?_,
      Text.word32?_trim_eq_none_iff.2 hfield, by rw [List.length_map]⟩
    obtain ⟨written, hwritten, rfl⟩ := List.mem_map.1 htoken
    obtain ⟨gid, hgid⟩ := hbefore written hwritten
    exact ⟨gid, Text.word32?_trim_eq_some_iff.2 hgid⟩

theorem decode_csv_eq (text : String) (width height : UInt32) :
    (TileData.mk (some "csv") none (.text text)).decode width height =
      cellsOfFields 0 ((nonblank text).map Text.trim) >>=
        counted (width.toNat * height.toNat) := by
  rw [decode_eq, ← fields_eq]
  rfl

/-- A text is read as the cells that its fields write, blank fields apart, if they are as many as
the layer has. A field that writes no cell is reported with its number among the fields that are
not blank and without the blanks around it, for the first such field, whatever follows and however
many cells are wanted. -/
theorem decode_csv (text : String) (width height : UInt32) :
    (∀ gids, (TileData.mk (some "csv") none (.text text)).decode width height = .ok gids ↔
      List.Forall₂ Text.Writes gids (nonblank text) ∧
        gids.length = width.toNat * height.toNat) ∧
    (∀ k token,
      (TileData.mk (some "csv") none (.text text)).decode width height =
          .error (.badCell k token) ↔
        ∃ before field after, nonblank text = before ++ field :: after ∧ before.length = k ∧
          (∀ written ∈ before, ∃ gid, Text.Writes gid written) ∧
          (∀ gid, ¬ Text.Writes gid field) ∧ Text.Trimmed token.toList field) ∧
    ∀ expected actual,
      (TileData.mk (some "csv") none (.text text)).decode width height =
          .error (.sizeMismatch expected actual) ↔
        ∃ gids, List.Forall₂ Text.Writes gids (nonblank text) ∧ actual = gids.length ∧
          expected = width.toNat * height.toNat ∧ actual ≠ expected := by
  rw [decode_csv_eq]
  refine ⟨fun gids => ?_, fun k token => ?_, fun expected actual => ?_⟩
  · rw [bind_counted_eq_ok_iff, cellsOfTrimmed_eq_ok_iff]
  · rw [bind_counted_eq_error_iff, cellsOfTrimmed_eq_error_iff]
    constructor
    · rintro (⟨before, field, after, hfields, hbefore, hfield, hbad⟩ | ⟨cells, _, hmismatch, _⟩)
      · cases hbad
        refine ⟨before, field, after, hfields, (Nat.zero_add _).symm, hbefore, hfield, ?_⟩
        rw [String.toList_ofList]
        exact Text.trimmed_trim field
      · cases hmismatch
    · rintro ⟨before, field, after, hfields, rfl, hbefore, hfield, htoken⟩
      refine .inl ⟨before, field, after, hfields, hbefore, hfield, ?_⟩
      rw [Text.trim_of_trimmed htoken, String.ofList_toList, Nat.zero_add]
  · rw [bind_counted_eq_error_iff]
    constructor
    · rintro (hcells | ⟨cells, hcells, hmismatch, hlength⟩)
      · exact absurd hcells cellsOfFields_ne_sizeMismatch
      · cases hmismatch
        exact ⟨cells, cellsOfTrimmed_eq_ok_iff.1 hcells, rfl, rfl, hlength⟩
    · rintro ⟨gids, hgids, rfl, rfl, hlength⟩
      exact .inr ⟨gids, cellsOfTrimmed_eq_ok_iff.2 hgids, rfl, hlength⟩

def sampleCells : String := "\u00a07,, +007 ,\n"

def sampleFault : String := "1, 2,, x3 ,4"

theorem decode_csv_sample :
    (TileData.mk (some "csv") none (.text sampleCells)).decode 2 1 = .ok [7, 7] ∧
    (TileData.mk (some "csv") none (.text sampleFault)).decode 1 1 = .error (.badCell 2 "x3") := by
  have hcells : nonblank sampleCells = [['\u00a0', '7'], [' ', '+', '0', '0', '7', ' ']] := by
    decide +kernel
  have hfault : nonblank sampleFault = [['1'], [' ', '2'], [' ', 'x', '3', ' '], ['4']] := by
    decide +kernel
  have hseven : Text.Digits 7 ['7'] := ⟨by decide, List.all_eq_true.1 rfl, rfl⟩
  have hzeros : Text.Digits 7 ['0', '0', '7'] := ⟨by decide, List.all_eq_true.1 rfl, rfl⟩
  have hone : Text.Digits 1 ['1'] := ⟨by decide, List.all_eq_true.1 rfl, rfl⟩
  have htwo : Text.Digits 2 ['2'] := ⟨by decide, List.all_eq_true.1 rfl, rfl⟩
  obtain ⟨hok, _, _⟩ := decode_csv sampleCells 2 1
  obtain ⟨_, hbad, _⟩ := decode_csv sampleFault 1 1
  refine ⟨(hok [7, 7]).2 ⟨?_, rfl⟩, (hbad 2 "x3").2 ?_⟩
  · rw [hcells]
    refine .cons ⟨_, .unsigned _ hseven, ['\u00a0'], [], rfl, by decide, by decide⟩ ?_
    exact .cons ⟨_, .signed _ hzeros, [' '], [' '], rfl, by decide, by decide⟩ .nil
  · refine ⟨[['1'], [' ', '2']], [' ', 'x', '3', ' '], [['4']], hfault, rfl, ?_, ?_, ?_⟩
    · rw [List.forall_mem_cons, List.forall_mem_singleton]
      exact ⟨⟨1, _, .unsigned _ hone, [], [], rfl, by decide, by decide⟩,
        2, _, .unsigned _ htwo, [' '], [], rfl, by decide, by decide⟩
    · exact Text.word32?_trim_eq_none_iff.1 (by decide)
    · refine ⟨⟨[' '], [' '], rfl, by decide, by decide⟩, ?_, ?_⟩
      · rintro c ⟨⟩
        rfl
      · rintro c ⟨⟩
        rfl

end TileData

end TileKiln
