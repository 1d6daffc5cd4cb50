import TileKiln.Color

namespace TileKiln.Color

variable {cs front rest : List Char} {c high low : Char} {n l : Nat} {value : UInt8}

def HexDigit (c : Char) (value : Nat) : Prop :=
  "0123456789abcdef".toList[value]? = some c ∨ "0123456789ABCDEF".toList[value]? = some c

instance (c : Char) (value : Nat) : Decidable (HexDigit c value) :=
  inferInstanceAs (Decidable (_ ∨ _))

inductive Pair : List Char → UInt8 → Prop
  | digits {high low : Char} {h l : Nat} (hhigh : HexDigit high h) (hlow : HexDigit low l) :
      Pair [high, low] (UInt8.ofNat (h * 16 + l))

/-- What is read as a channel: two digits, or one after a plus sign. -/
inductive Channel : List Char → UInt8 → Prop
  | pair {cs : List Char} {value : UInt8} (h : Pair cs value) : Channel cs value
  | signed {low : Char} {l : Nat} (hlow : HexDigit low l) : Channel ['+', low] (UInt8.ofNat l)

theorem forall_ascii {P : Char → Prop} (h : ∀ k < 128, P (Char.ofNat k)) (hc : c.toNat < 128) :
    P c := by
  have hchar := h c.toNat hc
  rwa [Char.ofNat_toNat] at hchar

theorem ascii_of_digit? (h : Text.digit? 16 c = some n) : c.toNat < 128 := by
  obtain ⟨hvalue, _⟩ := Option.filter_eq_some_iff.1 h
  have hle (bound : Char) (hb : bound.toNat < 128) (hc : c ≤ bound) : c.toNat < 128 :=
    Nat.lt_of_le_of_lt hc hb
  split at hvalue
  next hdigit => exact hle '9' (by decide) hdigit.2
  next =>
    split at hvalue
    next hlower => exact hle 'z' (by decide) hlower.2
    next =>
      split at hvalue
      next hupper => exact hle 'Z' (by decide) hupper.2
      next => cases hvalue

theorem digit?_eq_some_iff : Text.digit? 16 c = some n ↔ HexDigit c n := by
  constructor
  · intro h
    have hall : ∀ k < 128, ∀ n ∈ Text.digit? 16 (Char.ofNat k), HexDigit (Char.ofNat k) n := by
      decide
    have hdigit : ∀ n ∈ Text.digit? 16 c, HexDigit c n :=
      forall_ascii (P := fun c => ∀ n ∈ Text.digit? 16 c, HexDigit c n) hall (ascii_of_digit? h)
    exact hdigit n h
  · have hall : ∀ k < 16, "0123456789abcdef".toList[k]?.bind (Text.digit? 16) = some k ∧
        "0123456789ABCDEF".toList[k]?.bind (Text.digit? 16) = some k := by decide
    rintro (h | h)
    · have hdigit := (hall n (List.getElem?_eq_some_iff.1 h).1).1
      rwa [h, Option.bind_some] at hdigit
    · have hdigit := (hall n (List.getElem?_eq_some_iff.1 h).1).2
      rwa [h, Option.bind_some] at hdigit

theorem HexDigit.lt (h : HexDigit c n) : n < 16 := by
  rcases h with h | h <;> exact (List.getElem?_eq_some_iff.1 h).1

theorem HexDigit.utf8Size (h : HexDigit c n) : c.utf8Size = 1 := by
  have hascii := ascii_of_digit? (digit?_eq_some_iff.2 h)
  rw [Char.utf8Size_eq_one_iff]
  exact UInt32.le_iff_toNat_le.2 (Nat.le_of_lt_succ hascii)

theorem magnitude?_signed (low : Char) : Text.magnitude? 16 ['+', low] = Text.digit? 16 low := by
  change Text.digits? 16 [low] = _
  rw [Text.digits?]
  · cases hlow : Text.digit? 16 low <;> simp [hlow]
  · exact List.cons_ne_nil _ _

theorem magnitude?_unsigned (hplus : high ≠ '+') :
    Text.magnitude? 16 [high, low] =
      (Text.digit? 16 high).bind fun h => (Text.digit? 16 low).map (h * 16 + ·) := by
  rw [Text.magnitude?, Text.digits?]
  · cases hhigh : Text.digit? 16 high <;> cases hlow : Text.digit? 16 low <;> simp [hhigh, hlow]
  · exact List.cons_ne_nil _ _
  · rintro cs ⟨⟩
    exact hplus rfl

theorem not_hexDigit_plus (n : Nat) : ¬ HexDigit '+' n := by
  rw [← digit?_eq_some_iff]
  exact fun h => nomatch h

theorem channel?_eq_some_iff : channel? high low = some value ↔ Channel [high, low] value := by
  rw [channel?, Option.map_eq_some_iff]
  constructor
  · rintro ⟨n, hn, rfl⟩
    by_cases hplus : high = '+'
    · subst hplus
      rw [magnitude?_signed] at hn
      exact .signed (digit?_eq_some_iff.1 hn)
    · rw [magnitude?_unsigned hplus] at hn
      obtain ⟨h, hhigh, hn⟩ := Option.bind_eq_some_iff.1 hn
      obtain ⟨l, hlow, rfl⟩ := Option.map_eq_some_iff.1 hn
      exact .pair (.digits (digit?_eq_some_iff.1 hhigh) (digit?_eq_some_iff.1 hlow))
  · rintro (⟨⟨hhigh, hlow⟩⟩ | hlow)
    · have hplus : high ≠ '+' := by
        rintro rfl
        exact not_hexDigit_plus _ hhigh
      refine ⟨_, ?_, rfl⟩
      rw [magnitude?_unsigned hplus, digit?_eq_some_iff.2 hhigh, digit?_eq_some_iff.2 hlow]
      rfl
    · exact ⟨_, (magnitude?_signed low).trans (digit?_eq_some_iff.2 hlow), rfl⟩

theorem Channel.byteLength_eq (h : Channel cs value) : byteLength cs = 2 := by
  rcases h with ⟨⟨hhigh, hlow⟩⟩ | hlow
  · rw [byteLength, byteLength, byteLength, hhigh.utf8Size, hlow.utf8Size]
  · rw [byteLength, byteLength, byteLength, hlow.utf8Size]
    rfl

theorem Channel.exists_pair (h : Channel cs value) : ∃ high low, cs = [high, low] := by
  rcases h with ⟨_, _⟩ | _ <;> exact ⟨_, _, rfl⟩

theorem Pair.hexDigit_of_mem (h : Pair cs value) (hc : c ∈ cs) : ∃ n, HexDigit c n := by
  obtain ⟨hhigh, hlow⟩ := h
  rcases List.mem_cons.1 hc with rfl | hc
  · exact ⟨_, hhigh⟩
  · obtain rfl := List.mem_singleton.1 hc
    exact ⟨_, hlow⟩

theorem not_hexDigit_hash (n : Nat) : ¬ HexDigit '#' n := by
  rw [← digit?_eq_some_iff]
  exact fun h => nomatch h

theorem Channel.pair_of_unsigned (h : Channel cs value) (hplus : '+' ∉ cs) : Pair cs value := by
  rcases h with h | _
  · exact h
  · exact absurd List.mem_cons_self hplus

theorem Channel.hash_not_mem (h : Channel cs value) : '#' ∉ cs := by
  rcases h with h | hlow
  · intro hmem
    obtain ⟨n, hn⟩ := h.hexDigit_of_mem hmem
    exact not_hexDigit_hash n hn
  · intro hmem
    rcases List.mem_cons.1 hmem with hplus | hmem
    · exact absurd hplus (by decide)
    · obtain rfl := List.mem_singleton.1 hmem
      exact not_hexDigit_hash _ hlow

theorem byteLength_append (front rest : List Char) :
    byteLength (front ++ rest) = byteLength front + byteLength rest := by
  induction front with
  | nil => exact (Nat.zero_add _).symm
  | cons c front ih => rw [List.cons_append, byteLength, byteLength, ih, Nat.add_assoc]

theorem byteLength_eq_zero_iff : byteLength cs = 0 ↔ cs = [] := by
  cases cs with
  | nil => simp [byteLength]
  | cons c cs =>
      have hsize := c.utf8Size_pos
      simp only [byteLength, reduceCtorEq, iff_false]
      omega

theorem dropBytes?_eq_some_iff :
    dropBytes? n cs = some rest ↔ ∃ front, cs = front ++ rest ∧ byteLength front = n := by
  constructor
  · intro h
    fun_induction dropBytes? n cs with
    | case1 cs =>
        cases h
        exact ⟨[], rfl, rfl⟩
    | case2 => cases h
    | case3 n c cs hle ih =>
        obtain ⟨front, rfl, hfront⟩ := ih h
        refine ⟨c :: front, rfl, ?_⟩
        rw [byteLength, hfront]
        omega
    | case4 => cases h
  · rintro ⟨front, rfl, rfl⟩
    induction front with
    | nil => rw [byteLength, List.nil_append, dropBytes?]
    | cons c front ih =>
        have hsize := c.utf8Size_pos
        have hlength : byteLength (c :: front) = c.utf8Size + byteLength front - 1 + 1 := by
          rw [byteLength]
          omega
        rw [hlength, List.cons_append, dropBytes?, if_pos (by omega), ← ih]
        congr 1
        omega

def takeBytes? : Nat → List Char → Option (List Char)
  | 0, _ => some []
  | _ + 1, [] => none
  | n + 1, c :: cs =>
    if c.utf8Size ≤ n + 1 then (takeBytes? (n + 1 - c.utf8Size) cs).map (c :: ·) else none

def slice? (start stop : Nat) (cs : List Char) : Option (List Char) :=
  (dropBytes? start cs).bind (takeBytes? (stop - start))

def channelAt? (start : Nat) (cs : List Char) : Option UInt8 :=
  (((slice? start (start + 2) cs).bind (Text.magnitude? 16)).filter (· < UInt8.size)).map UInt8.ofNat

theorem takeBytes?_eq_some_iff :
    takeBytes? n cs = some front ↔ ∃ rest, cs = front ++ rest ∧ byteLength front = n := by
  constructor
  · intro h
    fun_induction takeBytes? n cs generalizing front with
    | case1 cs =>
        cases h
        exact ⟨cs, rfl, rfl⟩
    | case2 => cases h
    | case3 n c cs hle ih =>
        obtain ⟨front, hfront, rfl⟩ := Option.map_eq_some_iff.1 h
        obtain ⟨rest, rfl, hlength⟩ := ih hfront
        refine ⟨rest, rfl, ?_⟩
        rw [byteLength, hlength]
        omega
    | case4 => cases h
  · rintro ⟨rest, rfl, rfl⟩
    induction front with
    | nil => rw [byteLength, takeBytes?]
    | cons c front ih =>
        have hsize := c.utf8Size_pos
        have hlength : byteLength (c :: front) = c.utf8Size + byteLength front - 1 + 1 := by
          rw [byteLength]
          omega
        have hrest : c.utf8Size + byteLength front - 1 + 1 - c.utf8Size = byteLength front := by
          omega
        rw [hlength, List.cons_append, takeBytes?, if_pos (by omega), hrest, ih]
        rfl

theorem slice?_eq_some_iff {start stop : Nat} {part : List Char} :
    slice? start stop cs = some part ↔ ∃ front rest, cs = front ++ part ++ rest ∧
      byteLength front = start ∧ byteLength part = stop - start := by
  rw [slice?, Option.bind_eq_some_iff]
  constructor
  · rintro ⟨back, hdrop, htake⟩
    obtain ⟨front, rfl, hfront⟩ := dropBytes?_eq_some_iff.1 hdrop
    obtain ⟨rest, rfl, hpart⟩ := takeBytes?_eq_some_iff.1 htake
    exact ⟨front, rest, (List.append_assoc ..).symm, hfront, hpart⟩
  · rintro ⟨front, rest, rfl, hfront, hpart⟩
    rw [List.append_assoc]
    exact ⟨part ++ rest, dropBytes?_eq_some_iff.2 ⟨front, rfl, hfront⟩,
      takeBytes?_eq_some_iff.2 ⟨rest, rfl, hpart⟩⟩

theorem cases_of_byteLength_two (h : byteLength cs = 2) :
    (∃ c, cs = [c] ∧ c.utf8Size = 2) ∨ ∃ high low, cs = [high, low] := by
  match cs, h with
  | [c], h => exact .inl ⟨c, rfl, h⟩
  | [high, low], _ => exact .inr ⟨high, low, rfl⟩
  | a :: b :: c :: cs, h =>
      have ha := a.utf8Size_pos
      have hb := b.utf8Size_pos
      have hc := c.utf8Size_pos
      simp only [byteLength] at h
      omega

theorem magnitude?_lt (h : Text.magnitude? 16 [high, low] = some n) : n < UInt8.size := by
  rw [UInt8.size]
  by_cases hplus : high = '+'
  · subst hplus
    rw [magnitude?_signed] at h
    have hlow := (digit?_eq_some_iff.1 h).lt
    omega
  · rw [magnitude?_unsigned hplus] at h
    obtain ⟨k, hhigh, hn⟩ := Option.bind_eq_some_iff.1 h
    obtain ⟨l, hlow, rfl⟩ := Option.map_eq_some_iff.1 hn
    have hk := (digit?_eq_some_iff.1 hhigh).lt
    have hl := (digit?_eq_some_iff.1 hlow).lt
    omega

theorem magnitude?_of_wide (h : c.utf8Size = 2) : Text.magnitude? 16 [c] = none := by
  have hdigit : Text.digit? 16 c = none := by
    rw [Option.eq_none_iff_forall_ne_some]
    intro n hn
    have hsize := (digit?_eq_some_iff.1 hn).utf8Size
    omega
  rw [Text.magnitude?, Text.digits?]
  · simp [hdigit]
  · exact List.cons_ne_nil _ _
  · rintro cs ⟨⟩
    exact absurd h (by decide)

/-- Two bytes are a numeral of a byte if they are two characters that are read as a channel. -/
theorem channel_iff_magnitude? (hlength : byteLength cs = 2) :
    ((Text.magnitude? 16 cs).filter (· < UInt8.size)).map UInt8.ofNat = some value ↔
      Channel cs value := by
  rcases cases_of_byteLength_two hlength with ⟨c, rfl, hwide⟩ | ⟨high, low, rfl⟩
  · rw [magnitude?_of_wide hwide]
    constructor
    · exact fun h => nomatch h
    · intro h
      obtain ⟨high, low, hpair⟩ := h.exists_pair
      cases hpair
  · have hfits : (Text.magnitude? 16 [high, low]).filter (· < UInt8.size) =
        Text.magnitude? 16 [high, low] := by
      cases hn : Text.magnitude? 16 [high, low] with
      | none => rfl
      | some n => exact Option.filter_some_pos (decide_eq_true (magnitude?_lt hn))
    rw [hfits, ← channel?_eq_some_iff, channel?]

theorem channelAt?_eq_some_iff {start : Nat} :
    channelAt? start cs = some value ↔ ∃ front part rest, cs = front ++ part ++ rest ∧
      byteLength front = start ∧ Channel part value := by
  have hwidth : start + 2 - start = 2 := Nat.add_sub_cancel_left start 2
  rw [channelAt?]
  constructor
  · intro h
    cases hslice : slice? start (start + 2) cs with
    | none => simp [hslice] at h
    | some part =>
        obtain ⟨front, rest, rfl, hfront, hpart⟩ := slice?_eq_some_iff.1 hslice
        rw [hslice, Option.bind_some] at h
        exact ⟨front, part, rest, rfl, hfront, (channel_iff_magnitude? (hpart.trans hwidth)).1 h⟩
  · rintro ⟨front, part, rest, rfl, hfront, hchannel⟩
    have hpart := hchannel.byteLength_eq
    rw [slice?_eq_some_iff.2 ⟨front, rest, rfl, hfront, hpart.trans hwidth.symm⟩, Option.bind_some]
    exact (channel_iff_magnitude? hpart).2 hchannel

theorem rest_unique {front' rest' : List Char} (h : front ++ rest = front' ++ rest')
    (hlength : byteLength front = byteLength front') : rest = rest' := by
  have hrest : dropBytes? (byteLength front') (front ++ rest) = some rest :=
    dropBytes?_eq_some_iff.2 ⟨front, rfl, hlength⟩
  rw [h, dropBytes?_eq_some_iff.2 ⟨front', rfl, rfl⟩] at hrest
  exact (Option.some.inj hrest).symm

end TileKiln.Color
