import TileKiln.Proofs.HexChannels

namespace TileKiln.Color

variable {cs : List Char} {value : UInt8} {color : Color}

theorem ofPairs?_eq_some_iff :
    ofPairs? cs = some color ↔ ∃ red green blue, cs = red ++ green ++ blue ∧
      Channel red color.red ∧ Channel green color.green ∧ Channel blue color.blue := by
  constructor
  · intro h
    rw [ofPairs?.eq_def] at h
    split at h
    next r r' g g' b b' =>
      obtain ⟨red, hred, h⟩ := Option.bind_eq_some_iff.1 h
      obtain ⟨green, hgreen, h⟩ := Option.bind_eq_some_iff.1 h
      obtain ⟨blue, hblue, h⟩ := Option.bind_eq_some_iff.1 h
      cases h
      exact ⟨[r, r'], [g, g'], [b, b'], rfl, channel?_eq_some_iff.1 hred,
        channel?_eq_some_iff.1 hgreen, channel?_eq_some_iff.1 hblue⟩
    next => cases h
  · rintro ⟨red, green, blue, rfl, hred, hgreen, hblue⟩
    obtain ⟨r, r', rfl⟩ := hred.exists_pair
    obtain ⟨g, g', rfl⟩ := hgreen.exists_pair
    obtain ⟨b, b', rfl⟩ := hblue.exists_pair
    change (do return (⟨← channel? r r', ← channel? g g', ← channel? b b'⟩ : Color)) = some color
    rw [channel?_eq_some_iff.2 hred, channel?_eq_some_iff.2 hgreen, channel?_eq_some_iff.2 hblue]
    rfl

def unhashed : List Char → List Char
  | '#' :: cs => cs
  | cs => cs

def channels? (text : String) : Option (List Char) :=
  match byteLength (unhashed text.toList) with
  | 6 => some (unhashed text.toList)
  | 8 => dropBytes? 2 (unhashed text.toList)
  | _ => none

theorem ofHex?_eq (text : String) : ofHex? text = (channels? text).bind ofPairs? := by
  change (match byteLength (unhashed text.toList) with
    | 6 => ofPairs? (unhashed text.toList)
    | 8 => (dropBytes? 2 (unhashed text.toList)).bind ofPairs?
    | _ => none) = _
  rw [channels?]
  split <;> rfl

theorem channels?_eq_some_iff {text : String} :
    channels? text = some cs ↔ byteLength cs = 6 ∧ ∃ alpha, unhashed text.toList = alpha ++ cs ∧
      (byteLength alpha = 0 ∨ byteLength alpha = 2) := by
  rw [channels?]
  generalize unhashed text.toList = hex
  constructor
  · intro h
    split at h
    next hlength =>
      cases h
      exact ⟨hlength, [], rfl, .inl rfl⟩
    next hlength =>
      obtain ⟨alpha, rfl, halpha⟩ := dropBytes?_eq_some_iff.1 h
      rw [byteLength_append] at hlength
      exact ⟨by omega, alpha, rfl, .inr halpha⟩
    next => cases h
  · rintro ⟨hlength, alpha, rfl, halpha | halpha⟩
    · have hsix : byteLength (alpha ++ cs) = 6 := by rw [byteLength_append, halpha, hlength]
      simp only [hsix]
      rw [byteLength_eq_zero_iff.1 halpha, List.nil_append]
    · have height : byteLength (alpha ++ cs) = 8 := by rw [byteLength_append, halpha, hlength]
      simp only [height]
      exact dropBytes?_eq_some_iff.2 ⟨alpha, rfl, halpha⟩

def ofSlices? (text : String) : Option Color := do
  let cs ← channels? text
  return ⟨← channelAt? 0 cs, ← channelAt? 2 cs, ← channelAt? 4 cs⟩

/-- The three slices of six bytes, if all are channels, are all of them. -/
theorem channels_iff_slices {red green blue : UInt8} (hlength : byteLength cs = 6) :
    (channelAt? 0 cs = some red ∧ channelAt? 2 cs = some green ∧ channelAt? 4 cs = some blue) ↔
      ∃ r g b, cs = r ++ g ++ b ∧ Channel r red ∧ Channel g green ∧ Channel b blue := by
  simp only [channelAt?_eq_some_iff]
  constructor
  · rintro ⟨⟨before, r, gb, rfl, hbefore, hr⟩, ⟨front, g, b', hg', hfront, hg⟩,
      ⟨front', b, after, hb', hfront', hb⟩⟩
    obtain rfl := byteLength_eq_zero_iff.1 hbefore
    have hgb : gb = g ++ b' := by
      rw [List.append_assoc front] at hg'
      exact rest_unique hg' (hr.byteLength_eq.trans hfront.symm)
    subst hgb
    have hbafter : b' = b ++ after := by
      rw [List.append_assoc front', ← List.append_assoc] at hb'
      refine rest_unique hb' ?_
      rw [byteLength_append, List.nil_append, hr.byteLength_eq, hg.byteLength_eq, hfront']
    subst hbafter
    have hafter : byteLength after = 0 := by
      simp only [byteLength_append, hr.byteLength_eq, hg.byteLength_eq, hb.byteLength_eq,
        hbefore] at hlength
      omega
    obtain rfl := byteLength_eq_zero_iff.1 hafter
    exact ⟨r, g, b, by simp, hr, hg, hb⟩
  · rintro ⟨r, g, b, rfl, hr, hg, hb⟩
    refine ⟨⟨[], r, g ++ b, by simp, rfl, hr⟩, ⟨r, g, b, rfl, hr.byteLength_eq, hg⟩,
      ⟨r ++ g, b, [], by simp, ?_, hb⟩⟩
    rw [byteLength_append, hr.byteLength_eq, hg.byteLength_eq]

/-- Taking the characters two by two is taking slices of two bytes: where one of these ends inside a
character, the text is no color either way. -/
theorem ofHex?_eq_ofSlices? (text : String) : ofHex? text = ofSlices? text := by
  rw [ofHex?_eq, ofSlices?]
  cases hcs : channels? text with
  | none => rfl
  | some cs =>
      obtain ⟨hlength, _⟩ := channels?_eq_some_iff.1 hcs
      ext color
      rw [Option.bind_some, ofPairs?_eq_some_iff, ← channels_iff_slices hlength]
      constructor
      · rintro ⟨hred, hgreen, hblue⟩
        change (do return (⟨← channelAt? 0 cs, ← channelAt? 2 cs, ← channelAt? 4 cs⟩ : Color)) = _
        rw [hred, hgreen, hblue]
        rfl
      · intro h
        obtain ⟨_, ⟨⟩, h⟩ := Option.bind_eq_some_iff.1 h
        obtain ⟨red, hred, h⟩ := Option.bind_eq_some_iff.1 h
        obtain ⟨green, hgreen, h⟩ := Option.bind_eq_some_iff.1 h
        obtain ⟨blue, hblue, h⟩ := Option.bind_eq_some_iff.1 h
        cases h
        exact ⟨hred, hgreen, hblue⟩

structure Spelling where
  hash : List Char
  alpha : List Char
  red : List Char
  green : List Char
  blue : List Char

namespace Spelling

def text (s : Spelling) : String := String.ofList (s.hash ++ s.alpha ++ s.red ++ s.green ++ s.blue)

structure Denotes (s : Spelling) (color : Color) : Prop where
  hash : s.hash = [] ∨ s.hash = ['#']
  alpha : s.alpha = [] ∨ ∃ value, Pair s.alpha value
  red : Pair s.red color.red
  green : Pair s.green color.green
  blue : Pair s.blue color.blue

/-- What is read as a color. A hash in front is never taken for a part of the alpha part. -/
structure Passes (s : Spelling) (color : Color) : Prop where
  hash : s.hash = [] ∧ s.alpha.head? ≠ some '#' ∨ s.hash = ['#']
  alpha : byteLength s.alpha = 0 ∨ byteLength s.alpha = 2
  red : Channel s.red color.red
  green : Channel s.green color.green
  blue : Channel s.blue color.blue

end Spelling

theorem unhashed_of_head (h : cs.head? ≠ some '#') : unhashed cs = cs := by
  rw [unhashed]
  rintro rest rfl
  exact h rfl

theorem cases_of_unhashed (cs : List Char) :
    cs = '#' :: unhashed cs ∨ cs = unhashed cs ∧ cs.head? ≠ some '#' := by
  by_cases h : cs.head? = some '#'
  · obtain ⟨rest, rfl⟩ := List.head?_eq_some_iff.1 h
    exact .inl rfl
  · exact .inr ⟨(unhashed_of_head h).symm, h⟩

namespace Spelling

variable {s : Spelling} {text : String}

theorem Denotes.passes (h : s.Denotes color) : s.Passes color where
  hash := by
    refine h.hash.imp_left fun hnil => ⟨hnil, ?_⟩
    rcases h.alpha with hnil | ⟨value, hpair⟩
    · simp [hnil]
    · exact fun hhash => Channel.hash_not_mem (.pair hpair) (List.mem_of_head? hhash)
  alpha := by
    rcases h.alpha with hnil | ⟨value, hpair⟩
    · exact .inl (byteLength_eq_zero_iff.2 hnil)
    · exact .inr (Channel.pair hpair).byteLength_eq
  red := .pair h.red
  green := .pair h.green
  blue := .pair h.blue

theorem Denotes.plus_not_mem (h : s.Denotes color) : '+' ∉ s.text.toList := by
  have hpair {part : List Char} {value : UInt8} (h : Pair part value) : '+' ∉ part := by
    intro hmem
    obtain ⟨n, hn⟩ := h.hexDigit_of_mem hmem
    exact not_hexDigit_plus n hn
  have hhash : '+' ∉ s.hash := by
    rcases h.hash with hhash | hhash <;> rw [hhash] <;> decide
  have halpha : '+' ∉ s.alpha := by
    rcases h.alpha with hnil | ⟨value, halpha⟩
    · rw [hnil]
      exact List.not_mem_nil
    · exact hpair halpha
  rw [text, String.toList_ofList]
  simp only [List.mem_append, not_or]
  exact ⟨⟨⟨⟨hhash, halpha⟩, hpair h.red⟩, hpair h.green⟩, hpair h.blue⟩

theorem Passes.length_channels (h : s.Passes color) :
    byteLength (s.red ++ s.green ++ s.blue) = 6 := by
  rw [byteLength_append, byteLength_append, h.red.byteLength_eq, h.green.byteLength_eq,
    h.blue.byteLength_eq]

theorem Passes.unhashed (h : s.Passes color) :
    unhashed s.text.toList = s.alpha ++ (s.red ++ s.green ++ s.blue) := by
  rw [Spelling.text, String.toList_ofList, List.append_assoc, List.append_assoc, List.append_assoc,
    ← List.append_assoc s.red]
  rcases h.hash with ⟨hnil, hhead⟩ | hhash
  · rw [hnil, List.nil_append, unhashed_of_head]
    rw [List.head?_append, List.append_assoc, List.head?_append]
    cases halpha : s.alpha.head? with
    | some c => rwa [halpha] at hhead
    | none =>
        obtain ⟨high, low, hred⟩ := h.red.exists_pair
        rw [hred]
        rintro ⟨⟩
        exact h.red.hash_not_mem (hred ▸ List.mem_cons_self)
  · rw [hhash]
    rfl

theorem exists_passes_iff :
    (∃ s : Spelling, s.text = text ∧ s.Passes color) ↔ ofHex? text = some color := by
  rw [ofHex?_eq, Option.bind_eq_some_iff]
  constructor
  · rintro ⟨s, rfl, h⟩
    have hpairs : ofPairs? (s.red ++ s.green ++ s.blue) = some color :=
      ofPairs?_eq_some_iff.2 ⟨_, _, _, rfl, h.red, h.green, h.blue⟩
    exact ⟨_, channels?_eq_some_iff.2 ⟨h.length_channels, _, h.unhashed, h.alpha⟩, hpairs⟩
  · rintro ⟨cs, hcs, hpairs⟩
    obtain ⟨_, alpha, hunhashed, halpha⟩ := channels?_eq_some_iff.1 hcs
    obtain ⟨red, green, blue, rfl, hred, hgreen, hblue⟩ := ofPairs?_eq_some_iff.1 hpairs
    have htext (hash : List Char) (h : text.toList = hash ++ Color.unhashed text.toList) :
        text = (Spelling.mk hash alpha red green blue).text := by
      rw [Spelling.text, ← String.ofList_toList (s := text), h, hunhashed]
      simp only [List.append_assoc]
    rcases cases_of_unhashed text.toList with hhash | ⟨hnone, hhead⟩
    · exact ⟨⟨['#'], alpha, red, green, blue⟩, (htext ['#'] hhash).symm,
        .inr rfl, halpha, hred, hgreen, hblue⟩
    · refine ⟨⟨[], alpha, red, green, blue⟩, (htext [] hnone).symm,
        .inl ⟨rfl, fun hhash => hhead ?_⟩, halpha, hred, hgreen, hblue⟩
      rw [hnone, hunhashed, List.head?_append, hhash]
      rfl

end Spelling

structure IsProper (text : String) : Prop where
  unsigned : '+' ∉ text.toList
  alpha : ∀ alpha rest, unhashed text.toList = alpha ++ rest → byteLength alpha = 2 →
    byteLength rest = 6 → ∃ value, Pair alpha value

theorem Spelling.Denotes.isProper {s : Spelling} (h : s.Denotes color) : IsProper s.text where
  unsigned := h.plus_not_mem
  alpha alpha rest hsplit halpha hrest := by
    have hpasses := h.passes
    rw [hpasses.unhashed] at hsplit
    have hlength := congrArg byteLength hsplit
    rw [byteLength_append s.alpha, byteLength_append alpha, hpasses.length_channels, hrest]
      at hlength
    have hsame := rest_unique hsplit (Nat.add_right_cancel hlength)
    rw [hsame] at hsplit
    rw [← List.append_cancel_right hsplit]
    rcases h.alpha with hnil | hpair
    · rw [hnil, halpha] at hlength
      cases hlength
    · exact hpair

theorem denotes_iff {text : String} :
    (∃ s : Spelling, s.text = text ∧ s.Denotes color) ↔
      ofHex? text = some color ∧ IsProper text := by
  rw [← Spelling.exists_passes_iff]
  constructor
  · rintro ⟨s, rfl, h⟩
    exact ⟨⟨s, rfl, h.passes⟩, h.isProper⟩
  · rintro ⟨⟨s, rfl, h⟩, hproper⟩
    have hunsigned := hproper.unsigned
    rw [Spelling.text, String.toList_ofList] at hunsigned
    simp only [List.mem_append, not_or] at hunsigned
    obtain ⟨⟨⟨_, hred⟩, hgreen⟩, hblue⟩ := hunsigned
    refine ⟨s, rfl, h.hash.imp_left And.left, ?_, h.red.pair_of_unsigned hred,
      h.green.pair_of_unsigned hgreen, h.blue.pair_of_unsigned hblue⟩
    rcases h.alpha with hnone | htwo
    · exact .inl (byteLength_eq_zero_iff.1 hnone)
    · exact .inr (hproper.alpha _ _ h.unhashed htwo h.length_channels)

/-- Every notation of a color is read as the color. What is read beyond it has a sign before a digit
of a channel, or an alpha part that is no pair of digits. No slice that reading takes fails it: the
text is then no color. -/
theorem ofHex?_iff_spelling (text : String) (color : Color) :
    (ofHex? text = some color ↔ ∃ s : Spelling, s.text = text ∧ s.Passes color) ∧
    ((∃ s : Spelling, s.text = text ∧ s.Denotes color) ↔
      ofHex? text = some color ∧ IsProper text) ∧
    ofHex? text = ofSlices? text :=
  ⟨Spelling.exists_passes_iff.symm, denotes_iff, ofHex?_eq_ofSlices? text⟩

/-- A sign in the place of a digit, and an alpha part that is none. -/
theorem ofHex?_of_improper :
    (ofHex? "#+f8040" = some ⟨15, 128, 64⟩ ∧ ofHex? "#zzff8040" = some ⟨255, 128, 64⟩) ∧
    ∀ (s : Spelling) (color : Color), s.text = "#+f8040" ∨ s.text = "#zzff8040" →
      ¬ s.Denotes color := by
  refine ⟨by decide, ?_⟩
  rintro s color (htext | htext) h
  · have hunsigned := h.isProper.unsigned
    rw [htext] at hunsigned
    exact hunsigned (by decide)
  · have halpha := h.isProper.alpha
    rw [htext] at halpha
    obtain ⟨value, hpair⟩ := halpha ['z', 'z'] "ff8040".toList rfl rfl rfl
    obtain ⟨n, hn⟩ := hpair.hexDigit_of_mem List.mem_cons_self
    rw [← digit?_eq_some_iff] at hn
    exact nomatch hn

end TileKiln.Color
