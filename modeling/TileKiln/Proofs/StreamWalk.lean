import TileKiln.Proofs.ExactReader

namespace TileKiln.Baked

structure Walk where
  stream : List UInt8
  position : Nat := 0
  depth : Nat := 0
  deepest : Nat := 0
  widest : Nat := 0

/-- Why a walk ends early: the stream is refused, or the walk breaks down, because a difference
falls below 0, bytes have another number than they must have, or no frame is left for a call. -/
inductive Stop
  | refused (e : ReadError)
  | panicked
deriving DecidableEq, Repr

abbrev Walker := ExceptT Stop (StateM Walk)

namespace Walker

variable {α : Type}

def refuse (e : ReadError) : Walker α := fun w => (.error (.refused e), w)

def panic : Walker α := fun w => (.error .panicked, w)

def offset : Walker Nat := fun w => (.ok w.position, w)

def remaining : Walker Nat := fun w =>
  if w.position ≤ w.stream.length then (.ok (w.stream.length - w.position), w)
  else panic w

def take (count : Nat) : Walker (List UInt8) := fun w =>
  if w.position + count ≤ w.stream.length then
    (.ok ((w.stream.drop w.position).take count), { w with position := w.position + count })
  else refuse (.unexpectedEnd w.position) w

def array (size : Nat) : Walker (List UInt8) := do
  let bytes ← take size
  if bytes.length = size then return bytes else panic

def byte : Walker UInt8 := do
  return UInt8.ofNat (Word.value (← array 1))

def word : Walker UInt32 := do
  return Word.value32 (← array 4)

def int : Walker Int32 := do
  return (← word).toInt32

def single : Walker Single := do
  return ⟨← word⟩

def length : Walker Nat := do
  return (← word).toNat

def text : Walker String := do
  let count ← length
  let start ← offset
  let bytes ← take count
  match String.fromUTF8? bytes.toByteArray with
  | some text => return text
  | none => refuse (.invalidUtf8 start)

def tagged (α : Type) [DecidableEq α] [Tagged α] : Walker α := do
  let start ← offset
  let tag ← byte
  match Tagged.ofTag? tag with
  | some value => return value
  | none => refuse (.invalidTag (Tagged.kind α) tag start)

def reserve (count : Nat) : Walker Unit := do
  let left ← remaining
  modify fun w => { w with widest := max w.widest (min count left) }

def each (record : Walker α) : Nat → Walker (List α)
  | 0 => return []
  | count + 1 => do
    let first ← record
    let others ← each record count
    return first :: others

def times (record : Walker α) (count : Nat) : Walker (List α) := do
  reserve count
  each record count

def table (record : Walker α) : Walker (List α) := do
  times record (← length)

def nested (inner : Walker α) : Walker α := fun w =>
  if maxNesting ≤ w.depth then refuse (.tooDeep w.position) w
  else
    let (result, w') := inner
      { w with depth := w.depth + 1, deepest := max w.deepest (w.depth + 1) }
    if w'.depth = 0 then panic w' else (result, { w' with depth := w'.depth - 1 })

def whole (walker : Walker α) : Walker α := do
  let value ← walker
  let left ← remaining
  if left = 0 then return value else refuse (.trailingBytes left)

end Walker

namespace Walk

def cursor (w : Walk) : Cursor := ⟨w.stream.drop w.position, w.position⟩

structure Sound (w : Walk) : Prop where
  position : w.position ≤ w.stream.length
  deepest : w.deepest ≤ maxNesting
  widest : w.widest ≤ w.stream.length

/-- A part of a walk goes on in the stream, never back and never past its end, and closes every level
that it opens. -/
structure Continues (w w' : Walk) : Prop where
  stream : w'.stream = w.stream
  depth : w'.depth = w.depth
  position : w.position ≤ w'.position
  sound : w'.Sound

variable {w w' w'' : Walk}

theorem Sound.continues (h : w.Sound) : w.Continues w := ⟨rfl, rfl, Nat.le_refl _, h⟩

theorem Continues.trans (h : w.Continues w') (h' : w'.Continues w'') : w.Continues w'' :=
  ⟨h'.stream.trans h.stream, h'.depth.trans h.depth, Nat.le_trans h.position h'.position, h'.sound⟩

end Walk

variable {α β : Type}

theorem Reader.split?_eq {γ : Type} (n : Nat) (cs : List γ) :
    split? n cs = if n ≤ cs.length then some (cs.take n, cs.drop n) else none := by
  by_cases h : n ≤ cs.length
  · rw [if_pos h, split?_eq_some_iff]
    exact ⟨(List.take_append_drop n cs).symm, List.length_take_of_le h⟩
  · rw [if_neg h, Option.eq_none_iff_forall_ne_some]
    rintro ⟨front, back⟩ hsplit
    obtain ⟨rfl, rfl⟩ := split?_eq_some_iff.1 hsplit
    exact h (List.length_append.symm ▸ Nat.le_add_right _ _)

inductive EndsAlike : Except Stop α × Walk → Except ReadError (α × Cursor) → Prop
  | ok (a : α) (w : Walk) : EndsAlike (.ok a, w) (.ok (a, w.cursor))
  | refused (e : ReadError) (w : Walk) : EndsAlike (.error (.refused e), w) (.error e)

/-- With `levels` more levels to open, a walker ends as the reader does, without a breakdown. -/
def Tracks (levels : Nat) (walker : Walker α) (read : Reader α) : Prop :=
  ∀ w : Walk, w.Sound → w.depth + levels = maxNesting →
    w.Continues (walker w).2 ∧ EndsAlike (walker w) (read w.cursor)

namespace Tracks

variable {levels : Nat} {walker : Walker α} {read : Reader α}

theorem pure (a : α) : Tracks levels (Pure.pure a) (Pure.pure a) :=
  fun w hw _ => ⟨hw.continues, .ok a w⟩

theorem refuse (e : ReadError) : Tracks (α := α) levels (Walker.refuse e) (throw e) :=
  fun w hw _ => ⟨hw.continues, .refused e w⟩

theorem bind {next : α → Walker β} {readNext : α → Reader β} (h : Tracks levels walker read)
    (hnext : ∀ a, Tracks levels (next a) (readNext a)) :
    Tracks levels (walker >>= next) (read >>= readNext) := by
  intro w hw hlevels
  obtain ⟨hfirst, halike⟩ := h w hw hlevels
  rw [run_bind, Reader.run_bind]
  generalize walker w = ended at hfirst halike ⊢
  generalize read w.cursor = read at halike ⊢
  cases halike with
  | refused e w' => exact ⟨hfirst, .refused e w'⟩
  | ok a w' =>
      obtain ⟨hsecond, halike⟩ := hnext a w' hfirst.sound (by rw [hfirst.depth, hlevels])
      exact ⟨hfirst.trans hsecond, halike⟩

theorem map {f : α → β} (h : Tracks levels walker read) :
    Tracks levels (walker >>= fun a => Pure.pure (f a)) (read >>= fun a => Pure.pure (f a)) :=
  h.bind fun a => pure (f a)

theorem offset : Tracks levels Walker.offset Reader.offset :=
  fun w hw _ => ⟨hw.continues, .ok w.position w⟩

theorem take (count : Nat) : Tracks levels (Walker.take count) (Reader.take count) := by
  intro w hw _
  have hleft : w.cursor.rest.length = w.stream.length - w.position := List.length_drop
  have hposition := hw.position
  rw [Walker.take, Reader.take, Reader.split?_eq]
  by_cases hcount : w.position + count ≤ w.stream.length
  · have hrest : w.cursor.rest.drop count = w.stream.drop (w.position + count) := List.drop_drop
    rw [if_pos hcount, if_pos (by omega), hrest]
    exact ⟨⟨rfl, rfl, Nat.le_add_right _ _, hcount, hw.deepest, hw.widest⟩, .ok _ _⟩
  · rw [if_neg hcount, if_neg (by omega)]
    exact ⟨hw.continues, .refused _ w⟩

/-- The copy into an array never fails: as many bytes are there as were taken. -/
theorem array (size : Nat) : Tracks levels (Walker.array size) (Reader.take size) := by
  intro w hw hlevels
  obtain ⟨hcontinues, halike⟩ := take size w hw hlevels
  have hsize : ∀ bytes w', Walker.take size w = (.ok bytes, w') → bytes.length = size := by
    intro bytes w' htake
    rw [Walker.take] at htake
    split at htake
    next hcount =>
      cases htake
      rw [List.length_take, List.length_drop]
      omega
    next => cases htake
  rw [Walker.array, run_bind]
  generalize Walker.take size w = ended at hcontinues halike hsize ⊢
  generalize Reader.take size w.cursor = read at halike ⊢
  cases halike with
  | refused e w' => exact ⟨hcontinues, .refused e w'⟩
  | ok bytes w' =>
      simp only [hsize bytes w' rfl, if_true]
      exact ⟨hcontinues, .ok bytes w'⟩

theorem byte : Tracks levels Walker.byte Reader.byte := (array 1).map

theorem word : Tracks levels Walker.word Reader.word := (array 4).map

theorem int : Tracks levels Walker.int Reader.int := word.map

theorem single : Tracks levels Walker.single Reader.single := word.map

theorem length : Tracks levels Walker.length Reader.length := word.map

theorem text : Tracks levels Walker.text Reader.text := by
  refine length.bind fun count => offset.bind fun start => (take count).bind fun bytes => ?_
  cases String.fromUTF8? bytes.toByteArray with
  | none => exact refuse _
  | some text => exact pure text

theorem tagged [DecidableEq α] [Tagged α] :
    Tracks levels (Walker.tagged α) (Reader.tagged α) := by
  refine offset.bind fun start => byte.bind fun tag => ?_
  cases Tagged.ofTag? (α := α) tag with
  | none => exact refuse _
  | some value => exact pure value

theorem each (h : Tracks levels walker read) (count : Nat) :
    Tracks levels (Walker.each walker count) (Reader.times read count) := by
  induction count with
  | zero => exact pure []
  | succ count ih => exact h.bind fun first => ih.map

theorem reserve (count : Nat) : Tracks levels (Walker.reserve count) (Pure.pure ()) := by
  intro w hw _
  have hwidest : max w.widest (min count (w.stream.length - w.position)) ≤ w.stream.length :=
    Nat.max_le.2 ⟨hw.widest, by omega⟩
  have hreserve : Walker.reserve count w =
      (.ok (), { w with widest := max w.widest (min count (w.stream.length - w.position)) }) := by
    rw [Walker.reserve, run_bind, Walker.remaining, if_pos hw.position]
    rfl
  rw [hreserve]
  exact ⟨⟨rfl, rfl, Nat.le_refl _, hw.position, hw.deepest, hwidest⟩, .ok () _⟩

theorem times (h : Tracks levels walker read) (count : Nat) :
    Tracks levels (Walker.times walker count) (Reader.times read count) := by
  have htimes := (reserve count).bind fun _ => h.each count
  rwa [pure_bind] at htimes

theorem table (h : Tracks levels walker read) :
    Tracks levels (Walker.table walker) (Reader.table read) :=
  length.bind h.times

/-- Where no level is left, none is opened. -/
theorem nested_zero (inner : Walker α) : Tracks 0 (Walker.nested inner) Reader.tooDeep := by
  intro w hw hlevels
  have hfull : maxNesting ≤ w.depth := Nat.le_of_eq hlevels.symm
  rw [Walker.nested, if_pos hfull]
  exact ⟨hw.continues, .refused _ w⟩

/-- The level that is opened is closed again, however the walk ends that is made in it. -/
theorem nested (h : Tracks levels walker read) : Tracks (levels + 1) (Walker.nested walker) read := by
  intro w hw hlevels
  have hroom : ¬ maxNesting ≤ w.depth := by omega
  have hopened : Walk.Sound { w with depth := w.depth + 1, deepest := max w.deepest (w.depth + 1) } :=
    ⟨hw.position, Nat.max_le.2 ⟨hw.deepest, by omega⟩, hw.widest⟩
  obtain ⟨hinner, halike⟩ := h _ hopened (by simp only; omega)
  replace halike : EndsAlike _ (read w.cursor) := halike
  rw [Walker.nested, if_neg hroom]
  generalize walker { w with depth := w.depth + 1, deepest := max w.deepest (w.depth + 1) } = ended
    at hinner halike ⊢
  generalize read w.cursor = read at halike ⊢
  obtain ⟨result, w'⟩ := ended
  have hdepth : w'.depth = w.depth + 1 := hinner.depth
  have hclosed : w.Continues { w' with depth := w'.depth - 1 } :=
    ⟨hinner.stream, by simp only; omega, hinner.position,
      hinner.sound.position, hinner.sound.deepest, hinner.sound.widest⟩
  have hopen : w'.depth ≠ 0 := by omega
  simp only [if_neg hopen]
  cases halike with
  | ok a => exact ⟨hclosed, .ok a { w' with depth := w'.depth - 1 }⟩
  | refused e => exact ⟨hclosed, .refused e _⟩

end Tracks

/-- Over a whole stream a walker that tracks a reader comes to what the reader makes of the stream. -/
theorem Tracks.whole {walker : Walker α} {read : Reader α} (h : Tracks maxNesting walker read)
    (stream : List UInt8) :
    (walker.whole { stream }).1 = (read.run stream).mapError .refused ∧
      Walk.Continues { stream } (walker.whole { stream }).2 := by
  have hstart : Walk.Sound { stream } := ⟨Nat.zero_le _, Nat.zero_le _, Nat.zero_le _⟩
  obtain ⟨hcontinues, halike⟩ := h { stream } hstart (Nat.zero_add maxNesting)
  replace halike : EndsAlike _ (read ⟨stream, 0⟩) := halike
  rw [Walker.whole, run_bind, Reader.run]
  generalize walker { stream } = ended at hcontinues halike ⊢
  generalize read ⟨stream, 0⟩ = read at halike ⊢
  cases halike with
  | refused e w => exact ⟨rfl, hcontinues⟩
  | ok a w =>
      have hleft : w.cursor.rest.length = w.stream.length - w.position := List.length_drop
      simp only [run_bind, Walker.remaining, if_pos hcontinues.sound.position, ← hleft,
        List.length_eq_zero_iff, List.isEmpty_iff]
      split
      · exact ⟨rfl, hcontinues⟩
      · exact ⟨rfl, hcontinues⟩

end TileKiln.Baked
