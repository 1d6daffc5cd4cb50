namespace TileKiln.Inflate

inductive Fault
  | corrupt
  | truncated
deriving DecidableEq, Repr, Inhabited

structure Bits where
  pending : List Bool
  rest : List UInt8
deriving DecidableEq, Repr, Inhabited

abbrev BitReader := StateT Bits (Except Fault)

namespace BitReader

def bit : BitReader Bool := fun bits =>
  match bits.pending, bits.rest with
  | b :: pending, rest => .ok (b, ⟨pending, rest⟩)
  | [], byte :: rest =>
    .ok (byte.toNat.testBit 0, ⟨(List.range' 1 7).map byte.toNat.testBit, rest⟩)
  | [], [] => .error .truncated

def number : (count : Nat) → BitReader Nat
  | 0 => return 0
  | count + 1 => do
    let low ← bit
    let high ← number count
    return low.toNat + 2 * high

def align : BitReader Unit := modify fun bits => { bits with pending := [] }

def corrupt {α : Type} : BitReader α := throw .corrupt

end BitReader

open BitReader

/-- A canonical prefix code: how many symbols have codes of 1, 2, … bits, up to the longest code and
for at least one bit, and the symbols in the order of their codes. -/
structure Code where
  counts : List Nat
  symbols : Array Nat
deriving Repr, Inhabited

namespace Code

def ofLengths (lengths : List Nat) : Code :=
  let widths := List.range' 1 (lengths.foldl max 1)
  { counts := widths.map fun l => lengths.count l
    symbols := (widths.flatMap fun l =>
      (lengths.zipIdx.filter (·.1 == l)).map (·.2)).toArray }

def isComplete (code : Code) : Bool :=
  code.counts.foldl (fun total count => 2 * (total + count)) 0 == 1 <<< (code.counts.length + 1)

/-- A code may be incomplete only if it has no symbol, or one symbol with a code of one bit. -/
def isUsable (code : Code) : Bool :=
  code.isComplete || (code.symbols.size ≤ 1 && code.counts.length == 1)

/-- Walks down the lengths: `value` are the bits read, `first` the first code of their length, and
`index` the place of its symbol. Bits as long as the longest code that are no code are a fault. -/
def walk (symbols : Array Nat) : (counts : List Nat) → (value first index : Nat) → BitReader Nat
  | [], _, _, _ => corrupt
  | count :: counts, value, first, index => do
    let value := 2 * value + (← bit).toNat
    let first := 2 * first
    if value < first + count then return symbols.getD (index + (value - first)) 0
    else walk symbols counts value (first + count) (index + count)

def next (code : Code) : BitReader Nat :=
  walk code.symbols code.counts 0 0 0

end Code

def lengthBases : Array (Nat × Nat) :=
  #[(3, 0), (4, 0), (5, 0), (6, 0), (7, 0), (8, 0), (9, 0), (10, 0), (11, 1), (13, 1), (15, 1),
    (17, 1), (19, 2), (23, 2), (27, 2), (31, 2), (35, 3), (43, 3), (51, 3), (59, 3), (67, 4),
    (83, 4), (99, 4), (115, 4), (131, 5), (163, 5), (195, 5), (227, 5), (258, 0)]

def distanceBases : Array (Nat × Nat) :=
  #[(1, 0), (2, 0), (3, 0), (4, 0), (5, 1), (7, 1), (9, 2), (13, 2), (17, 3), (25, 3), (33, 4),
    (49, 4), (65, 5), (97, 5), (129, 6), (193, 6), (257, 7), (385, 7), (513, 8), (769, 8),
    (1025, 9), (1537, 9), (2049, 10), (3073, 10), (4097, 11), (6145, 11), (8193, 12), (12289, 12),
    (16385, 13), (24577, 13)]

def extended (bases : Array (Nat × Nat)) (symbol : Nat) : BitReader Nat :=
  match bases[symbol]? with
  | some (base, extra) => return base + (← number extra)
  | none => corrupt

inductive Item
  | byte (b : UInt8)
  | copy (length distance : Nat)
  | done

def item (literals distances : Code) : BitReader Item := do
  let symbol ← literals.next
  if symbol < 256 then return .byte (UInt8.ofNat symbol)
  else if symbol = 256 then return .done
  else
    let length ← extended lengthBases (symbol - 257)
    let distance ← extended distanceBases (← distances.next)
    return .copy length distance

def fixedLiterals : Code :=
  .ofLengths (List.replicate 144 8 ++ List.replicate 112 9 ++ List.replicate 24 7 ++
    List.replicate 8 8)

def fixedDistances : Code :=
  .ofLengths (List.replicate 32 5)

def lengthOrder : List Nat :=
  [16, 17, 18, 0, 8, 7, 9, 6, 10, 5, 11, 4, 12, 3, 13, 2, 14, 1, 15]

def numbers (width : Nat) : (count : Nat) → BitReader (List Nat)
  | 0 => return []
  | count + 1 => do
    let first ← number width
    return first :: (← numbers width count)

def runLengths (code : Code) (total : Nat) : (rounds : Nat) → List Nat → BitReader (List Nat)
  | 0, reversed => if reversed.length = total then return reversed else corrupt
  | rounds + 1, reversed => do
    if total ≤ reversed.length then
      if reversed.length = total then return reversed else corrupt
    else
      let symbol ← code.next
      if symbol < 16 then runLengths code total rounds (symbol :: reversed)
      else if symbol = 16 then
        match reversed with
        | [] => corrupt
        | last :: _ =>
          runLengths code total rounds (List.replicate (3 + (← number 2)) last ++ reversed)
      else if symbol = 17 then
        runLengths code total rounds (List.replicate (3 + (← number 3)) 0 ++ reversed)
      else runLengths code total rounds (List.replicate (11 + (← number 7)) 0 ++ reversed)

def dynamicCodes : BitReader (Code × Code) := do
  let literalCount := 257 + (← number 5)
  let distanceCount := 1 + (← number 5)
  let lengthCount := 4 + (← number 4)
  if 286 < literalCount ∨ 30 < distanceCount then corrupt
  let widths := lengthOrder.zip (← numbers 3 lengthCount)
  let lengthCode := Code.ofLengths ((List.range 19).map fun i => (widths.lookup i).getD 0)
  if !lengthCode.isComplete then corrupt
  let total := literalCount + distanceCount
  let lengths := (← runLengths lengthCode total total []).reverse
  let literals := Code.ofLengths (lengths.take literalCount)
  let distances := Code.ofLengths (lengths.drop literalCount)
  if literals.isUsable && distances.isUsable then return (literals, distances) else corrupt

/-- Appends `length` bytes, each the one `distance` places back. Before the first byte lie zeros. -/
def copyBack (distance : Nat) : (length : Nat) → Array UInt8 → Array UInt8
  | 0, out => out
  | length + 1, out =>
    let b := if distance ≤ out.size then out.getD (out.size - distance) 0 else 0
    copyBack distance length (out.push b)

structure Progress where
  out : Array UInt8
  next : Except Fault Bits

def items (literals distances : Code) : (rounds : Nat) → Array UInt8 → Bits → Progress
  | 0, out, _ => ⟨out, .error .corrupt⟩
  | rounds + 1, out, bits =>
    match item literals distances bits with
    | .error fault => ⟨out, .error fault⟩
    | .ok (.byte b, bits) => items literals distances rounds (out.push b) bits
    | .ok (.copy length distance, bits) =>
      items literals distances rounds (copyBack distance length out) bits
    | .ok (.done, bits) => ⟨out, .ok bits⟩

def storedBytes : (count : Nat) → Array UInt8 → List UInt8 → Progress
  | 0, out, rest => ⟨out, .ok ⟨[], rest⟩⟩
  | _ + 1, out, [] => ⟨out, .error .truncated⟩
  | count + 1, out, b :: rest => storedBytes count (out.push b) rest

def storedLength : BitReader Nat := do
  align
  let length ← number 16
  let inverted ← number 16
  if length + inverted = 0xFFFF then return length else corrupt

inductive BlockKind
  | stored (length : Nat)
  | coded (literals distances : Code)

def blockHead : BitReader (Bool × BlockKind) := do
  let last ← bit
  match ← number 2 with
  | 0 => return (last, .stored (← storedLength))
  | 1 => return (last, .coded fixedLiterals fixedDistances)
  | 2 =>
    let (literals, distances) ← dynamicCodes
    return (last, .coded literals distances)
  | _ => corrupt

def blocks (rounds : Nat) : (count : Nat) → Array UInt8 → Bits → Progress
  | 0, out, _ => ⟨out, .error .corrupt⟩
  | count + 1, out, bits =>
    match blockHead bits with
    | .error fault => ⟨out, .error fault⟩
    | .ok ((last, kind), bits) =>
      let progress :=
        match kind with
        | .stored length => storedBytes length out bits.rest
        | .coded literals distances => items literals distances rounds out bits
      match progress.next with
      | .error _ => progress
      | .ok bits => if last then progress else blocks rounds count progress.out bits

end Inflate

/-- The bytes that a DEFLATE stream holds, and what follows the stream or the fault that ends it. -/
def inflate (stream : List UInt8) : Array UInt8 × Except Inflate.Fault (List UInt8) :=
  let rounds := 8 * stream.length + 1
  let progress := Inflate.blocks rounds rounds #[] ⟨[], stream⟩
  (progress.out, progress.next.map (·.rest))

end TileKiln
