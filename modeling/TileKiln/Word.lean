namespace TileKiln

/-- A result of arithmetic on words. Where one is no word, the program ends on the spot. -/
abbrev Checked (α : Type) := Option α

namespace Word

def bytes : (count : Nat) → (n : Nat) → List UInt8
  | 0, _ => []
  | count + 1, n => UInt8.ofNat n :: bytes count (n / 256)

def value : List UInt8 → Nat
  | [] => 0
  | b :: bs => b.toNat + 256 * value bs

def bytes32 (w : UInt32) : List UInt8 := bytes 4 w.toNat

def value32 (bs : List UInt8) : UInt32 := UInt32.ofNat (value bs)

def ofNat32? (n : Nat) : Checked UInt32 :=
  if n < UInt32.size then some (UInt32.ofNat n) else none

def ofNat64? (n : Nat) : Checked UInt64 :=
  if n < UInt64.size then some (UInt64.ofNat n) else none

def add32? (a b : UInt32) : Checked UInt32 := ofNat32? (a.toNat + b.toNat)

def mul32? (a b : UInt32) : Checked UInt32 := ofNat32? (a.toNat * b.toNat)

def add64? (a b : UInt64) : Checked UInt64 := ofNat64? (a.toNat + b.toNat)

def mul64? (a b : UInt64) : Checked UInt64 := ofNat64? (a.toNat * b.toNat)

theorem length_bytes (count n : Nat) : (bytes count n).length = count := by
  induction count generalizing n with
  | zero => rfl
  | succ count ih => simp [bytes, ih]

theorem value_lt (bs : List UInt8) : value bs < Nat.pow 256 bs.length := by
  induction bs with
  | nil => exact Nat.one_pos
  | cons b bs ih =>
    have hb := b.toNat_lt
    change b.toNat + 256 * value bs < Nat.pow 256 bs.length * 256
    omega

theorem value_bytes {count n : Nat} (h : n < Nat.pow 256 count) : value (bytes count n) = n := by
  induction count generalizing n with
  | zero => exact (Nat.lt_one_iff.1 h).symm
  | succ count ih =>
    change n < Nat.pow 256 count * 256 at h
    have hn : n / 256 < Nat.pow 256 count := by omega
    simp only [bytes, value, ih hn, UInt8.toNat_ofNat']
    omega

theorem value32_bytes32 (w : UInt32) : value32 (bytes32 w) = w := by
  have h : w.toNat < Nat.pow 256 4 := w.toNat_lt
  simp [value32, bytes32, value_bytes h]

end Word

end TileKiln
