import TileKiln.Word

namespace TileKiln.Word

variable {n : Nat}

section

variable {a b c : UInt32}

theorem ofNat32?_eq_some_iff : ofNat32? n = some c ↔ c.toNat = n := by
  rw [ofNat32?, Option.ite_none_right_eq_some]
  constructor
  · rintro ⟨hlt, h⟩
    cases h
    exact UInt32.toNat_ofNat_of_lt' hlt
  · rintro rfl
    exact ⟨c.toNat_lt, congrArg some c.ofNat_toNat⟩

theorem exists_toNat32_eq (h : n < UInt32.size) : ∃ w : UInt32, w.toNat = n :=
  ⟨UInt32.ofNat n, UInt32.toNat_ofNat_of_lt' h⟩

theorem add32?_eq_some_iff : add32? a b = some c ↔ c.toNat = a.toNat + b.toNat :=
  ofNat32?_eq_some_iff

theorem mul32?_eq_some_iff : mul32? a b = some c ↔ c.toNat = a.toNat * b.toNat :=
  ofNat32?_eq_some_iff

end

section

variable {a b c : UInt64}

theorem ofNat64?_eq_some_iff : ofNat64? n = some c ↔ c.toNat = n := by
  rw [ofNat64?, Option.ite_none_right_eq_some]
  constructor
  · rintro ⟨hlt, h⟩
    cases h
    exact UInt64.toNat_ofNat_of_lt' hlt
  · rintro rfl
    exact ⟨c.toNat_lt, congrArg some c.ofNat_toNat⟩

theorem add64?_eq_some_iff : add64? a b = some c ↔ c.toNat = a.toNat + b.toNat :=
  ofNat64?_eq_some_iff

theorem mul64?_eq_some_iff : mul64? a b = some c ↔ c.toNat = a.toNat * b.toNat :=
  ofNat64?_eq_some_iff

end

end TileKiln.Word
