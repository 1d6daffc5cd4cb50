namespace TileKiln.Field

variable {α : Type}

def takes (own fallback : Option α) : Bool :=
  own.isNone && fallback.isSome

def inherit : Option α → Option α → Option α
  | some value, _ => some value
  | none, fallback => fallback

theorem inherit_none (fallback : Option α) : inherit none fallback = fallback := rfl

theorem inherit_self (field : Option α) : inherit field field = field := by
  cases field <;> rfl

theorem inherit_assoc (a b c : Option α) : inherit (inherit a b) c = inherit a (inherit b c) := by
  cases a <;> rfl

end TileKiln.Field
