import TileKiln.Text.Blank
import TileKiln.Text.Numeral
import TileKiln.Xml.Char

namespace TileKiln.Xml

/-- The character of a numeric reference. A number that is no character stands for U+FFFD. -/
def numbered? (n : Nat) : Option Char :=
  if n < UInt32.size then
    let c := if n.isValidChar then Char.ofNat n else Char.ofNat 0xFFFD
    if isAllowed c then some c else none
  else none

def named? (name : String) : Option Char :=
  match name with
  | "quot" => some '"'
  | "amp" => some '&'
  | "apos" => some '\''
  | "lt" => some '<'
  | "gt" => some '>'
  | _ => none

def referent? : List Char → Option Char
  | '#' :: 'x' :: digits => (Text.digits? 16 digits).bind numbered?
  | '#' :: digits => (Text.digits? 10 digits).bind numbered?
  | name => named? (String.ofList name)

def reference? (cs : List Char) : Option (Char × List Char) :=
  match Text.splitOnce? ';' cs with
  | some (body, rest) => (referent? body).map (·, rest)
  | none => none

theorem length_reference?_lt {cs rest : List Char} {c : Char} (h : reference? cs = some (c, rest)) :
    rest.length < cs.length := by
  unfold reference? at h
  split at h
  · next hs =>
    obtain ⟨_, _, he⟩ := Option.map_eq_some_iff.1 h
    cases he
    exact Text.length_splitOnce?_lt hs
  · cases h

def attributeValue? : List Char → Option (List Char)
  | [] => some []
  | '\r' :: '\n' :: cs => (attributeValue? cs).map (' ' :: ·)
  | '&' :: cs =>
    match _h : reference? cs with
    | some (c, rest) => (attributeValue? rest).map (c :: ·)
    | none => none
  | c :: cs => (attributeValue? cs).map ((if isSpace c then ' ' else c) :: ·)
termination_by cs => cs.length
decreasing_by
  · simp only [List.length_cons]; omega
  · exact Nat.lt_succ_of_lt (length_reference?_lt _h)
  · exact Nat.lt_succ_self _

/-- Adds a literal character to text that is held last character first. A carriage return waits to
see whether a line feed follows, and at the end of the text becomes a line feed itself. -/
def pushLiteral (c : Char) (atEnd : Bool) (reversed : List Char) : List Char :=
  let settled :=
    match reversed with
    | '\r' :: before => '\n' :: before
    | _ => reversed
  if atEnd && c == '\r' then '\n' :: settled
  else if c == '\n' && reversed.head? == some '\r' then settled
  else c :: settled

def literalText : List Char → List Char → List Char
  | reversed, [] => reversed.reverse
  | reversed, c :: cs => literalText (pushLiteral c cs.isEmpty reversed) cs

def characterData? (reversed : List Char) (afterReference : Bool) : List Char → Option (List Char)
  | [] => some reversed.reverse
  | '&' :: cs =>
    match _h : reference? cs with
    | some (c, rest) => characterData? (c :: reversed) true rest
    | none => none
  | c :: cs =>
    let reversed := if afterReference then c :: reversed else pushLiteral c cs.isEmpty reversed
    characterData? reversed false cs
termination_by cs => cs.length
decreasing_by
  · exact Nat.lt_succ_of_lt (length_reference?_lt _h)
  · exact Nat.lt_succ_self _

end TileKiln.Xml
