import TileKiln.Xml.Reference

namespace TileKiln.Xml

/-- A name with what stands before its colon, empty without a colon. -/
structure QName where
  space : String
  name : String
deriving DecidableEq, Repr, Inhabited

inductive Token
  | opening (name : QName) (attributes : List (QName × String)) (closed : Bool)
  | closing (name : QName)
  | text (raw : List Char)
  | literal (raw : List Char)
  | aside
deriving DecidableEq, Repr, Inhabited

def startsWith (mark : String) (cs : List Char) : Bool :=
  mark.toList.isPrefixOf cs

def after? (mark : String) (cs : List Char) : Option (List Char) :=
  if startsWith mark cs then some (cs.drop mark.length) else none

theorem length_after?_le {mark : String} {cs rest : List Char} (h : after? mark cs = some rest) :
    rest.length ≤ cs.length := by
  unfold after? at h
  split at h
  · cases h
    rw [List.length_drop]
    exact Nat.sub_le _ _
  · cases h

def until? (mark : String) : List Char → Option (List Char × List Char)
  | [] => none
  | c :: cs =>
    match after? mark (c :: cs) with
    | some rest => some ([], rest)
    | none =>
      if isAllowed c then (until? mark cs).map fun (front, rest) => (c :: front, rest) else none

theorem length_until?_le {mark : String} {cs front rest : List Char}
    (h : until? mark cs = some (front, rest)) : rest.length ≤ cs.length := by
  induction cs generalizing front with
  | nil => cases h
  | cons c cs ih =>
    unfold until? at h
    split at h
    · next ha =>
      cases h
      exact length_after?_le ha
    · split at h
      · obtain ⟨⟨front', rest'⟩, hu, he⟩ := Option.map_eq_some_iff.1 h
        cases he
        exact Nat.le_succ_of_le (ih hu)
      · cases h

def contains (mark : String) : List Char → Bool
  | [] => false
  | c :: cs => startsWith mark (c :: cs) || contains mark cs

def skipSpaces (cs : List Char) : List Char :=
  cs.dropWhile isSpace

theorem length_skipSpaces_le (cs : List Char) : (skipSpaces cs).length ≤ cs.length :=
  (List.dropWhile_sublist isSpace).length_le

def isName (cs : List Char) : Bool :=
  cs.head?.any isNameStart

def qname? (cs : List Char) : Option (QName × List Char) :=
  let front := cs.takeWhile isNameRest
  match cs.dropWhile isNameRest with
  | ':' :: after =>
    let back := after.takeWhile isNameRest
    let rest := after.dropWhile isNameRest
    if (front.isEmpty || isName front) && isName back && rest.head? != some ':' then
      some (⟨String.ofList front, String.ofList back⟩, rest)
    else none
  | rest => if isName front then some (⟨"", String.ofList front⟩, rest) else none

theorem length_qname?_le {cs rest : List Char} {name : QName} (h : qname? cs = some (name, rest)) :
    rest.length ≤ cs.length := by
  have hd := (List.dropWhile_sublist (l := cs) isNameRest).length_le
  simp only [qname?] at h
  split at h
  · next after ha =>
    split at h
    · cases h
      have hb := (List.dropWhile_sublist (l := after) isNameRest).length_le
      rw [ha, List.length_cons] at hd
      omega
    · cases h
  · split at h
    · cases h
      exact hd
    · cases h

def quoted? (cs : List Char) : Option (List Char × List Char) :=
  match cs with
  | '"' :: r => until? "\"" r
  | '\'' :: r => until? "'" r
  | _ => none

theorem length_quoted?_le {cs front rest : List Char} (h : quoted? cs = some (front, rest)) :
    rest.length ≤ cs.length := by
  unfold quoted? at h
  split at h
  · exact Nat.le_succ_of_le (length_until?_le h)
  · exact Nat.le_succ_of_le (length_until?_le h)
  · cases h

def assigned? (cs : List Char) : Option (List Char × List Char) :=
  (after? "=" (skipSpaces cs)).bind (quoted? <| skipSpaces ·)

theorem length_assigned?_le {cs front rest : List Char} (h : assigned? cs = some (front, rest)) :
    rest.length ≤ cs.length := by
  obtain ⟨r, ha, hq⟩ := Option.bind_eq_some_iff.1 h
  have h₁ := length_skipSpaces_le cs
  have h₂ := length_after?_le ha
  have h₃ := length_skipSpaces_le r
  have h₄ := length_quoted?_le hq
  omega

def assignment? (cs : List Char) : Option ((QName × List Char) × List Char) :=
  (qname? cs).bind fun (name, r) =>
    (assigned? r).bind fun (raw, rest) =>
      if raw.contains '<' then none else some ((name, raw), rest)

theorem length_assignment?_le {cs rest : List Char} {a : QName × List Char}
    (h : assignment? cs = some (a, rest)) : rest.length ≤ cs.length := by
  obtain ⟨⟨name, r⟩, hn, h⟩ := Option.bind_eq_some_iff.1 h
  obtain ⟨⟨raw, rest'⟩, ha, h⟩ := Option.bind_eq_some_iff.1 h
  dsimp only at h
  split at h
  · cases h
  · cases h
    exact Nat.le_trans (length_assigned?_le ha) (length_qname?_le hn)

def attribute? (cs : List Char) : Option ((QName × String) × List Char) :=
  (assignment? cs).bind fun ((name, raw), rest) =>
    (attributeValue? raw).map fun value => ((name, String.ofList value), rest)

theorem length_attribute?_le {cs rest : List Char} {a : QName × String}
    (h : attribute? cs = some (a, rest)) : rest.length ≤ cs.length := by
  obtain ⟨⟨⟨name, raw⟩, rest'⟩, ha, h⟩ := Option.bind_eq_some_iff.1 h
  obtain ⟨value, _, he⟩ := Option.map_eq_some_iff.1 h
  cases he
  exact length_assignment?_le ha

def tagEnd? (cs : List Char) : Option (Bool × List Char) :=
  match cs with
  | '>' :: rest => some (false, rest)
  | '/' :: '>' :: rest => some (true, rest)
  | _ => none

theorem length_tagEnd?_le {cs rest : List Char} {closed : Bool}
    (h : tagEnd? cs = some (closed, rest)) : rest.length ≤ cs.length := by
  unfold tagEnd? at h
  split at h
  · cases h
    exact Nat.le_succ _
  · cases h
    exact Nat.le_add_right _ 2
  · cases h

def nextAttribute? (cs : List Char) : Option ((QName × String) × List Char) :=
  match cs with
  | c :: r => if isSpace c then attribute? (skipSpaces r) else none
  | [] => none

theorem length_nextAttribute?_lt {cs rest : List Char} {a : QName × String}
    (h : nextAttribute? cs = some (a, rest)) : rest.length < cs.length := by
  unfold nextAttribute? at h
  split at h
  · next r =>
    split at h
    · exact Nat.lt_succ_of_le (Nat.le_trans (length_attribute?_le h) (length_skipSpaces_le r))
    · cases h
  · cases h

def attributes? (cs : List Char) : Option (List (QName × String) × Bool × List Char) :=
  match tagEnd? (skipSpaces cs) with
  | some (closed, rest) => some ([], closed, rest)
  | none =>
    match _h : nextAttribute? cs with
    | some (a, rest) =>
      (attributes? rest).map fun (others, closed, rest) => (a :: others, closed, rest)
    | none => none
termination_by cs.length
decreasing_by exact length_nextAttribute?_lt _h

theorem length_attributes?_le {cs rest : List Char} {as : List (QName × String)} {closed : Bool}
    (h : attributes? cs = some (as, closed, rest)) : rest.length ≤ cs.length := by
  fun_induction attributes? cs generalizing as with
  | case1 cs closed' rest' he =>
    cases h
    exact Nat.le_trans (length_tagEnd?_le he) (length_skipSpaces_le cs)
  | case2 cs _ a rest' ha ih =>
    obtain ⟨⟨others, closed', rest''⟩, hr, he⟩ := Option.map_eq_some_iff.1 h
    cases he
    exact Nat.le_trans (ih hr) (Nat.le_of_lt (length_nextAttribute?_lt ha))
  | case3 => cases h

def instruction? (cs : List Char) : Option (List Char) :=
  if startsWith "xml " cs || !(cs.head?.any fun c => isNameStart c || isColon c) then none
  else (until? "?>" (skipSpaces (cs.dropWhile fun c => isNameRest c || isColon c))).map (·.2)

theorem length_instruction?_le {cs rest : List Char} (h : instruction? cs = some rest) :
    rest.length ≤ cs.length := by
  unfold instruction? at h
  split at h
  · cases h
  · obtain ⟨⟨front, rest'⟩, hu, he⟩ := Option.map_eq_some_iff.1 h
    cases he
    have h₁ := length_until?_le hu
    have h₂ := length_skipSpaces_le (cs.dropWhile fun c => isNameRest c || isColon c)
    have h₃ :=
      (List.dropWhile_sublist (l := cs) fun c => isNameRest c || isColon c).length_le
    exact Nat.le_trans h₁ (Nat.le_trans h₂ h₃)

def comment? (cs : List Char) : Option (List Char) :=
  match until? "-->" cs with
  | some (body, rest) =>
    if contains "--" body || body.getLast? == some '-' then none else some rest
  | none => none

theorem length_comment?_le {cs rest : List Char} (h : comment? cs = some rest) :
    rest.length ≤ cs.length := by
  unfold comment? at h
  split at h
  · next hu =>
    split at h
    · cases h
    · cases h
      exact length_until?_le hu
  · cases h

def markup? (cs : List Char) : Option (Token × List Char) :=
  match cs with
  | '?' :: r => (instruction? r).map (.aside, ·)
  | '/' :: r =>
    (qname? r).bind fun (name, r) => (after? ">" (skipSpaces r)).map (.closing name, ·)
  | '!' :: r =>
    match after? "--" r, after? "[CDATA[" r with
    | some body, _ => (comment? body).map (.aside, ·)
    | none, some body => (until? "]]>" body).map fun (raw, rest) => (.literal raw, rest)
    | none, none => none
  | r =>
    (qname? r).bind fun (name, r) =>
      (attributes? r).map fun (as, closed, rest) => (.opening name as closed, rest)

theorem length_markup?_le {cs rest : List Char} {token : Token}
    (h : markup? cs = some (token, rest)) : rest.length ≤ cs.length := by
  unfold markup? at h
  split at h
  · obtain ⟨_, hi, he⟩ := Option.map_eq_some_iff.1 h
    cases he
    exact Nat.le_succ_of_le (length_instruction?_le hi)
  · next r =>
    obtain ⟨⟨name, r'⟩, hn, h⟩ := Option.bind_eq_some_iff.1 h
    obtain ⟨_, ha, he⟩ := Option.map_eq_some_iff.1 h
    cases he
    have h₁ := length_qname?_le hn
    have h₂ := length_skipSpaces_le r'
    have h₃ := length_after?_le ha
    simp only [List.length_cons]
    omega
  · next r =>
    split at h
    · next body _ hb =>
      obtain ⟨_, hc, he⟩ := Option.map_eq_some_iff.1 h
      cases he
      exact Nat.le_succ_of_le (Nat.le_trans (length_comment?_le hc) (length_after?_le hb))
    · next body _ hb =>
      obtain ⟨⟨raw, rest'⟩, hu, he⟩ := Option.map_eq_some_iff.1 h
      cases he
      exact Nat.le_succ_of_le (Nat.le_trans (length_until?_le hu) (length_after?_le hb))
    · cases h
  · obtain ⟨⟨name, r⟩, hn, h⟩ := Option.bind_eq_some_iff.1 h
    obtain ⟨⟨as, closed, rest'⟩, ha, he⟩ := Option.map_eq_some_iff.1 h
    cases he
    exact Nat.le_trans (length_attributes?_le ha) (length_qname?_le hn)

def token? (c : Char) (cs : List Char) : Option (Token × List Char) :=
  if c = '<' then markup? cs
  else
    let raw := c :: cs.takeWhile (· != '<')
    if raw.all isAllowed && !contains "]]>" raw then some (.text raw, cs.dropWhile (· != '<'))
    else none

theorem length_token?_le {c : Char} {cs rest : List Char} {token : Token}
    (h : token? c cs = some (token, rest)) : rest.length ≤ cs.length := by
  unfold token? at h
  split at h
  · exact length_markup?_le h
  · simp only at h
    split at h
    · cases h
      exact (List.dropWhile_sublist _).length_le
    · cases h

def tokens? : List Char → Option (List Token)
  | [] => some []
  | c :: cs =>
    match _h : token? c cs with
    | some (token, rest) => (tokens? rest).map (token :: ·)
    | none => none
termination_by cs => cs.length
decreasing_by exact Nat.lt_succ_of_le (length_token?_le _h)

end TileKiln.Xml
