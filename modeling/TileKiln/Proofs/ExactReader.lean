import TileKiln.Proofs.Layout
import TileKiln.Proofs.ReadBack
import TileKiln.Proofs.StreamLimits

namespace TileKiln

namespace Word

theorem bytes_value (bs : List UInt8) : bytes bs.length (value bs) = bs := by
  induction bs with
  | nil => rfl
  | cons b bs ih =>
      have hb := b.toNat_lt
      have hlow : UInt8.ofNat (b.toNat + 256 * value bs) = b := by
        apply UInt8.toNat_inj.1
        rw [UInt8.toNat_ofNat']
        omega
      have hhigh : (b.toNat + 256 * value bs) / 256 = value bs := by omega
      rw [List.length_cons, value, bytes, hlow, hhigh, ih]

theorem bytes32_value32 {bs : List UInt8} (h : bs.length = 4) : bytes32 (value32 bs) = bs := by
  have hlt : value bs < UInt32.size := by
    have hvalue := value_lt bs
    rw [h] at hvalue
    exact hvalue
  rw [bytes32, value32, UInt32.toNat_ofNat_of_lt' hlt, ← h, bytes_value]

end Word

namespace Baked

theorem Tagged.tag_of_ofTag? {α : Type} [DecidableEq α] [Tagged α] {t : UInt8} {a : α}
    (h : ofTag? t = some a) : tag a = t := by
  obtain ⟨hlt, rfl⟩ := List.getElem?_eq_some_iff.1 h
  rw [tag, List.Nodup.idxOf_getElem nodup_values, UInt8.ofNat_toNat]

inductive ReadError.Shows : ReadError → (offset : Nat) → List UInt8 → Prop
  | unexpectedEnd (front back : List UInt8) (offset : Nat) :
      Shows (.unexpectedEnd (offset + front.length)) offset (front ++ back)
  | tooDeep (front back : List UInt8) (offset : Nat) :
      Shows (.tooDeep (offset + front.length)) offset (front ++ back)
  | invalidTag (kind : TagKind) (tag : UInt8) (front back : List UInt8) (offset : Nat)
      (htag : kind.count ≤ tag.toNat) :
      Shows (.invalidTag kind tag (offset + front.length)) offset (front ++ tag :: back)
  | invalidUtf8 (content front back : List UInt8) (offset : Nat) (hfits : FitsWord content.length)
      (hcontent : String.fromUTF8? content.toByteArray = none) :
      Shows (.invalidUtf8 (offset + (front ++ Layout.count content.length).length)) offset
        (front ++ Layout.count content.length ++ content ++ back)

theorem ReadError.Shows.before {e : ReadError} {front bytes : List UInt8} {offset : Nat}
    (h : e.Shows (offset + front.length) bytes) : e.Shows offset (front ++ bytes) := by
  cases h with
  | unexpectedEnd inner back =>
      rw [← List.append_assoc, Nat.add_assoc, ← List.length_append]
      exact .unexpectedEnd (front ++ inner) back offset
  | tooDeep inner back =>
      rw [← List.append_assoc, Nat.add_assoc, ← List.length_append]
      exact .tooDeep (front ++ inner) back offset
  | invalidTag kind tag inner back _ htag =>
      rw [← List.append_assoc, Nat.add_assoc, ← List.length_append]
      exact .invalidTag kind tag (front ++ inner) back offset htag
  | invalidUtf8 content inner back _ hfits hcontent =>
      rw [Nat.add_assoc, ← List.length_append]
      simp only [← List.append_assoc]
      exact .invalidUtf8 content (front ++ inner) back offset hfits hcontent

namespace Reader

variable {α β : Type} {read : Reader α} {next : α → Reader β} {front back bytes : List UInt8}
  {a : α} {told told' : α → List UInt8 → Prop} {toldNext : β → List UInt8 → Prop}

theorem Gives.run_eq (h : read.Gives True front a) (rest : List UInt8) (offset : Nat) :
    read ⟨front ++ rest, offset⟩ = .ok (a, ⟨rest, offset + front.length⟩) :=
  (h rest offset).resolve_right fun ⟨hn, _⟩ => hn trivial

/-- An error after which it does not matter what comes behind the bytes, unless they have ended. -/
def Stands (read : Reader α) (bytes : List UInt8) (offset : Nat) (e : ReadError) : Prop :=
  (∃ place, e = .unexpectedEnd place) ∨ ∀ more, read ⟨bytes ++ more, offset⟩ = .error e

structure Exact (read : Reader α) (told : α → List UInt8 → Prop) : Prop where
  takes : ∀ {bytes offset a cursor}, read ⟨bytes, offset⟩ = .ok (a, cursor) →
    ∃ front, bytes = front ++ cursor.rest ∧ told a front ∧ read.Gives True front a
  refuses : ∀ {bytes offset e}, read ⟨bytes, offset⟩ = .error e →
    e.Shows offset bytes ∧ read.Stands bytes offset e

theorem Exact.mono (h : read.Exact told) (hmono : ∀ a front, told a front → told' a front) :
    read.Exact told' where
  takes hrun := by
    obtain ⟨front, hbytes, htold, hgives⟩ := h.takes hrun
    exact ⟨front, hbytes, hmono _ front htold, hgives⟩
  refuses := h.refuses

theorem exact_pure (h : told a []) : (pure a : Reader α).Exact told where
  takes hrun := by
    cases hrun
    exact ⟨[], rfl, h, gives_pure a⟩
  refuses hrun := nomatch hrun

theorem Exact.bind (h : read.Exact told)
    (hnext : ∀ a front, told a front →
      (next a).Exact fun b back => toldNext b (front ++ back)) :
    (read >>= next).Exact toldNext where
  takes {bytes offset b cursor} hrun := by
    rw [run_bind] at hrun
    split at hrun
    next a middle hread =>
      obtain ⟨front, rfl, htold, hgives⟩ := h.takes hread
      obtain ⟨back, hrest, htoldNext, hgivesNext⟩ := (hnext a front htold).takes hrun
      exact ⟨front ++ back, by rw [hrest, List.append_assoc], htoldNext, hgives.bind hgivesNext⟩
    next => cases hrun
  refuses {bytes offset e} hrun := by
    rw [run_bind] at hrun
    split at hrun
    next a middle hread =>
      obtain ⟨rest, place⟩ := middle
      obtain ⟨front, rfl, htold, hgives⟩ := h.takes hread
      rw [hgives.run_eq] at hread
      cases hread
      obtain ⟨hshows, hstands⟩ := (hnext a front htold).refuses hrun
      refine ⟨hshows.before, hstands.imp_right fun hmore more => ?_⟩
      rw [run_bind, List.append_assoc, hgives.run_eq]
      exact hmore more
    next e' hread =>
      cases hrun
      obtain ⟨hshows, hstands⟩ := h.refuses hread
      refine ⟨hshows, hstands.imp_right fun hmore more => ?_⟩
      rw [run_bind, hmore more]

/-- The last of several readers, from whose value the result is put together. -/
theorem Exact.map {f : α → β} (h : read.Exact told)
    (hmap : ∀ a front, told a front → toldNext (f a) front) :
    (read >>= fun a => pure (f a)).Exact toldNext :=
  h.bind fun a front htold => exact_pure (by rw [List.append_nil]; exact hmap a front htold)

theorem split?_eq_some_iff {γ : Type} {n : Nat} {cs front back : List γ} :
    split? n cs = some (front, back) ↔ cs = front ++ back ∧ front.length = n := by
  constructor
  · intro h
    induction n generalizing cs front with
    | zero =>
        cases h
        exact ⟨rfl, rfl⟩
    | succ n ih =>
        cases cs with
        | nil => cases h
        | cons c cs =>
            obtain ⟨⟨front', back'⟩, hsplit, hcons⟩ := Option.map_eq_some_iff.1 h
            cases hcons
            obtain ⟨rfl, rfl⟩ := ih hsplit
            exact ⟨rfl, rfl⟩
  · rintro ⟨rfl, rfl⟩
    exact split?_append front back

theorem take_exact (n : Nat) :
    (take n).Exact fun taken front => taken = front ∧ front.length = n where
  takes {bytes offset taken cursor} hrun := by
    simp only [take] at hrun
    split at hrun
    next front back hsplit =>
      cases hrun
      obtain ⟨rfl, rfl⟩ := split?_eq_some_iff.1 hsplit
      exact ⟨taken, rfl, ⟨rfl, rfl⟩, gives_take taken⟩
    next => cases hrun
  refuses {bytes offset e} hrun := by
    simp only [take] at hrun
    split at hrun
    next => cases hrun
    next =>
      cases hrun
      exact ⟨.unexpectedEnd [] bytes offset, .inl ⟨_, rfl⟩⟩

theorem byte_exact : byte.Exact fun b front => front = [b] := by
  refine (take_exact 1).map ?_
  rintro _ front ⟨rfl, hlength⟩
  obtain ⟨b, rfl⟩ := List.length_eq_one_iff.1 hlength
  simp [Word.value]

theorem word_exact : word.Exact fun w front => front = Word.bytes32 w := by
  refine (take_exact 4).map ?_
  rintro _ front ⟨rfl, hlength⟩
  exact (Word.bytes32_value32 hlength).symm

theorem int_exact : int.Exact fun i front => front = Layout.int i := by
  refine word_exact.map ?_
  rintro w _ rfl
  rfl

theorem single_exact : single.Exact fun x front => front = Layout.single x :=
  word_exact.map fun _ _ h => h

theorem length_exact : length.Exact fun n front => front = Layout.count n ∧ FitsWord n := by
  refine word_exact.map ?_
  rintro w _ rfl
  exact ⟨by rw [Layout.count, UInt32.ofNat_toNat], w.toNat_lt⟩

theorem tooDeep_exact : (tooDeep : Reader α).Exact told where
  takes hrun := nomatch hrun
  refuses {bytes offset e} hrun := by
    cases hrun
    exact ⟨.tooDeep [] bytes offset, .inr fun _ => rfl⟩

/-- A reader that refuses some of the values that another one takes off the stream. -/
theorem Exact.check {checked : Reader β} (h : read.Exact told) (check : α → Option β)
    (blame : α → Nat → ReadError)
    (hrun : ∀ bytes offset, checked ⟨bytes, offset⟩ =
      match read ⟨bytes, offset⟩ with
      | .ok (a, cursor) =>
        match check a with
        | some b => .ok (b, cursor)
        | none => .error (blame a offset)
      | .error e => .error e)
    (hpassed : ∀ a front b, told a front → check a = some b → toldNext b front)
    (hblame : ∀ a front rest offset, told a front → check a = none →
      (blame a offset).Shows offset (front ++ rest)) :
    checked.Exact toldNext where
  takes {bytes offset b cursor} hchecked := by
    rw [hrun] at hchecked
    split at hchecked
    next a cursor hread =>
      obtain ⟨front, hbytes, htold, hgives⟩ := h.takes hread
      split at hchecked
      next b hcheck =>
        cases hchecked
        refine ⟨front, hbytes, hpassed a front b htold hcheck, fun rest offset => .inl ?_⟩
        rw [hrun, hgives.run_eq]
        simp only [hcheck]
      next => cases hchecked
    next => cases hchecked
  refuses {bytes offset e} hchecked := by
    rw [hrun] at hchecked
    split at hchecked
    next a cursor hread =>
      obtain ⟨front, rfl, htold, hgives⟩ := h.takes hread
      split at hchecked
      next => cases hchecked
      next hcheck =>
        cases hchecked
        refine ⟨hblame a front _ offset htold hcheck, .inr fun more => ?_⟩
        rw [hrun, List.append_assoc, hgives.run_eq]
        simp only [hcheck]
    next e' hread =>
      cases hchecked
      obtain ⟨hshows, hstands⟩ := h.refuses hread
      refine ⟨hshows, hstands.imp_right fun hmore more => ?_⟩
      rw [hrun, hmore more]

theorem tagged_exact [DecidableEq α] [Tagged α] :
    (tagged α).Exact fun a front => front = Layout.tag a := by
  refine byte_exact.check Tagged.ofTag? (fun t offset => .invalidTag (Tagged.kind α) t offset)
    ?_ ?_ ?_
  · intro bytes offset
    rw [tagged, run_bind, run_offset]
    simp only [run_bind]
    rcases byte ⟨bytes, offset⟩ with e | ⟨t, cursor⟩
    · rfl
    · dsimp only
      cases Tagged.ofTag? (α := α) t <;> rfl
  · rintro t _ a rfl htag
    rw [Layout.tag, Tagged.tag_of_ofTag? htag]
  · rintro t _ rest offset rfl htag
    exact .invalidTag _ t [] rest offset ((Tagged.ofTag?_eq_none_iff t).1 htag)

def content : Reader (List UInt8) := do
  take (← length)

theorem content_exact :
    content.Exact fun bytes front => front = Layout.count bytes.length ++ bytes ∧
      FitsWord bytes.length := by
  refine length_exact.bind ?_
  rintro n _ ⟨rfl, hn⟩
  refine (take_exact n).mono ?_
  rintro bytes _ ⟨rfl, rfl⟩
  exact ⟨rfl, hn⟩

theorem eq_toUTF8_of_fromUTF8? {bytes : List UInt8} {s : String}
    (h : String.fromUTF8? bytes.toByteArray = some s) : bytes = s.toUTF8.data.toList := by
  rw [String.fromUTF8?] at h
  split at h
  next hvalid =>
    cases h
    rw [String.toUTF8_eq_toByteArray]
    change bytes = bytes.toByteArray.data.toList
    simp
  next => cases h

theorem text_exact :
    text.Exact fun s front => front = Layout.text s ∧ FitsWord s.utf8ByteSize := by
  refine content_exact.check (fun bytes => String.fromUTF8? bytes.toByteArray)
    (fun _ offset => .invalidUtf8 (offset + 4)) ?_ ?_ ?_
  · intro bytes offset
    rw [text, content, run_bind, run_bind]
    cases hlength : length ⟨bytes, offset⟩ with
    | error e => rfl
    | ok result =>
        obtain ⟨n, rest, place⟩ := result
        obtain ⟨front, rfl, ⟨rfl, _⟩, hgives⟩ := length_exact.takes hlength
        rw [hgives.run_eq] at hlength
        cases hlength
        simp only [run_bind, run_offset]
        rcases take n ⟨rest, offset + (Layout.count n).length⟩ with e | ⟨taken, cursor⟩
        · rfl
        · dsimp only
          cases String.fromUTF8? taken.toByteArray <;> rfl
  · rintro bytes _ s ⟨rfl, hfits⟩ hs
    obtain rfl := eq_toUTF8_of_fromUTF8? hs
    exact ⟨rfl, hfits⟩
  · rintro bytes _ rest offset ⟨rfl, hfits⟩ hs
    exact .invalidUtf8 bytes [] rest offset hfits hs

theorem Exact.plain {layout : α → List UInt8} (h : read.Exact fun a front => front = layout a) :
    read.Exact fun a front => front = layout a ∧ True :=
  h.mono fun _ _ hlayout => ⟨hlayout, trivial⟩

theorem times_exact {P : α → Prop} {layout : α → List UInt8}
    (h : read.Exact fun a front => front = layout a ∧ P a) (n : Nat) :
    (times read n).Exact fun as front =>
      front = as.flatMap layout ∧ as.length = n ∧ ∀ a ∈ as, P a := by
  induction n with
  | zero => exact exact_pure ⟨rfl, rfl, by simp⟩
  | succ n ih =>
      refine h.bind ?_
      rintro a _ ⟨rfl, ha⟩
      refine ih.map ?_
      rintro as _ ⟨rfl, hlength, has⟩
      refine ⟨List.flatMap_cons.symm, by rw [List.length_cons, hlength], ?_⟩
      rw [List.forall_mem_cons]
      exact ⟨ha, has⟩

theorem table_exact {P : α → Prop} {layout : α → List UInt8}
    (h : read.Exact fun a front => front = layout a ∧ P a) :
    (table read).Exact fun as front =>
      front = Layout.table layout as ∧ FitsWord as.length ∧ ∀ a ∈ as, P a := by
  refine length_exact.bind ?_
  rintro n _ ⟨rfl, hn⟩
  refine (times_exact h n).mono ?_
  rintro as _ ⟨rfl, rfl, has⟩
  exact ⟨rfl, hn, has⟩

end Reader

end Baked

end TileKiln
