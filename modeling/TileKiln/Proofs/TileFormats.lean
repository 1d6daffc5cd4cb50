import TileKiln.Proofs.DecodedCells

namespace TileKiln

namespace Text

variable {cs front core back : List Char}

def Blanks (cs : List Char) : Prop := ∀ c ∈ cs, isBlank c

instance : DecidablePred Blanks := fun _ => decidable_of_iff _ List.all_eq_true

def Padded (core cs : List Char) : Prop :=
  ∃ front back, cs = front ++ core ++ back ∧ Blanks front ∧ Blanks back

theorem trim_of_blanks (h : Blanks cs) : trim cs = [] := by
  have hnil : (cs ++ []).dropWhile isBlank = [].dropWhile isBlank := List.dropWhile_append_of_pos h
  rw [List.append_nil] at hnil
  rw [trim, hnil]
  rfl

theorem dropWhile_of_head (h : ∀ c ∈ cs.head?, isBlank c = false) : cs.dropWhile isBlank = cs := by
  cases cs with
  | nil => rfl
  | cons c cs => exact List.dropWhile_cons_of_neg (by simp [h c rfl])

structure Trimmed (core cs : List Char) : Prop where
  padded : Padded core cs
  first : ∀ c ∈ core.head?, isBlank c = false
  last : ∀ c ∈ core.getLast?, isBlank c = false

theorem trim_of_trimmed (h : Trimmed core cs) : trim cs = core := by
  obtain ⟨⟨front, back, rfl, hfront, hback⟩, hfirst, hlast⟩ := h
  cases core with
  | nil =>
      apply trim_of_blanks
      rw [List.append_nil]
      exact fun c hc => (List.mem_append.1 hc).elim (hfront c) (hback c)
  | cons c core =>
      have hback' : Blanks back.reverse := fun c hc => hback c (List.mem_reverse.1 hc)
      have hstart : (c :: core ++ back).dropWhile isBlank = c :: core ++ back :=
        dropWhile_of_head hfirst
      have hend : (c :: core).reverse.dropWhile isBlank = (c :: core).reverse := by
        apply dropWhile_of_head
        rw [List.head?_reverse]
        exact hlast
      rw [trim, List.append_assoc, List.dropWhile_append_of_pos hfront, hstart, List.reverse_append,
        List.dropWhile_append_of_pos hback', hend, List.reverse_reverse]

theorem trim_of_padded (h : Padded core cs) (hcore : ∀ c ∈ core, isBlank c = false) :
    trim cs = core :=
  trim_of_trimmed ⟨h, fun c hc => hcore c (List.mem_of_mem_head? hc),
    fun c hc => hcore c (List.mem_of_mem_getLast? hc)⟩

end Text

namespace Base64

def symbol (n : Nat) : Char :=
  if n < 26 then Char.ofNat ('A'.toNat + n)
  else if n < 52 then Char.ofNat ('a'.toNat + (n - 26))
  else if n < 62 then Char.ofNat ('0'.toNat + (n - 52))
  else if n = 62 then '+'
  else '/'

def encode : List UInt8 → List Char
  | [] => []
  | [a] =>
    let n := a.toNat * 16
    [symbol (n / 64), symbol (n % 64), '=', '=']
  | [a, b] =>
    let n := (a.toNat * 256 + b.toNat) * 4
    [symbol (n / 4096), symbol (n / 64 % 64), symbol (n % 64), '=']
  | a :: b :: c :: rest =>
    let n := (a.toNat * 256 + b.toNat) * 256 + c.toNat
    symbol (n / 262144) :: symbol (n / 4096 % 64) :: symbol (n / 64 % 64) :: symbol (n % 64) ::
      encode rest

theorem symbolValue?_symbol : ∀ n < 64, symbolValue? (symbol n) = some n := by decide

theorem symbol_ne_pad : ∀ n < 64, symbol n ≠ '=' := by decide

theorem isBlank_symbol : ∀ n < 64, Text.isBlank (symbol n) = false := by decide

theorem decode?_group {a b c d : Char} (hd : d ≠ '=') (rest : List Char) :
    decode? (a :: b :: c :: d :: rest) = do
      let n := (((← symbolValue? a) * 64 + (← symbolValue? b)) * 64 + (← symbolValue? c)) * 64 +
        (← symbolValue? d)
      let others ← decode? rest
      return UInt8.ofNat (n / 65536) :: UInt8.ofNat (n / 256) :: UInt8.ofNat n :: others := by
  rw [decode?]
  · intro _ h
    exact absurd h hd
  · intro h
    exact absurd h hd

theorem ofNat_of_mod {n : Nat} {b : UInt8} (h : n % 256 = b.toNat) : UInt8.ofNat n = b := by
  apply UInt8.toNat_inj.1
  rw [UInt8.toNat_ofNat']
  exact h

theorem decode?_encode (bytes : List UInt8) : decode? (encode bytes) = some bytes := by
  induction bytes using encode.induct with
  | case1 => rfl
  | case2 a =>
      have ha := a.toNat_lt
      rw [encode]
      generalize hn : a.toNat * 16 = n
      have hvalue : n / 64 * 64 + n % 64 = n := by omega
      have hzero : n % 16 = 0 := by omega
      have hfirst : UInt8.ofNat (n / 16) = a := ofNat_of_mod (by omega)
      rw [decode?, symbolValue?_symbol _ (by omega), symbolValue?_symbol _ (by omega)]
      simp [hvalue, hzero, hfirst]
  | case3 a b =>
      have ha := a.toNat_lt
      have hb := b.toNat_lt
      rw [encode]
      generalize hn : (a.toNat * 256 + b.toNat) * 4 = n
      have hvalue : (n / 4096 * 64 + n / 64 % 64) * 64 + n % 64 = n := by omega
      have hzero : n % 4 = 0 := by omega
      have hfirst : UInt8.ofNat (n / 1024) = a := ofNat_of_mod (by omega)
      have hsecond : UInt8.ofNat (n / 4) = b := ofNat_of_mod (by omega)
      rw [decode?, symbolValue?_symbol _ (by omega), symbolValue?_symbol _ (by omega),
        symbolValue?_symbol _ (by omega)]
      · simp [hvalue, hzero, hfirst, hsecond]
      · exact symbol_ne_pad _ (by omega)
  | case4 a b c rest ih =>
      have ha := a.toNat_lt
      have hb := b.toNat_lt
      have hc := c.toNat_lt
      rw [encode]
      generalize hn : (a.toNat * 256 + b.toNat) * 256 + c.toNat = n
      have hvalue : ((n / 262144 * 64 + n / 4096 % 64) * 64 + n / 64 % 64) * 64 + n % 64 = n := by
        omega
      have hfirst : UInt8.ofNat (n / 65536) = a := ofNat_of_mod (by omega)
      have hsecond : UInt8.ofNat (n / 256) = b := ofNat_of_mod (by omega)
      have hthird : UInt8.ofNat n = c := ofNat_of_mod (by omega)
      rw [decode?_group (symbol_ne_pad _ (by omega)), ih, symbolValue?_symbol _ (by omega),
        symbolValue?_symbol _ (by omega), symbolValue?_symbol _ (by omega),
        symbolValue?_symbol _ (by omega)]
      simp only [Option.bind_eq_bind, Option.bind_some, Option.pure_def, hvalue, hfirst, hsecond, hthird]

theorem cases_of_mem_encode (bytes : List UInt8) :
    ∀ x ∈ encode bytes, x = '=' ∨ ∃ n < 64, x = symbol n := by
  induction bytes using encode.induct with
  | case1 => simp [encode]
  | case2 a =>
      have ha := a.toNat_lt
      intro x hx
      simp only [encode, List.mem_cons, List.not_mem_nil, or_false] at hx
      rcases hx with rfl | rfl | rfl | rfl
      · exact .inr ⟨_, by omega, rfl⟩
      · exact .inr ⟨_, by omega, rfl⟩
      · exact .inl rfl
      · exact .inl rfl
  | case3 a b =>
      have ha := a.toNat_lt
      have hb := b.toNat_lt
      intro x hx
      simp only [encode, List.mem_cons, List.not_mem_nil, or_false] at hx
      rcases hx with rfl | rfl | rfl | rfl
      · exact .inr ⟨_, by omega, rfl⟩
      · exact .inr ⟨_, by omega, rfl⟩
      · exact .inr ⟨_, by omega, rfl⟩
      · exact .inl rfl
  | case4 a b c rest ih =>
      have ha := a.toNat_lt
      have hb := b.toNat_lt
      have hc := c.toNat_lt
      intro x hx
      simp only [encode, List.mem_cons] at hx
      rcases hx with rfl | rfl | rfl | rfl | hx
      · exact .inr ⟨_, by omega, rfl⟩
      · exact .inr ⟨_, by omega, rfl⟩
      · exact .inr ⟨_, by omega, rfl⟩
      · exact .inr ⟨_, by omega, rfl⟩
      · exact ih x hx

theorem isBlank_of_mem_encode {bytes : List UInt8} {c : Char} (hc : c ∈ encode bytes) :
    Text.isBlank c = false := by
  rcases cases_of_mem_encode bytes c hc with rfl | ⟨n, hn, rfl⟩
  · decide
  · exact isBlank_symbol n hn

end Base64

namespace Text

theorem digit?_of_isDigit {c : Char} (h : c.isDigit) :
    digit? 10 c = some (c.toNat - '0'.toNat) := by
  have hbounds : '0' ≤ c ∧ c ≤ '9' := by
    rw [Char.isDigit, Bool.and_eq_true, decide_eq_true_eq, decide_eq_true_eq] at h
    exact h
  have hlast : c.toNat ≤ '9'.toNat := hbounds.2
  have hnine : '9'.toNat - '0'.toNat < 10 := by decide
  simp only [digit?, if_pos hbounds, Option.filter_some]
  exact if_pos (decide_eq_true (by omega))

theorem mapM_digit?_of_isDigit {cs : List Char} (h : ∀ c ∈ cs, c.isDigit) :
    cs.mapM (digit? 10) = some (cs.map fun c => c.toNat - '0'.toNat) := by
  induction cs with
  | nil => rfl
  | cons c cs ih =>
      rw [List.forall_mem_cons] at h
      rw [List.mapM_cons, digit?_of_isDigit h.1, ih h.2]
      rfl

theorem digits?_of_isDigit {cs : List Char} (hcs : cs ≠ []) (h : ∀ c ∈ cs, c.isDigit) :
    digits? 10 cs = some (Nat.ofDigitChars 10 cs 0) := by
  have hdigits : digits? 10 cs = (cs.mapM (digit? 10)).map (·.foldl (fun v d => v * 10 + d) 0) := by
    cases cs with
    | nil => exact absurd rfl hcs
    | cons => rfl
  have hfold : (fun (v : Nat) (c : Char) => v * 10 + (c.toNat - '0'.toNat)) =
      fun v c => 10 * v + (c.toNat - '0'.toNat) := by
    funext v c
    rw [Nat.mul_comm]
  rw [hdigits, mapM_digit?_of_isDigit h, Option.map_some, List.foldl_map, hfold]
  rfl

def decimal (w : UInt32) : List Char := Nat.toDigits 10 w.toNat

theorem isDigit_of_mem_decimal {w : UInt32} {c : Char} (hc : c ∈ decimal w) : c.isDigit :=
  Nat.isDigit_of_mem_toDigits (by decide) (by decide) hc

theorem magnitude?_of_isDigit {cs : List Char} (h : ∀ c ∈ cs, c.isDigit) :
    magnitude? 10 cs = digits? 10 cs := by
  rw [magnitude?]
  rintro rest rfl
  exact absurd (h '+' List.mem_cons_self) (by decide)

theorem word32?_decimal (w : UInt32) : word32? (decimal w) = some w := by
  have hdigits : ∀ c ∈ decimal w, c.isDigit := fun c => isDigit_of_mem_decimal
  have hne : decimal w ≠ [] := Nat.toDigits_ne_nil
  have hvalue : Nat.ofDigitChars 10 (decimal w) 0 = w.toNat :=
    Nat.ofDigitChars_toDigits (by decide) (by decide)
  rw [word32?, magnitude?_of_isDigit hdigits, digits?_of_isDigit hne hdigits, hvalue,
    Option.filter_some, if_pos (decide_eq_true w.toNat_lt), Option.map_some, UInt32.ofNat_toNat]

theorem isBlank_of_isDigit {c : Char} (h : c.isDigit) : isBlank c = false := by
  rw [Char.isDigit, Bool.and_eq_true, decide_eq_true_eq, decide_eq_true_eq] at h
  have hfirst : 48 ≤ c.toNat := h.1
  have hlast : c.toNat ≤ 57 := h.2
  simp only [isBlank, Bool.or_eq_false_iff, Bool.and_eq_false_iff, beq_eq_false_iff_ne,
    decide_eq_false_iff_not]
  omega

theorem not_comma_of_padded {core cs : List Char} (h : Padded core cs) (hcore : ',' ∉ core) :
    ',' ∉ cs := by
  have hblank : ¬ isBlank ',' := by decide
  obtain ⟨front, back, rfl, hfront, hback⟩ := h
  rw [List.mem_append, List.mem_append]
  rintro ((hc | hc) | hc)
  · exact hblank (hfront _ hc)
  · exact hcore hc
  · exact hblank (hback _ hc)

end Text

namespace TileData

inductive Csv : List UInt32 → List Char → Prop
  | blanks (text : List Char) (h : Text.Blanks text) : Csv [] text
  | last (gid : UInt32) (field : List Char) (h : Text.Padded (Text.decimal gid) field) :
      Csv [gid] field
  | cons (gid : UInt32) (field : List Char) (gids : List UInt32) (text : List Char)
      (h : Text.Padded (Text.decimal gid) field) (hrest : Csv gids text) :
      Csv (gid :: gids) (field ++ ',' :: text)

theorem fields_of_csv {gids : List UInt32} {text : List Char} (h : Csv gids text) :
    ((text.splitOn ',').map Text.trim).filter (!·.isEmpty) = gids.map Text.decimal := by
  have hcomma (gid : UInt32) (field : List Char) (h : Text.Padded (Text.decimal gid) field) :
      ',' ∉ field := by
    refine Text.not_comma_of_padded h fun hc => ?_
    exact absurd (Text.isDigit_of_mem_decimal hc) (by decide)
  have htrim (gid : UInt32) (field : List Char) (h : Text.Padded (Text.decimal gid) field) :
      Text.trim field = Text.decimal gid :=
    Text.trim_of_padded h fun c hc => Text.isBlank_of_isDigit (Text.isDigit_of_mem_decimal hc)
  have hkeep (gid : UInt32) (fields : List (List Char)) :
      (Text.decimal gid :: fields).filter (!·.isEmpty) =
        Text.decimal gid :: fields.filter (!·.isEmpty) := by
    have hne : Text.decimal gid ≠ [] := Nat.toDigits_ne_nil
    exact List.filter_cons_of_pos (by simpa using hne)
  induction h with
  | blanks text h =>
      have hcomma : ',' ∉ text := fun hc => absurd (h _ hc) (by decide)
      rw [List.splitOn_eq_singleton hcomma, List.map_singleton, Text.trim_of_blanks h]
      rfl
  | last gid field h =>
      rw [List.splitOn_eq_singleton (hcomma gid field h), List.map_singleton, htrim gid field h,
        hkeep]
      rfl
  | cons gid field gids text h _ ih =>
      rw [List.splitOn_append_cons_self_of_not_mem (hcomma gid field h), List.map_cons,
        htrim gid field h, hkeep, ih]
      rfl

theorem cellsOfFields_decimal (gids : List UInt32) (index : Nat) :
    cellsOfFields index (gids.map Text.decimal) = .ok gids := by
  induction gids generalizing index with
  | nil => rfl
  | cons gid gids ih =>
      rw [List.map_cons, cellsOfFields, Text.word32?_decimal]
      dsimp only
      rw [ih]
      rfl

def bytes (gids : List UInt32) : List UInt8 := gids.flatMap Word.bytes32

theorem length_bytes (gids : List UInt32) : (bytes gids).length = 4 * gids.length := by
  induction gids with
  | nil => rfl
  | cons gid gids ih =>
      have hword : (Word.bytes32 gid).length = 4 := Word.length_bytes 4 gid.toNat
      rw [bytes] at ih
      rw [bytes, List.flatMap_cons, List.length_append, ih, hword, List.length_cons]
      omega

theorem wordsOfBytes_bytes (gids : List UInt32) : wordsOfBytes (bytes gids) = gids := by
  induction gids with
  | nil => rfl
  | cons gid gids ih =>
      have hword := Word.value32_bytes32 gid
      change Word.value32 (Word.bytes32 gid) :: wordsOfBytes (bytes gids) = _
      rw [hword, ih]

/-- The formats of a grid of cells. A compressed stream is one that unpacks to the words. -/
inductive Encodes : TileData → List UInt32 → Prop
  | inline (gids : List UInt32) : Encodes ⟨none, none, .cells gids⟩ gids
  | csv (gids : List UInt32) (text : String) (h : Csv gids text.toList) :
      Encodes ⟨some "csv", none, .text text⟩ gids
  | base64 (gids : List UInt32) (text : String)
      (h : Text.Padded (Base64.encode (bytes gids)) text.toList) :
      Encodes ⟨some "base64", none, .text text⟩ gids
  | gzip (gids : List UInt32) (packed : List UInt8) (text : String)
      (hpacked : Gzip.unpack packed = ⟨(bytes gids).toArray, .clean⟩)
      (h : Text.Padded (Base64.encode packed) text.toList) :
      Encodes ⟨some "base64", some "gzip", .text text⟩ gids
  | zlib (gids : List UInt32) (packed : List UInt8) (text : String)
      (hpacked : Zlib.unpack packed = ⟨(bytes gids).toArray, .clean⟩)
      (h : Text.Padded (Base64.encode packed) text.toList) :
      Encodes ⟨some "base64", some "zlib", .text text⟩ gids

theorem upTo?_of_clean {content : List UInt8} {limit : Nat} (h : content.length ≤ limit) :
    (⟨content.toArray, .clean⟩ : Unpacked).upTo? limit = some content := by
  rw [Unpacked.upTo?]
  dsimp only
  rw [if_neg (by decide), List.take_of_length_le h]

theorem cellsOfBase64_of_padded {gids : List UInt32} {compression : Compression}
    {expected limit : UInt64} {packed : List UInt8} {text : String}
    (h : Text.Padded (Base64.encode packed) text.toList) (hlimit : byteLimit? expected = some limit)
    (hunpack : unpack compression limit.toNat packed = .ok (bytes gids)) :
    cellsOfBase64 compression expected text = .ok gids := by
  have hpacked : Base64.decode? (Text.trim text.toList) = some packed := by
    rw [Text.trim_of_padded h fun c => Base64.isBlank_of_mem_encode, Base64.decode?_encode]
  have hlength : (bytes gids).length % 4 = 0 := by
    rw [length_bytes]
    omega
  rw [cellsOfBase64_of_packed hlimit hpacked, hunpack]
  change (if (bytes gids).length % 4 = 0 then _ else _) = _
  rw [if_pos hlength, wordsOfBytes_bytes]
  rfl

/-- Each format gives back the cells that it was made of, flip flags included. -/
theorem decode_of_encodes {data : TileData} {gids : List UInt32} (h : data.Encodes gids)
    {width height : UInt32} (hlength : gids.length = width.toNat * height.toNat)
    (hsize : (width.toNat * height.toNat + 1) * 4 < UInt64.size) :
    data.decode width height = .ok gids := by
  rw [← toNat_cellCount] at hsize
  obtain ⟨limit, hbytes, hlimit⟩ := exists_byteLimit? hsize
  have hfits : (bytes gids).length ≤ limit.toNat := by
    rw [length_bytes, hlimit, toNat_cellCount, hlength]
    omega
  have hcells (cells : Except DecodeError (List UInt32)) (hcells : cells = .ok gids) :
      cells >>= counted (width.toNat * height.toNat) = .ok gids :=
    bind_counted_eq_ok_iff.2 ⟨hcells, hlength⟩
  rw [decode_eq]
  cases h with
  | inline => exact hcells (.ok gids) rfl
  | csv _ text hcsv =>
      refine hcells (cellsOfText text) ?_
      rw [cellsOfText, fields, fields_of_csv hcsv, cellsOfFields_decimal]
  | base64 _ text htext =>
      exact hcells _ (cellsOfBase64_of_padded htext hbytes rfl)
  | gzip _ packed text hpacked htext =>
      refine hcells _ (cellsOfBase64_of_padded htext hbytes ?_)
      rw [unpack]
      dsimp only
      rw [hpacked, upTo?_of_clean hfits]
  | zlib _ packed text hpacked htext =>
      refine hcells _ (cellsOfBase64_of_padded htext hbytes ?_)
      rw [unpack]
      dsimp only
      rw [hpacked, upTo?_of_clean hfits]

end TileData

end TileKiln
