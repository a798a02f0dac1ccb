import ApiScaffold.Text.Quoted

/-!
# String literals

The reading of string literals in Go source: characters, or escape sequences for characters and bytes,
between quotes.  A value is a sequence of bytes.  A quoted text looks like such a literal, but it has
an escape sequence in braces, which cannot be read, and one digit for NUL where three are read.
`body?_quoted_eq_iff` says which quoted texts are read as they were.
-/

namespace ApiScaffold.Code.Literal

/-! ### Reading -/

def utf8 (s : List Char) : List UInt8 := s.flatMap String.utf8EncodeChar

/-- The value of a digit in a base up to 16, in either case. -/
def digit? (base : Nat) (c : Char) : Option Nat :=
  let lowered := c.toLower
  let value := if lowered.isDigit then lowered.toNat - 48
    else if lowered.isLower then lowered.toNat - 87 else base
  if value < base then some value else none

/-- The number that `width` digits write, where `start` was read before them. -/
def number? (base start : Nat) : (width : Nat) → List Char → Option (Nat × List Char)
  | 0, s => some (start, s)
  | _ + 1, [] => none
  | width + 1, c :: rest =>
    (digit? base c).bind fun d => number? base (start * base + d) width rest

/-- A byte by its number. -/
def byte? (n : Nat) : Option (List UInt8) := if n < 256 then some [n.toUInt8] else none

/-- A character by its number, unless it is half of a surrogate pair or too large. -/
def character? (n : Nat) : Option (List UInt8) :=
  if n.isValidChar then some (String.utf8EncodeChar (Char.ofNat n)) else none

/-- What the number written by the first digits stands for. -/
def numbered? (base width : Nat) (value? : Nat → Option (List UInt8)) (s : List Char) :
    Option (List UInt8 × List Char) :=
  (number? base 0 width s).bind fun (n, rest) => (value? n).map fun bytes => (bytes, rest)

/-- The characters that are written by a letter or a sign behind a backslash. -/
def signs : List (Char × Char) :=
  [('a', '\x07'), ('b', '\x08'), ('f', '\x0c'), ('n', '\n'), ('r', '\r'), ('t', '\t'), ('v', '\x0b'),
   ('\\', '\\'), ('"', '"')]

/-- What a sequence behind a backslash stands for: a sign, two hexadecimal digits for a byte, four or
eight for a character, or three octal digits for a byte. -/
def escape? : List Char → Option (List UInt8 × List Char)
  | [] => none
  | c :: rest =>
    match signs.lookup c with
    | some d => some (String.utf8EncodeChar d, rest)
    | none =>
      if c = 'x' then numbered? 16 2 byte? rest
      else if c = 'u' then numbered? 16 4 character? rest
      else if c = 'U' then numbered? 16 8 character? rest
      else numbered? 8 3 byte? (c :: rest)

/-- One character or escape sequence; a line break cannot stand in a literal. -/
def element? : List Char → Option (List UInt8 × List Char)
  | [] => none
  | c :: rest =>
    if c = '\\' then escape? rest
    else if c = '\n' then none
    else some (String.utf8EncodeChar c, rest)

theorem number?_length {base start width n : Nat} {s rest : List Char}
    (h : number? base start width s = some (n, rest)) : rest.length ≤ s.length := by
  induction width generalizing start s with
  | zero =>
    cases h
    exact Nat.le_refl _
  | succ width ih =>
    cases s with
    | nil => cases h
    | cons c s =>
      obtain ⟨d, -, hrest⟩ := Option.bind_eq_some_iff.mp h
      exact Nat.le_succ_of_le (ih hrest)

theorem numbered?_length {base width : Nat} {value? : Nat → Option (List UInt8)} {s rest : List Char}
    {bytes : List UInt8} (h : numbered? base width value? s = some (bytes, rest)) :
    rest.length ≤ s.length := by
  obtain ⟨⟨n, rest'⟩, hnumber, hvalue⟩ := Option.bind_eq_some_iff.mp h
  obtain ⟨_, -, heq⟩ := Option.map_eq_some_iff.mp hvalue
  cases heq
  exact number?_length hnumber

theorem escape?_length {s rest : List Char} {bytes : List UInt8}
    (h : escape? s = some (bytes, rest)) : rest.length ≤ s.length := by
  cases s with
  | nil => cases h
  | cons c s =>
    rw [escape?] at h
    split at h
    · cases h
      exact Nat.le_succ _
    · split at h
      · exact Nat.le_succ_of_le (numbered?_length h)
      · split at h
        · exact Nat.le_succ_of_le (numbered?_length h)
        · split at h
          · exact Nat.le_succ_of_le (numbered?_length h)
          · exact numbered?_length h

theorem element?_length {s rest : List Char} {bytes : List UInt8}
    (h : element? s = some (bytes, rest)) : rest.length < s.length := by
  cases s with
  | nil => cases h
  | cons c s =>
    rw [element?] at h
    split at h
    · exact Nat.lt_succ_of_le (escape?_length h)
    · split at h
      · cases h
      · cases h
        exact Nat.lt_succ_self _

/-- What is left of a literal behind its first quote, up to the last one, and what follows it. -/
def body? (s : List Char) : Option (List UInt8 × List Char) :=
  if s.head? = some '"' then some ([], s.tail)
  else
    match _h : element? s with
    | some (bytes, rest) => (body? rest).map fun (more, rest) => (bytes ++ more, rest)
    | none => none
termination_by s.length
decreasing_by exact element?_length _h

theorem body?_length {s rest : List Char} {bytes : List UInt8} (h : body? s = some (bytes, rest)) :
    rest.length < s.length := by
  fun_induction body? s generalizing bytes rest with
  | case1 s hquote =>
    cases h
    cases s with
    | nil => cases hquote
    | cons c s => exact Nat.lt_succ_self _
  | case2 s _ first next hnext ih =>
    obtain ⟨⟨more, last⟩, hbody, heq⟩ := Option.map_eq_some_iff.mp h
    cases heq
    exact Nat.lt_trans (ih hbody) (element?_length hnext)
  | case3 => cases h

def value? (s : List Char) : Option (List UInt8) :=
  match s with
  | '"' :: rest => ((body? rest).filter (·.2.isEmpty)).map Prod.fst
  | _ => none

def values? (s : List Char) : Option (List (List UInt8)) :=
  match s with
  | [] => some []
  | c :: rest =>
    if c = '"' then
      match _h : body? rest with
      | some (bytes, rest) => (values? rest).map (bytes :: ·)
      | none => none
    else values? rest
termination_by s.length
decreasing_by
  · exact Nat.lt_succ_of_lt (body?_length _h)
  · exact Nat.lt_succ_self _

/-! ### Characters -/

section

open Text (isPrintable isExtender quoteChar quoteChars)

/-- A character that is written as it is, or by a sign that the reading knows. -/
def IsPlain (c : Char) : Prop :=
  c ∈ ['\n', '\r', '\t'] ∨ (isPrintable c = true ∧ isExtender c = false)

instance : DecidablePred IsPlain := fun _ => inferInstanceAs (Decidable (_ ∨ _))

/-- The ways in which a character is written. -/
inductive Written (c : Char) : List Char → Prop
  | sign {sign : Char} (plain : IsPlain c) (known : signs.lookup sign = some c) :
      Written c ['\\', sign]
  | itself (plain : IsPlain c) (quote : c ≠ '"') (backslash : c ≠ '\\') (newline : c ≠ '\n') :
      Written c [c]
  | nul (hidden : ¬IsPlain c) : Written c ['\\', '0']
  | code {digits : List Char} (hidden : ¬IsPlain c) : Written c ('\\' :: 'u' :: '\x7b' :: digits)

/-- The characters that are written by a sign. -/
theorem written_signs {c : Char} (h : c ∈ ['"', '\\', '\n', '\r', '\t']) :
    IsPlain c ∧ ∃ sign, quoteChar c = ['\\', sign] ∧ signs.lookup sign = some c := by
  simp only [List.mem_cons, List.not_mem_nil, or_false] at h
  rcases h with rfl | rfl | rfl | rfl | rfl
  all_goals exact ⟨by decide +kernel, _, rfl, by decide⟩

theorem written_quoteChar (c : Char) : Written c (quoteChar c) := by
  by_cases hsign : c ∈ ['"', '\\', '\n', '\r', '\t']
  · obtain ⟨hplain, sign, hquote, hknown⟩ := written_signs hsign
    rw [hquote]
    exact .sign hplain hknown
  · simp only [List.mem_cons, List.not_mem_nil, or_false, not_or] at hsign
    obtain ⟨hquote, hbackslash, hnewline, hreturn, htab⟩ := hsign
    rw [quoteChar, if_neg hquote, if_neg hbackslash, if_neg hnewline, if_neg hreturn, if_neg htab]
    split
    · rename_i hc
      have hnul : c = '\x00' := by rw [← Char.ofNat_toNat c, hc]
      rw [hnul]
      exact .nul (by decide +kernel)
    · split
      · rename_i hc
        refine .itself (.inr ?_) hquote hbackslash hnewline
        simpa using hc
      · rename_i hc
        refine .code ?_
        rintro (hmem | ⟨hprintable, hextender⟩)
        · simp [hnewline, hreturn, htab] at hmem
        · simp [hprintable, hextender] at hc

/-! ### Literals that are quoted texts -/

theorem body?_quote (rest : List Char) : body? ('"' :: rest) = some ([], rest) := by
  rw [body?, if_pos (show ('"' :: rest).head? = some '"' from rfl), List.tail_cons]

theorem body?_of_element {s rest : List Char} {bytes : List UInt8} (hhead : s.head? ≠ some '"')
    (h : element? s = some (bytes, rest)) :
    body? s = (body? rest).map fun (more, last) => (bytes ++ more, last) := by
  rw [body?, if_neg hhead]
  split
  · rename_i heq
    cases h.symm.trans heq
    rfl
  · rename_i heq
    cases h.symm.trans heq

theorem body?_of_no_element {s : List Char} (hhead : s.head? ≠ some '"') (h : element? s = none) :
    body? s = none := by
  rw [body?, if_neg hhead]
  split
  · rename_i heq
    cases h.symm.trans heq
  · rfl

theorem element?_backslash (rest : List Char) : element? ('\\' :: rest) = escape? rest := rfl

theorem body?_plain {c : Char} {written : List Char} (h : Written c written) (hplain : IsPlain c)
    (rest : List Char) : body? (written ++ rest)
      = (body? rest).map fun (more, last) => (String.utf8EncodeChar c ++ more, last) := by
  cases h with
  | @sign sign _ known =>
    refine body?_of_element (by simp) ?_
    rw [List.cons_append, element?_backslash, List.singleton_append, escape?, known]
  | itself _ quote backslash newline =>
    refine body?_of_element (by simpa using quote) ?_
    rw [List.singleton_append, element?, if_neg backslash, if_neg newline]
  | nul hidden => exact absurd hplain hidden
  | code hidden => exact absurd hplain hidden

theorem body?_code (digits rest : List Char) :
    body? ('\\' :: 'u' :: '\x7b' :: digits ++ rest) = none := by
  refine body?_of_no_element (by simp) ?_
  rw [List.cons_append, List.cons_append, List.cons_append, element?_backslash]
  rfl

theorem number?_succ {base start width n : Nat} {s rest : List Char}
    (h : number? base start (width + 1) s = some (n, rest)) :
    ∃ c next d, s = c :: next ∧ digit? base c = some d ∧
      number? base (start * base + d) width next = some (n, rest) := by
  cases s with
  | nil => cases h
  | cons c next =>
    obtain ⟨d, hd, hnext⟩ := Option.bind_eq_some_iff.mp h
    exact ⟨c, next, d, rfl, hd, hnext⟩

/-- Behind a NUL two octal digits are read with it. -/
theorem body?_nul {rest last : List Char} {bytes : List UInt8}
    (h : body? ('\\' :: '0' :: rest) = some (bytes, last)) :
    ∃ c d next byte more, rest = c :: d :: next ∧ (digit? 8 c).isSome ∧ (digit? 8 d).isSome ∧
      body? next = some (more, last) ∧ bytes = byte :: more := by
  cases helement : element? ('\\' :: '0' :: rest) with
  | none =>
    rw [body?_of_no_element (by simp) helement] at h
    cases h
  | some parts =>
    obtain ⟨first, next⟩ := parts
    rw [body?_of_element (by simp) helement] at h
    obtain ⟨⟨more, last'⟩, hbody, heq⟩ := Option.map_eq_some_iff.mp h
    cases heq
    -- the NUL opens an octal escape, which takes three digits in all
    have hescape : numbered? 8 3 byte? ('0' :: rest) = some (first, next) := helement
    obtain ⟨⟨n, next'⟩, hnumber, hvalue⟩ := Option.bind_eq_some_iff.mp hescape
    obtain ⟨_, hbyte, heq⟩ := Option.map_eq_some_iff.mp hvalue
    cases heq
    obtain ⟨_, _, _, hrest, -, hnumber⟩ := number?_succ hnumber
    cases hrest
    obtain ⟨c, _, e, rfl, hc, hnumber⟩ := number?_succ hnumber
    obtain ⟨d, _, f, rfl, hd, hnumber⟩ := number?_succ hnumber
    cases hnumber
    unfold byte? at hbyte
    split at hbyte
    · cases hbyte
      exact ⟨c, d, next, _, more, rfl, by rw [hc]; rfl, by rw [hd]; rfl, hbody, rfl⟩
    · cases hbyte

/-- A quoted text that goes on with an octal digit has this digit itself. -/
theorem quoted_eq_cons {s tail next : List Char} {d : Char} (hd : (digit? 8 d).isSome)
    (h : s.flatMap quoteChar ++ '"' :: tail = d :: next) :
    ∃ rest, s = d :: rest ∧ next = rest.flatMap quoteChar ++ '"' :: tail := by
  have hne : ∀ {c : Char}, (digit? 8 c).isSome = false → c ≠ d := by
    rintro c hc rfl
    rw [hc] at hd
    cases hd
  cases s with
  | nil =>
    have hquote : '"' = d := (List.cons.inj h).1
    exact absurd hquote (hne rfl)
  | cons c rest =>
    have hbackslash : '\\' ≠ d := hne rfl
    have hwritten := written_quoteChar c
    rw [List.flatMap_cons] at h
    generalize quoteChar c = written at hwritten h
    cases hwritten with
    | itself =>
      obtain ⟨rfl, rfl⟩ := List.cons.inj h
      exact ⟨rest, rfl, rfl⟩
    | sign => exact absurd (List.cons.inj h).1 hbackslash
    | nul => exact absurd (List.cons.inj h).1 hbackslash
    | code => exact absurd (List.cons.inj h).1 hbackslash

theorem utf8_cons (c : Char) (s : List Char) : utf8 (c :: s) = String.utf8EncodeChar c ++ utf8 s :=
  List.flatMap_cons

theorem length_utf8_cons (c : Char) (s : List Char) :
    (utf8 s).length + 1 ≤ (utf8 (c :: s)).length := by
  have hchar : (String.utf8EncodeChar c).length ≠ 0 := by
    rw [ne_eq, List.length_eq_zero_iff]
    exact String.utf8EncodeChar_ne_nil
  rw [utf8_cons, List.length_append]
  omega

/-- **A quoted text that is read** is read to its end, and what is read is shorter than the text where
it is not the text: each NUL takes two digits with it. -/
theorem body?_quoted {s tail last : List Char} {bytes : List UInt8}
    (h : body? (s.flatMap quoteChar ++ '"' :: tail) = some (bytes, last)) :
    last = tail ∧ bytes.length ≤ (utf8 s).length ∧
      (bytes.length = (utf8 s).length → ∀ c ∈ s, IsPlain c) := by
  -- on the length: behind a NUL two characters more are read, and then bytes are missing
  induction hn : s.length using Nat.strongRecOn generalizing s bytes with
  | _ n ih =>
    cases s with
    | nil =>
      rw [List.flatMap_nil, List.nil_append, body?_quote] at h
      cases h
      exact ⟨rfl, Nat.le_refl _, fun _ c hc => by cases hc⟩
    | cons c s =>
      subst hn
      have hwritten := written_quoteChar c
      have hsize := length_utf8_cons c s
      rw [List.flatMap_cons, List.append_assoc] at h
      by_cases hplain : IsPlain c
      · rw [body?_plain hwritten hplain] at h
        obtain ⟨⟨more, last'⟩, hmore, heq⟩ := Option.map_eq_some_iff.mp h
        cases heq
        obtain ⟨hlast, hle, hrest⟩ := ih s.length (Nat.lt_succ_self _) hmore rfl
        rw [utf8_cons, List.length_append, List.length_append]
        refine ⟨hlast, Nat.add_le_add_left hle _, fun heq d hd => ?_⟩
        rcases List.mem_cons.mp hd with rfl | hd
        · exact hplain
        · exact hrest (Nat.add_left_cancel heq) d hd
      · generalize quoteChar c = written at hwritten h
        cases hwritten with
        | sign plain => exact absurd plain hplain
        | itself plain => exact absurd plain hplain
        | code =>
          rw [body?_code] at h
          cases h
        | nul =>
          obtain ⟨d, e, next, byte, more, hs, hd, he, hmore, rfl⟩ := body?_nul h
          obtain ⟨s₁, rfl, hnext⟩ := quoted_eq_cons hd hs
          obtain ⟨s₂, rfl, rfl⟩ := quoted_eq_cons he hnext.symm
          have hsize₁ := length_utf8_cons d (e :: s₂)
          have hsize₂ := length_utf8_cons e s₂
          obtain ⟨hlast, hle, -⟩ := ih s₂.length (by simp only [List.length_cons]; omega) hmore rfl
          rw [List.length_cons]
          exact ⟨hlast, by omega, by omega⟩

/-- **A quoted text is read as it was** exactly when all of it is plain. -/
theorem body?_quoted_eq_iff {s tail : List Char} :
    body? (s.flatMap quoteChar ++ '"' :: tail) = some (utf8 s, tail) ↔ ∀ c ∈ s, IsPlain c := by
  constructor
  · intro h
    exact (body?_quoted h).2.2 rfl
  · intro h
    induction s with
    | nil => exact body?_quote tail
    | cons c s ih =>
      have hrest := ih fun d hd => h d (List.mem_cons_of_mem _ hd)
      rw [List.flatMap_cons, List.append_assoc,
        body?_plain (written_quoteChar c) (h c List.mem_cons_self), hrest, utf8_cons]
      rfl

theorem quoteChars_append (s tail : List Char) :
    quoteChars s ++ tail = '"' :: (s.flatMap quoteChar ++ '"' :: tail) := by
  rw [quoteChars, List.cons_append, List.cons_append, List.append_assoc, List.singleton_append]

theorem value?_quoteChars_iff {s : List Char} :
    value? (quoteChars s) = some (utf8 s) ↔ ∀ c ∈ s, IsPlain c := by
  have hquote := quoteChars_append s []
  rw [List.append_nil] at hquote
  have hbody := @body?_quoted_eq_iff s []
  rw [← hbody, hquote, value?]
  constructor
  · intro h
    obtain ⟨⟨bytes, last⟩, hfilter, rfl⟩ := Option.map_eq_some_iff.mp h
    obtain ⟨hread, hlast⟩ := Option.filter_eq_some_iff.mp hfilter
    obtain rfl := List.isEmpty_iff.mp hlast
    exact hread
  · intro h
    rw [h]
    rfl

theorem values?_append {gap : List Char} (hgap : '"' ∉ gap) (s : List Char) :
    values? (gap ++ s) = values? s := by
  induction gap with
  | nil => rfl
  | cons c gap ih =>
    have hc : c ≠ '"' := fun heq => hgap (heq ▸ List.mem_cons_self)
    rw [List.cons_append, values?, if_neg hc]
    exact ih fun hmem => hgap (List.mem_cons_of_mem _ hmem)

/-- **The first literal of a text** that is quoted behind a gap. -/
theorem values?_quoted_iff {gap s tail : List Char} {values : List (List UInt8)} (hgap : '"' ∉ gap) :
    values? (gap ++ (quoteChars s ++ tail)) = some (utf8 s :: values) ↔
      (∀ c ∈ s, IsPlain c) ∧ values? tail = some values := by
  rw [values?_append hgap, quoteChars_append, values?, if_pos rfl]
  split
  · rename_i bytes last hbody
    obtain ⟨rfl, -, -⟩ := body?_quoted hbody
    rw [Option.map_eq_some_iff, ← body?_quoted_eq_iff, hbody]
    constructor
    · rintro ⟨more, hmore, heq⟩
      obtain ⟨rfl, rfl⟩ := List.cons.inj heq
      exact ⟨rfl, hmore⟩
    · rintro ⟨heq, hmore⟩
      cases heq
      exact ⟨values, hmore, rfl⟩
  · rename_i hbody
    rw [← body?_quoted_eq_iff, hbody]
    simp

theorem values?_listed_iff {gap separator tail : List Char} (hgap : '"' ∉ gap)
    (hseparator : '"' ∉ separator) (htail : '"' ∉ tail) (texts : List (List Char)) :
    values? (gap ++ (separator.intercalate (texts.map quoteChars) ++ tail))
        = some (texts.map utf8) ↔ ∀ s ∈ texts, ∀ c ∈ s, IsPlain c := by
  have hend : values? tail = some [] := by
    rw [← List.append_nil tail, values?_append htail, values?]
  induction texts generalizing gap with
  | nil =>
    rw [values?_append hgap, List.map_nil, List.intercalate_nil, List.nil_append, hend]
    simp
  | cons s texts ih =>
    rw [List.forall_mem_cons]
    cases texts with
    | nil =>
      rw [List.map_singleton, List.map_singleton, List.intercalate_singleton,
        values?_quoted_iff hgap, hend]
      simp
    | cons t texts =>
      rw [List.map_cons, List.map_cons, List.map_cons, List.intercalate_cons_cons, List.append_assoc,
        List.append_assoc, values?_quoted_iff hgap]
      exact and_congr_right fun _ => ih hseparator

end

end ApiScaffold.Code.Literal
