import ApiScaffold.Code.Token
import Mathlib.Data.List.TakeWhile

/-!
# Tokens as text

How Go source may be written: tokens with blanks and comments around them.  `Code.Spells` says that a
text is such a spelling of tokens, with other text behind; `tokens_of_spells` reads the tokens back.
-/

namespace ApiScaffold

namespace Text

/-! ### Blanks are no part of names -/

/-- The white space, one by one. -/
def blankPoints : List Nat :=
  [9, 10, 11, 12, 13, 32, 0x85, 0xA0, 0x1680, 0x2028, 0x2029, 0x202F, 0x205F, 0x3000]
    ++ List.range' 0x2000 11

theorem toNat_mem_blankPoints {c : Char} (h : isBlank c = true) : c.toNat ∈ blankPoints := by
  unfold isBlank CharSet.contains at h
  simp only [blankPoints, List.mem_append, List.mem_cons, List.not_mem_nil, or_false,
    List.mem_range'_1]
  split at h
  · simp only [isAsciiBlank, Bool.or_eq_true, beq_iff_eq, Bool.and_eq_true, decide_eq_true_eq] at h
    rcases h with rfl | h
    · simp
    · omega
  · simp only [blankRuns, List.any_cons, List.any_nil, Run.contains, Bool.or_eq_true,
      Bool.and_eq_true, decide_eq_true_eq, Bool.or_false] at h
    omega

theorem isAlphanumeric_blankPoints : ∀ n ∈ blankPoints, isAlphanumeric (Char.ofNat n) = false := by
  decide +kernel

theorem isAlphanumeric_of_isBlank {c : Char} (h : isBlank c = true) : isAlphanumeric c = false := by
  rw [← Char.ofNat_toNat c]
  exact isAlphanumeric_blankPoints _ (toNat_mem_blankPoints h)

end Text

namespace Code

/-! ### Spellings -/

/-- A blank or a comment. -/
inductive Trivia : List Char → Prop
  | blank {c : Char} (blank : Text.isBlank c = true) : Trivia [c]
  | line {body : List Char} (inside : '\n' ∉ body) : Trivia ('/' :: '/' :: body ++ ['\n'])
  | block {body : List Char} (inside : ¬ ['*', '/'] <:+: body) :
      Trivia ('/' :: '*' :: body ++ ['*', '/'])

/-- What may stand between quotes: a quote only behind a backslash. -/
inductive Quoted (quote : Char) : List Char → Prop
  | nil : Quoted quote []
  | plain {c : Char} {rest : List Char} (backslash : c ≠ '\\') (other : c ≠ quote)
      (more : Quoted quote rest) : Quoted quote (c :: rest)
  | escape {c : Char} {rest : List Char} (more : Quoted quote rest) :
      Quoted quote ('\\' :: c :: rest)

/-- Operators and brackets: what can be a token by itself. -/
def isMark (c : Char) : Bool :=
  !(Text.isBlank c || isIdentStart c || c.isDigit || c == '"' || c == '\'' || c == rawQuote)

/-- A token is written before `next`: what follows does not belong to it, and opens no comment
with it. -/
inductive Written : Token → (next : List Char) → Prop
  | ident {c : Char} {more next : List Char} (start : isIdentStart c = true)
      (part : ∀ d ∈ more, isIdentPart d = true) (stop : ∀ d ∈ next.head?, isIdentPart d = false) :
      Written (.ident (String.ofList (c :: more))) next
  | number {c : Char} {more next : List Char} (start : c.isDigit = true)
      (part : ∀ d ∈ more, isNumberPart d = true) (stop : ∀ d ∈ next.head?, isNumberPart d = false) :
      Written (.literal (String.ofList (c :: more))) next
  | quoted {quote : Char} {body next : List Char} (kind : quote = '"' ∨ quote = '\'')
      (inside : Quoted quote body) :
      Written (.literal (String.ofList (quote :: (body ++ [quote])))) next
  | raw {body next : List Char} (inside : rawQuote ∉ body) :
      Written (.literal (String.ofList (rawQuote :: (body ++ [rawQuote])))) next
  | mark {c : Char} {next : List Char} (plain : isMark c = true)
      (slash : c = '/' → next.head? ≠ some '/' ∧ next.head? ≠ some '*')
      (dot : c = '.' → ¬ ['.', '.'] <+: next) : Written (.mark c) next
  | ellipsis {next : List Char} : Written .ellipsis next

/-- A text that is tokens, written with blanks and comments before each, and then `tail`. -/
inductive Spells (tail : List Char) : List Token → List Char → Prop
  | done : Spells tail [] tail
  | trivia {space text : List Char} {ts : List Token} (kind : Trivia space)
      (rest : Spells tail ts text) : Spells tail ts (space ++ text)
  | token {t : Token} {text : List Char} {ts : List Token} (written : Written t text)
      (rest : Spells tail ts text) : Spells tail (t :: ts) (t.text.toList ++ text)

/-! ### How far a lexeme reaches -/

theorem lineLength_append {body : List Char} (h : '\n' ∉ body) (next : List Char) :
    lineLength (body ++ '\n' :: next) = body.length + 1 := by
  induction body with
  | nil => rfl
  | cons c body ih =>
    have hc : c ≠ '\n' := fun e => h (by simp [e])
    rw [List.cons_append, lineLength, if_neg hc, ih fun e => h (.tail _ e), List.length_cons]

theorem commentLength_append {body : List Char} (h : ¬ ['*', '/'] <:+: body) (next : List Char) :
    commentLength (body ++ '*' :: '/' :: next) = body.length + 2 := by
  induction body with
  | nil => rfl
  | cons c body ih =>
    have hbody : ¬ ['*', '/'] <:+: body := fun e => h (e.trans (List.suffix_cons c body).isInfix)
    have hopen : ∀ after, c = '*' → body ++ '*' :: '/' :: next = '/' :: after → False := by
      rintro after rfl hafter
      cases body with
      | nil => simp at hafter
      | cons d body =>
        obtain ⟨rfl, -⟩ := List.cons.inj hafter
        exact h ⟨[], body, rfl⟩
    rw [List.cons_append, commentLength.eq_3 _ _ hopen, ih hbody, List.length_cons]

theorem quotedLength_append {quote : Char} {body next : List Char} (hq : quote ≠ '\\')
    (h : Quoted quote body) :
    quotedLength quote false false (body ++ quote :: next) = body.length + 1 := by
  induction h with
  | nil => simp [quotedLength, hq]
  | plain hb ho _ ih => simp [quotedLength, hb, ho, ih]
  | escape _ ih => simp [quotedLength, ih]

theorem rawLength_append {quote : Char} {body next : List Char} (h : quote ∉ body) :
    quotedLength quote true false (body ++ quote :: next) = body.length + 1 := by
  induction body with
  | nil => simp [quotedLength]
  | cons c body ih =>
    have hc : c ≠ quote := fun e => h (by simp [e])
    simp [quotedLength, hc, ih fun e => h (.tail _ e)]

theorem takeWhile_append_of_stop {p : Char → Bool} {more next : List Char}
    (hpart : ∀ d ∈ more, p d = true) (hstop : ∀ d ∈ next.head?, p d = false) :
    (more ++ next).takeWhile p = more := by
  rw [List.takeWhile_append_of_pos hpart]
  cases next with
  | nil => simp
  | cons d next => simp [hstop d rfl]

/-! ### What opens a lexeme -/

theorem isBlank_of_isIdentStart {c : Char} (h : isIdentStart c = true) : Text.isBlank c = false := by
  by_contra hb
  have hletter := Text.isAlphanumeric_of_isBlank (eq_true_of_ne_false hb)
  rw [Text.isAlphanumeric, Bool.or_eq_false_iff] at hletter
  rw [isIdentStart, hletter.1, Bool.false_or, beq_iff_eq] at h
  subst h
  exact hb rfl

theorem isBlank_isIdentStart_digitPoints : ∀ n ∈ List.range' 48 10,
    Text.isBlank (Char.ofNat n) = false ∧ isIdentStart (Char.ofNat n) = false := by
  decide +kernel

theorem isBlank_isIdentStart_of_isDigit {c : Char} (h : c.isDigit = true) :
    Text.isBlank c = false ∧ isIdentStart c = false := by
  have hrange : 48 ≤ c.toNat ∧ c.toNat ≤ 57 := Char.isDigit_iff_toNat.mp h
  rw [← Char.ofNat_toNat c]
  refine isBlank_isIdentStart_digitPoints _ ?_
  rw [List.mem_range'_1]
  omega

theorem ne_of_isIdentStart {c d : Char} (h : isIdentStart c = true) (hd : isIdentStart d = false) :
    c ≠ d := by
  rintro rfl
  rw [h] at hd
  cases hd

theorem ne_of_isDigit {c d : Char} (h : c.isDigit = true) (hd : d.isDigit = false) : c ≠ d := by
  rintro rfl
  rw [h] at hd
  cases hd

theorem reach_blank {c : Char} {rest : List Char} (h : Text.isBlank c = true) :
    reach c rest = (.trivia, 0) := if_pos h

theorem reach_line (rest : List Char) :
    reach '/' ('/' :: rest) = (.trivia, lineLength rest + 1) := rfl

theorem reach_block (rest : List Char) :
    reach '/' ('*' :: rest) = (.trivia, commentLength rest + 1) := rfl

theorem reach_quote {c : Char} {rest : List Char} (h : c = '"' ∨ c = '\'') :
    reach c rest = (.literal, quotedLength c false false rest) := by
  rcases h with rfl | rfl <;> rfl

theorem reach_raw (rest : List Char) :
    reach rawQuote rest = (.literal, quotedLength rawQuote true false rest) := rfl

theorem reach_ident {c : Char} {rest : List Char} (h : isIdentStart c = true) :
    reach c rest = (.ident, (rest.takeWhile isIdentPart).length) := by
  have hslash : c ≠ '/' := ne_of_isIdentStart h rfl
  have hquote : c ≠ '"' ∧ c ≠ '\'' := ⟨ne_of_isIdentStart h rfl, ne_of_isIdentStart h rfl⟩
  have hraw : c ≠ rawQuote := ne_of_isIdentStart h rfl
  simp [reach, isBlank_of_isIdentStart h, hslash, hquote, hraw, h]

theorem reach_number {c : Char} {rest : List Char} (h : c.isDigit = true) :
    reach c rest = (.literal, (rest.takeWhile isNumberPart).length) := by
  have hslash : c ≠ '/' := ne_of_isDigit h rfl
  have hquote : c ≠ '"' ∧ c ≠ '\'' := ⟨ne_of_isDigit h rfl, ne_of_isDigit h rfl⟩
  have hraw : c ≠ rawQuote := ne_of_isDigit h rfl
  obtain ⟨hblank, hstart⟩ := isBlank_isIdentStart_of_isDigit h
  simp [reach, hblank, hslash, hquote, hraw, hstart, h]

theorem reach_mark {c : Char} {rest : List Char} (h : isMark c = true)
    (slash : c = '/' → rest.head? ≠ some '/' ∧ rest.head? ≠ some '*')
    (dot : c = '.' → ¬ ['.', '.'] <+: rest) : reach c rest = (.mark, 0) := by
  simp only [isMark, Bool.not_eq_true', Bool.or_eq_false_iff, beq_eq_false_iff_ne] at h
  obtain ⟨⟨⟨⟨⟨hblank, hstart⟩, hdigit⟩, hdouble⟩, hsingle⟩, hraw⟩ := h
  have hline : ¬ (c = '/' ∧ rest.head? = some '/') := fun e => (slash e.1).1 e.2
  have hblock : ¬ (c = '/' ∧ rest.head? = some '*') := fun e => (slash e.1).2 e.2
  have hdots : ¬ (c = '.' ∧ ['.', '.'] <+: rest) := fun e => dot e.1 e.2
  simp [reach, hblank, hline, hblock, hdouble, hsingle, hraw, hstart, hdigit, hdots]

/-! ### Reading a spelling back -/

theorem lexemes_cons {c : Char} (kind : LexemeKind) (more next : List Char)
    (h : reach c (more ++ next) = (kind, more.length)) :
    lexemes (c :: more ++ next) = .make kind c more :: lexemes next := by
  rw [List.cons_append, lexemes, h]
  simp

theorem lexemes_trivia {space : List Char} (h : Trivia space) (next : List Char) :
    lexemes (space ++ next) = .trivia space :: lexemes next := by
  cases h with
  | blank hc => exact lexemes_cons .trivia [] next (reach_blank hc)
  | @line body hbody =>
    refine lexemes_cons .trivia ('/' :: (body ++ ['\n'])) next ?_
    simp [reach_line, lineLength_append hbody next]
  | @block body hbody =>
    refine lexemes_cons .trivia ('*' :: (body ++ ['*', '/'])) next ?_
    simp [reach_block, commentLength_append hbody next]

theorem lexemes_token {t : Token} {next : List Char} (h : Written t next) :
    lexemes (t.text.toList ++ next) = .token t :: lexemes next := by
  cases h with
  | @ident c more _ start part stop =>
    rw [Token.text, String.toList_ofList]
    refine lexemes_cons .ident more next ?_
    rw [reach_ident start, takeWhile_append_of_stop part stop]
  | @number c more _ start part stop =>
    rw [Token.text, String.toList_ofList]
    refine lexemes_cons .literal more next ?_
    rw [reach_number start, takeWhile_append_of_stop part stop]
  | @quoted quote body _ kind inside =>
    have hescape : quote ≠ '\\' := by rcases kind with rfl | rfl <;> decide
    rw [Token.text, String.toList_ofList]
    refine lexemes_cons .literal (body ++ [quote]) next ?_
    rw [List.append_assoc, List.singleton_append, reach_quote kind,
      quotedLength_append hescape inside, List.length_append, List.length_singleton]
  | @raw body _ inside =>
    rw [Token.text, String.toList_ofList]
    refine lexemes_cons .literal (body ++ [rawQuote]) next ?_
    rw [List.append_assoc, List.singleton_append, reach_raw, rawLength_append inside,
      List.length_append, List.length_singleton]
  | @mark c _ plain slash dot =>
    rw [Token.text, String.toList_ofList]
    exact lexemes_cons .mark [] next (reach_mark plain slash dot)
  | ellipsis => exact lexemes_cons .ellipsis ['.', '.'] next rfl

theorem tokens_of_spells {tail : List Char} {ts : List Token} {source : String}
    (h : Spells tail ts source.toList) :
    tokens source = ts ++ tokens (String.ofList tail) := by
  unfold tokens
  rw [String.toList_ofList]
  generalize source.toList = text at h
  induction h with
  | done => rfl
  | trivia kind _ ih =>
    rw [lexemes_trivia kind]
    exact ih
  | token written _ ih =>
    rw [lexemes_token written]
    exact congrArg (_ :: ·) ih

end Code
end ApiScaffold
