import ApiScaffold.Proofs.Code.Spelling
import ApiScaffold.Proofs.Text.Split

/-!
# Every text as tokens and gaps

`Code.Layout` says how a text consists of tokens with gaps between them: blanks and comments stand in a
gap, and a comment or a literal that nothing closes reaches to the end.  `tokens_lose_nothing`: every
text has a layout, and its tokens are the ones that are read.
-/

namespace ApiScaffold.Code

/-! ### Layouts -/

/-- A comment that reaches to the end of the text. -/
inductive OpenComment : List Char → Prop
  | line {body : List Char} (inside : '\n' ∉ body) : OpenComment ('/' :: '/' :: body)
  | block {body : List Char} (inside : ¬ ['*', '/'] <:+: body) : OpenComment ('/' :: '*' :: body)

/-- Blanks and comments one after the other; only at the end may the last comment be open. -/
inductive Gap (atEnd : Prop) : List Char → Prop
  | none : Gap atEnd []
  | trivia {space rest : List Char} (kind : Trivia space) (more : Gap atEnd rest) :
      Gap atEnd (space ++ rest)
  | unclosed {text : List Char} (last : atEnd) (kind : OpenComment text) : Gap atEnd text

/-- A literal without its closing quote; a backslash at its end has nothing to escape. -/
inductive OpenLiteral : List Char → Prop
  | quoted {quote : Char} {body : List Char} (kind : quote = '"' ∨ quote = '\'')
      (inside : Quoted quote body) : OpenLiteral (quote :: body)
  | escaping {quote : Char} {body : List Char} (kind : quote = '"' ∨ quote = '\'')
      (inside : Quoted quote body) : OpenLiteral (quote :: (body ++ ['\\']))
  | raw {body : List Char} (inside : rawQuote ∉ body) : OpenLiteral (rawQuote :: body)

/-- A token before `next`: either it is whole, or it is a literal that reaches to the end. -/
inductive Stands : Token → (next : List Char) → Prop
  | whole {t : Token} {next : List Char} (written : Written t next) : Stands t next
  | unclosed {text : List Char} (kind : OpenLiteral text) : Stands (.literal (String.ofList text)) []

/-- A text that is tokens with a gap before each and one behind the last. -/
inductive Layout : List Token → List Char → Prop
  | last {gap : List Char} (kind : Gap True gap) : Layout [] gap
  | token {gap text : List Char} {t : Token} {ts : List Token} (kind : Gap False gap)
      (stands : Stands t text) (rest : Layout ts text) :
      Layout (t :: ts) (gap ++ (t.text.toList ++ text))

/-! ### A layout is read back -/

theorem lineLength_of_notMem {body : List Char} (h : '\n' ∉ body) : lineLength body = body.length := by
  induction body with
  | nil => rfl
  | cons c body ih =>
    have hc : c ≠ '\n' := fun e => h (by simp [e])
    rw [lineLength, if_neg hc, ih fun e => h (.tail _ e), List.length_cons]

theorem commentLength_of_not_isInfix {body : List Char} (h : ¬ ['*', '/'] <:+: body) :
    commentLength body = body.length := by
  induction body with
  | nil => rfl
  | cons c body ih =>
    have hbody : ¬ ['*', '/'] <:+: body := fun e => h (e.trans (List.suffix_cons c body).isInfix)
    have hopen : ∀ after, c = '*' → body = '/' :: after → False := by
      rintro after rfl rfl
      exact h ⟨[], after, rfl⟩
    rw [commentLength.eq_3 _ _ hopen, ih hbody, List.length_cons]

theorem quotedLength_of_quoted {quote : Char} {body : List Char} (h : Quoted quote body) :
    quotedLength quote false false body = body.length := by
  induction h with
  | nil => rfl
  | plain hb ho _ ih => simp [quotedLength, hb, ho, ih]
  | escape _ ih => simp [quotedLength, ih]

theorem quotedLength_escaping {quote : Char} {body : List Char} (h : Quoted quote body) :
    quotedLength quote false false (body ++ ['\\']) = (body ++ ['\\']).length := by
  induction h with
  | nil => rfl
  | plain hb ho _ ih => simp [quotedLength, hb, ho, ih]
  | escape _ ih => simp [quotedLength, ih]

theorem rawLength_of_notMem {quote : Char} {body : List Char} (h : quote ∉ body) :
    quotedLength quote true false body = body.length := by
  induction body with
  | nil => rfl
  | cons c body ih =>
    have hc : c ≠ quote := fun e => h (by simp [e])
    simp [quotedLength, hc, ih fun e => h (.tail _ e)]

theorem lexemes_to_end {c : Char} (kind : LexemeKind) {more : List Char}
    (h : reach c more = (kind, more.length)) : lexemes (c :: more) = [.make kind c more] := by
  have hall := lexemes_cons kind more [] (by rwa [List.append_nil])
  rwa [List.append_nil, lexemes.eq_1] at hall

theorem lexemes_openComment {text : List Char} (h : OpenComment text) :
    lexemes text = [.trivia text] := by
  cases h with
  | line inside =>
    refine lexemes_to_end .trivia ?_
    rw [reach_line, lineLength_of_notMem inside, List.length_cons]
  | block inside =>
    refine lexemes_to_end .trivia ?_
    rw [reach_block, commentLength_of_not_isInfix inside, List.length_cons]

theorem lexemes_openLiteral {text : List Char} (h : OpenLiteral text) :
    lexemes text = [.token (.literal (String.ofList text))] := by
  cases h with
  | quoted kind inside =>
    refine lexemes_to_end .literal ?_
    rw [reach_quote kind, quotedLength_of_quoted inside]
  | escaping kind inside =>
    refine lexemes_to_end .literal ?_
    rw [reach_quote kind, quotedLength_escaping inside]
  | raw inside =>
    refine lexemes_to_end .literal ?_
    rw [reach_raw, rawLength_of_notMem inside]

theorem tokens_of_gap {gap : List Char} (h : Gap False gap) (text : List Char) :
    (lexemes (gap ++ text)).filterMap Lexeme.token? = (lexemes text).filterMap Lexeme.token? := by
  induction h with
  | none => rfl
  | trivia kind _ ih =>
    rw [List.append_assoc, lexemes_trivia kind]
    exact ih
  | unclosed last _ => exact last.elim

theorem tokens_of_last_gap {gap : List Char} (h : Gap True gap) :
    (lexemes gap).filterMap Lexeme.token? = [] := by
  induction h with
  | none =>
    rw [lexemes.eq_1]
    rfl
  | trivia kind _ ih =>
    rw [lexemes_trivia kind]
    exact ih
  | unclosed _ kind =>
    rw [lexemes_openComment kind]
    rfl

theorem tokens_of_stands {t : Token} {next : List Char} (h : Stands t next) :
    (lexemes (t.text.toList ++ next)).filterMap Lexeme.token?
      = t :: (lexemes next).filterMap Lexeme.token? := by
  cases h with
  | whole written =>
    rw [lexemes_token written]
    rfl
  | unclosed kind =>
    rw [Token.text, String.toList_ofList, List.append_nil, lexemes_openLiteral kind, lexemes.eq_1]
    rfl

/-- **The tokens of a layout are the ones that are read.** -/
theorem tokens_of_layout {ts : List Token} {source : String} (h : Layout ts source.toList) :
    tokens source = ts := by
  unfold tokens
  generalize source.toList = text at h
  induction h with
  | last kind => exact tokens_of_last_gap kind
  | token kind stands _ ih => rw [tokens_of_gap kind, tokens_of_stands stands, ih]

/-! ### Every text has a layout -/

/-- Up to the first `stop`, or to the end of the text. -/
theorem exists_upTo (stop : Char) (rest : List Char) :
    ∃ body, stop ∉ body ∧ (rest = body ∨ ∃ after, rest = body ++ stop :: after) := by
  by_cases h : stop ∈ rest
  · obtain ⟨body, after, hrest, hbody⟩ := List.eq_append_cons_of_mem h
    exact ⟨body, hbody, .inr ⟨after, hrest⟩⟩
  · exact ⟨rest, h, .inl rfl⟩

/-- Up to the first end of a comment. -/
theorem exists_block (rest : List Char) :
    ∃ body, ¬ ['*', '/'] <:+: body ∧ (rest = body ∨ ∃ after, rest = body ++ '*' :: '/' :: after) := by
  induction rest with
  | nil => exact ⟨[], by decide, .inl rfl⟩
  | cons c rest ih =>
    by_cases hopen : ['*', '/'] <+: c :: rest
    · obtain ⟨after, hafter⟩ := hopen
      exact ⟨[], by decide, .inr ⟨after, hafter.symm⟩⟩
    · obtain ⟨body, hbody, hrest⟩ := ih
      have hprefix : body <+: rest := by
        rcases hrest with rfl | ⟨after, rfl⟩
        · exact List.prefix_rfl
        · exact List.prefix_append _ _
      refine ⟨c :: body, fun hinfix => ?_, ?_⟩
      · rcases List.infix_cons_iff.mp hinfix with hhead | htail
        · exact hopen (hhead.trans ((List.prefix_cons_inj c).mpr hprefix))
        · exact hbody htail
      · rcases hrest with rfl | ⟨after, rfl⟩
        · exact .inl rfl
        · exact .inr ⟨after, rfl⟩

/-- Up to the first quote that no backslash escapes. -/
theorem exists_quoted (quote : Char) (rest : List Char) : ∃ body, Quoted quote body ∧
    (rest = body ∨ rest = body ++ ['\\'] ∨ ∃ after, rest = body ++ quote :: after) := by
  -- on the length, as an escape takes two characters at once
  induction h : rest.length using Nat.strong_induction_on generalizing rest with
  | _ n ih =>
    subst h
    match rest with
    | [] => exact ⟨[], .nil, .inl rfl⟩
    | c :: rest =>
      by_cases hescape : c = '\\'
      · subst hescape
        match rest with
        | [] => exact ⟨[], .nil, .inr (.inl rfl)⟩
        | d :: rest =>
          obtain ⟨body, hbody, hrest⟩ := ih _ (by rw [List.length_cons, List.length_cons]; omega) rest rfl
          refine ⟨'\\' :: d :: body, .escape hbody, ?_⟩
          rcases hrest with rfl | rfl | ⟨after, rfl⟩
          · exact .inl rfl
          · exact .inr (.inl rfl)
          · exact .inr (.inr ⟨after, rfl⟩)
      · by_cases hquote : c = quote
        · exact ⟨[], .nil, .inr (.inr ⟨rest, by rw [hquote]; rfl⟩)⟩
        · obtain ⟨body, hbody, hrest⟩ := ih _ (Nat.lt_succ_self _) rest rfl
          refine ⟨c :: body, .plain hescape hquote hbody, ?_⟩
          rcases hrest with rfl | rfl | ⟨after, rfl⟩
          · exact .inl rfl
          · exact .inr (.inl rfl)
          · exact .inr (.inr ⟨after, rfl⟩)

theorem Layout.trivia {space text : List Char} {ts : List Token} (kind : Trivia space)
    (h : Layout ts text) : Layout ts (space ++ text) := by
  cases h with
  | last gap => exact .last (.trivia kind gap)
  | token gap stands rest =>
    rw [← List.append_assoc]
    exact .token (.trivia kind gap) stands rest

theorem Layout.written {t : Token} {chars text : List Char} {ts : List Token}
    (written : Written t text) (spelled : t.text.toList = chars) (h : Layout ts text) :
    Layout (t :: ts) (chars ++ text) :=
  spelled ▸ .token .none (.whole written) h

theorem Layout.comment {text : List Char} (kind : OpenComment text) : Layout [] text :=
  .last (.unclosed trivial kind)

theorem Layout.literal {text : List Char} (kind : OpenLiteral text) :
    Layout [.literal (String.ofList text)] text := by
  have h : Layout [_] (_ ++ []) := .token .none (.unclosed kind) (.last .none)
  rwa [Token.text, String.toList_ofList, List.append_nil] at h

section Front

variable {n : Nat} (shorter : ∀ text : List Char, text.length ≤ n → ∃ ts, Layout ts text)
include shorter

theorem exists_layout_line {rest : List Char} (h : rest.length ≤ n) :
    ∃ ts, Layout ts ('/' :: '/' :: rest) := by
  obtain ⟨body, hbody, rfl | ⟨after, rfl⟩⟩ := exists_upTo '\n' rest
  · exact ⟨[], .comment (.line hbody)⟩
  · obtain ⟨ts, hts⟩ := shorter after (by simp at h; omega)
    refine ⟨ts, ?_⟩
    simpa using hts.trivia (.line hbody)

theorem exists_layout_block {rest : List Char} (h : rest.length ≤ n) :
    ∃ ts, Layout ts ('/' :: '*' :: rest) := by
  obtain ⟨body, hbody, rfl | ⟨after, rfl⟩⟩ := exists_block rest
  · exact ⟨[], .comment (.block hbody)⟩
  · obtain ⟨ts, hts⟩ := shorter after (by simp at h; omega)
    refine ⟨ts, ?_⟩
    simpa using hts.trivia (.block hbody)

theorem exists_layout_quote {quote : Char} {rest : List Char} (kind : quote = '"' ∨ quote = '\'')
    (h : rest.length ≤ n) : ∃ ts, Layout ts (quote :: rest) := by
  obtain ⟨body, hbody, rfl | rfl | ⟨after, rfl⟩⟩ := exists_quoted quote rest
  · exact ⟨_, .literal (.quoted kind hbody)⟩
  · exact ⟨_, .literal (.escaping kind hbody)⟩
  · obtain ⟨ts, hts⟩ := shorter after (by simp at h; omega)
    rw [List.append_cons]
    exact ⟨_, hts.written (.quoted kind hbody) String.toList_ofList⟩

theorem exists_layout_raw {rest : List Char} (h : rest.length ≤ n) :
    ∃ ts, Layout ts (rawQuote :: rest) := by
  obtain ⟨body, hbody, rfl | ⟨after, rfl⟩⟩ := exists_upTo rawQuote rest
  · exact ⟨_, .literal (.raw hbody)⟩
  · obtain ⟨ts, hts⟩ := shorter after (by simp at h; omega)
    rw [List.append_cons]
    exact ⟨_, hts.written (.raw hbody) String.toList_ofList⟩

/-- A lexeme that goes on as long as its characters are of one sort. -/
theorem exists_layout_run (spell : String → Token) {isPart : Char → Bool} {c : Char} {rest : List Char}
    (spelled : ∀ text, (spell text).text = text)
    (written : ∀ {more next : List Char}, (∀ d ∈ more, isPart d = true) →
      (∀ d ∈ next.head?, isPart d = false) → Written (spell (String.ofList (c :: more))) next)
    (h : rest.length ≤ n) : ∃ ts, Layout ts (c :: rest) := by
  obtain ⟨more, hrest, part, stop⟩ := Text.eq_append_dropWhile isPart rest
  obtain ⟨ts, hts⟩ := shorter (rest.dropWhile isPart) ((List.dropWhile_sublist _).length_le.trans h)
  rw [hrest]
  exact ⟨_, hts.written (written part stop) (by rw [spelled, String.toList_ofList])⟩

/-- A mark stands by itself, unless it opens a comment or is the first of three dots. -/
theorem exists_layout_mark {c : Char} {rest : List Char} (plain : isMark c = true)
    (h : rest.length ≤ n) : ∃ ts, Layout ts (c :: rest) := by
  by_cases hdots : c = '.' ∧ ['.', '.'] <+: rest
  · obtain ⟨rfl, next, rfl⟩ := hdots
    obtain ⟨ts, hts⟩ := shorter next (by simp at h; omega)
    exact ⟨_, hts.written .ellipsis rfl⟩
  by_cases hline : c = '/' ∧ rest.head? = some '/'
  · obtain ⟨rfl, hhead⟩ := hline
    obtain ⟨rest, rfl⟩ := List.head?_eq_some_iff.mp hhead
    exact exists_layout_line shorter (by simp at h; omega)
  by_cases hblock : c = '/' ∧ rest.head? = some '*'
  · obtain ⟨rfl, hhead⟩ := hblock
    obtain ⟨rest, rfl⟩ := List.head?_eq_some_iff.mp hhead
    exact exists_layout_block shorter (by simp at h; omega)
  have slash : c = '/' → rest.head? ≠ some '/' ∧ rest.head? ≠ some '*' :=
    fun e => ⟨fun hhead => hline ⟨e, hhead⟩, fun hhead => hblock ⟨e, hhead⟩⟩
  have dot : c = '.' → ¬ ['.', '.'] <+: rest := fun e hprefix => hdots ⟨e, hprefix⟩
  obtain ⟨ts, hts⟩ := shorter rest h
  exact ⟨_, hts.written (.mark plain slash dot) String.toList_ofList⟩

/-- The cases are those of `reach`. -/
theorem exists_layout_cons {c : Char} {rest : List Char} (h : rest.length ≤ n) :
    ∃ ts, Layout ts (c :: rest) := by
  by_cases hblank : Text.isBlank c = true
  · obtain ⟨ts, hts⟩ := shorter rest h
    exact ⟨ts, hts.trivia (.blank hblank)⟩
  by_cases hquote : c = '"' ∨ c = '\''
  · exact exists_layout_quote shorter hquote h
  by_cases hraw : c = rawQuote
  · subst hraw
    exact exists_layout_raw shorter h
  by_cases hident : isIdentStart c = true
  · exact exists_layout_run shorter .ident (fun _ => rfl) (.ident hident) h
  by_cases hnumber : c.isDigit = true
  · exact exists_layout_run shorter .literal (fun _ => rfl) (.number hnumber) h
  rw [not_or] at hquote
  exact exists_layout_mark shorter (by simp [isMark, *]) h

end Front

/-- **Every text has a layout.** -/
theorem exists_layout (text : List Char) : ∃ ts, Layout ts text := by
  induction h : text.length using Nat.strong_induction_on generalizing text with
  | _ n ih =>
    subst h
    match text with
    | [] => exact ⟨[], .last .none⟩
    | c :: rest => exact exists_layout_cons (fun _ h => ih _ (Nat.lt_succ_of_le h) _ rfl) le_rfl

/-- A layout, piece by piece: the gap before each token, with the token, and the gap at the end. -/
theorem Layout.exists_pieces {ts : List Token} {text : List Char} (h : Layout ts text) :
    ∃ (pieces : List (List Char × Token)) (last : List Char),
      text = pieces.flatMap (fun p => p.1 ++ p.2.text.toList) ++ last ∧ pieces.map Prod.snd = ts ∧
      (∀ p ∈ pieces, Gap False p.1) ∧ Gap True last := by
  induction h with
  | last kind => exact ⟨[], _, rfl, rfl, by simp, kind⟩
  | @token gap _ t _ kind _ _ ih =>
    obtain ⟨pieces, last, rfl, rfl, hpieces, hlast⟩ := ih
    refine ⟨(gap, t) :: pieces, last, by simp, rfl, ?_, hlast⟩
    rintro p (_ | ⟨_, hp⟩)
    · exact kind
    · exact hpieces p hp

/-- **Nothing of a text is lost.**  It is the tokens that are read, with a gap before each and one
behind the last, and the tokens are the only ones that it is laid out with. -/
theorem tokens_lose_nothing (source : String) :
    (∃ (pieces : List (List Char × Token)) (last : List Char),
      source.toList = pieces.flatMap (fun p => p.1 ++ p.2.text.toList) ++ last ∧
      pieces.map Prod.snd = tokens source ∧ (∀ p ∈ pieces, Gap False p.1) ∧ Gap True last) ∧
    ∀ ts, tokens source = ts ↔ Layout ts source.toList := by
  obtain ⟨ts, hts⟩ := exists_layout source.toList
  have htokens := tokens_of_layout hts
  refine ⟨htokens ▸ hts.exists_pieces, fun other => ⟨?_, tokens_of_layout⟩⟩
  rintro rfl
  rwa [htokens]

end ApiScaffold.Code
