import ApiScaffold.Proofs.Code.Parameters

/-!
# Reading constructors back

`Code.Signature` is the source of a constructor up to the end of its parameters, however it is
written.  `constructor_reads_back_iff` says when the parameters are read from it: always if they have
names, and else unless a number of more than one token stands in an instantiation.
-/

namespace ApiScaffold.Code

/-! ### Brackets -/

/-- The brackets `o` and `c` match. -/
inductive Balanced (o c : Char) : List Token → Prop
  | nil : Balanced o c []
  | token {t : Token} {rest : List Token} (opening : t ≠ .mark o) (closing : t ≠ .mark c)
      (more : Balanced o c rest) : Balanced o c (t :: rest)
  | nest {inner rest : List Token} (inside : Balanced o c inner) (more : Balanced o c rest) :
      Balanced o c (.mark o :: (inner ++ .mark c :: rest))

/-- Looking for the end passes over matching brackets. -/
theorem untilClosed?_append {o c : Char} (hne : o ≠ c) {ts : List Token} (h : Balanced o c ts)
    (depth : Nat) (rest : List Token) :
    untilClosed? o c depth (ts ++ rest)
      = (untilClosed? o c depth rest).map fun (inner, after) => (ts ++ inner, after) := by
  have hoc : Token.mark o ≠ .mark c := by simpa using hne
  induction h generalizing depth rest with
  | nil => simp
  | token opening closing _ ih =>
    cases depth <;> simp [untilClosed?, opening, closing, ih, Function.comp_def]
  | @nest inner more _ _ ihinner ihmore =>
    have hinner := ihinner (depth + 1) (.mark c :: (more ++ rest))
    cases depth <;>
      simp [untilClosed?, hoc, hinner, ihmore, Function.comp_def]

theorem untilClosed?_balanced {o c : Char} (hne : o ≠ c) {ts : List Token} (h : Balanced o c ts)
    (after : List Token) : untilClosed? o c 0 (ts ++ .mark c :: after) = some (ts, after) := by
  rw [untilClosed?_append hne h]
  simp [untilClosed?]

/-- Tokens with matching braces, outside of which no function `name` is declared. -/
inductive Before (name : String) : List Token → Prop
  | nil : Before name []
  | token {t : Token} {rest : List Token} (opening : t ≠ .mark '\x7b') (closing : t ≠ .mark '\x7d')
      (other : t = .ident "func" → rest.head? ≠ some (.ident name)) (more : Before name rest) :
      Before name (t :: rest)
  | braces {inner rest : List Token} (inside : Balanced '\x7b' '\x7d' inner)
      (more : Before name rest) : Before name (.mark '\x7b' :: (inner ++ .mark '\x7d' :: rest))

theorem paramTokens?_inside {ts : List Token} (h : Balanced '\x7b' '\x7d' ts) (name : String)
    (depth : Nat) (rest : List Token) :
    paramTokens? name (depth + 1) (ts ++ rest) = paramTokens? name (depth + 1) rest := by
  induction h generalizing depth rest with
  | nil => rfl
  | token opening closing _ ih => simp [paramTokens?, opening, closing, ih]
  | nest _ _ ihinner ihmore => simp [paramTokens?, ihinner, ihmore]

theorem paramTokens?_before {name : String} {ts : List Token} (h : Before name ts)
    {rest : List Token} (hrest : rest.head? ≠ some (.ident name)) :
    paramTokens? name 0 (ts ++ rest) = paramTokens? name 0 rest := by
  induction h with
  | nil => rfl
  | @token t more opening closing other _ ih =>
    have hother : ¬ (t = .ident "func" ∧ (more ++ rest).head? = some (.ident name)) := by
      rintro ⟨hfunc, hhead⟩
      cases more with
      | nil => exact hrest hhead
      | cons u more => exact other hfunc hhead
    rw [List.cons_append, paramTokens?, if_neg opening, if_neg closing,
      if_neg (by simpa using hother), ih]
  | braces inside _ ih => simp [paramTokens?, paramTokens?_inside inside, ih]

/-! ### The source of a constructor -/

/-- The source of a constructor up to the end of its parameters: what stands before it, its name, its
type parameters if it has any, and its parameters, perhaps with a comma behind the last. -/
structure Signature where
  before : List Token
  name : Identifier
  typeParams : Option (List Token)
  list : ParamList
  trailing : Bool
  first : Before name.text before
  balanced : ∀ ts ∈ typeParams, Balanced '[' ']' ts

namespace Signature

def listTokens (s : Signature) : List Token := separated s.trailing s.list.segments

def typeParamTokens (s : Signature) : List Token :=
  match s.typeParams with
  | none => []
  | some ts => .mark '[' :: (ts ++ [.mark ']'])

def tokens (s : Signature) : List Token :=
  s.before ++ .ident "func" :: .ident s.name.text ::
    (s.typeParamTokens ++ .mark '(' :: (s.listTokens ++ [.mark ')']))

end Signature

/-! ### No parenthesis stands in a list -/

def Token.isParen : Token → Bool
  | mark c => c == '(' || c == ')'
  | _ => false

def NoParen (ts : List Token) : Prop := ∀ u ∈ ts, u.isParen = false

namespace NoParen

theorem nil : NoParen [] := List.forall_mem_nil _

theorem cons {u : Token} {ts : List Token} (hu : u.isParen = false) (h : NoParen ts) :
    NoParen (u :: ts) := List.forall_mem_cons.mpr ⟨hu, h⟩

theorem append {xs ys : List Token} (hx : NoParen xs) (hy : NoParen ys) : NoParen (xs ++ ys) :=
  List.forall_mem_append.mpr ⟨hx, hy⟩

theorem balanced {ts : List Token} (h : NoParen ts) : Balanced '(' ')' ts := by
  induction ts with
  | nil => exact .nil
  | cons t ts ih =>
    obtain ⟨ht, hts⟩ := List.forall_mem_cons.mp h
    refine .token ?_ ?_ (ih hts)
    all_goals
      rintro rfl
      cases ht

end NoParen

theorem TypeName.noParen (n : TypeName) : NoParen n.tokens := by
  obtain ⟨_ | p, x⟩ := n
  · exact .cons rfl .nil
  · exact .cons rfl (.cons rfl (.cons rfl .nil))

theorem Numeral.noParen (n : Numeral) : NoParen n.tokens := by
  obtain ⟨point, digits, exponent, marked⟩ := n
  have hpoint : NoParen (if point then [.mark '.'] else []) := by
    split
    · exact .cons rfl .nil
    · exact .nil
  refine hpoint.append (.cons rfl ?_)
  cases exponent with
  | none => exact .nil
  | some e =>
    have hsign : (Token.mark e.sign).isParen = false := by
      unfold Exponent.sign
      split <;> rfl
    exact .cons hsign (.cons rfl .nil)

mutual

theorem GoType.noParen : ∀ t : GoType, NoParen t.tokens
  | .name n => n.noParen
  | .generic n args => n.noParen.append (.cons rfl (args.noParen.append (.cons rfl .nil)))
  | .pointer t => .cons rfl t.noParen
  | .slice t => .cons rfl (.cons rfl t.noParen)
  | .array n t => .cons rfl (n.noParen.append (.cons rfl t.noParen))
  | .map k v => .cons rfl (.cons rfl (k.noParen.append (.cons rfl v.noParen)))
  | .interface => .cons rfl (.cons rfl (.cons rfl .nil))

theorem TypeArgs.noParen : ∀ args : TypeArgs, NoParen args.tokens
  | .last t => t.noParen
  | .more t args => t.noParen.append (.cons rfl args.noParen)

end

theorem ParamType.noParen (p : ParamType) : NoParen p.tokens := by
  refine NoParen.append ?_ p.type.noParen
  split
  · exact .cons rfl .nil
  · exact .nil

theorem noParen_separated (trailing : Bool) {segments : List (List Token)}
    (h : ∀ s ∈ segments, NoParen s) : NoParen (separated trailing segments) := by
  fun_induction separated trailing segments with
  | case1 => exact .nil
  | case2 s =>
    refine (h s List.mem_cons_self).append ?_
    split
    · exact .cons rfl .nil
    · exact .nil
  | case3 s more _ ih =>
    exact (h s List.mem_cons_self).append (.cons rfl (ih fun s hs => h s (.tail _ hs)))

theorem Signature.balanced_listTokens (s : Signature) : Balanced '(' ')' s.listTokens :=
  (noParen_separated s.trailing (s.list.forall_mem_segments ParamType.noParen
    (fun _ => .cons rfl .nil) fun _ p => .cons rfl p.noParen)).balanced

/-! ### Finding the parameters -/

theorem Signature.opening_tokens (s : Signature) (after : List Token) :
    opening (s.typeParamTokens ++ .mark '(' :: (s.listTokens ++ .mark ')' :: after))
      = .params s.listTokens := by
  have hlist := untilClosed?_balanced (by decide) s.balanced_listTokens after
  unfold Signature.typeParamTokens
  split
  · simp [opening, hlist]
  · rename_i ts hts
    have htypes := untilClosed?_balanced (by decide) (s.balanced ts (by simp [hts]))
      (.mark '(' :: (s.listTokens ++ .mark ')' :: after))
    simp [opening, htypes, hlist]

theorem Signature.paramTokens?_tokens (s : Signature) (after : List Token) :
    paramTokens? s.name.text 0 (s.tokens ++ after) = some s.listTokens := by
  have hkeyword : Token.ident "func" ≠ .ident s.name.text := by
    intro h
    exact s.name.not_mem_typeWords (Token.ident.inj h ▸ by decide)
  rw [Signature.tokens, List.append_assoc, paramTokens?_before s.first (by simpa using hkeyword)]
  have hopening := s.opening_tokens after
  simp [paramTokens?, hopening]

theorem constructor?_of_spells (s : Signature) {tail : List Char} {source : String}
    (h : Spells tail s.tokens source.toList) :
    constructor? source s.name.text = some (params s.listTokens) := by
  rw [constructor?, tokens_of_spells h, s.paramTokens?_tokens, Option.map_some]

/-! ### An array in an instantiation -/

/-- The constructor `NewX` with one parameter without name, of the type `G` of arrays of size `n`. -/
def sized (n : Numeral) : Signature where
  before := []
  name := ⟨'N', ['e', 'w', 'X'], rfl, rfl, by decide⟩
  typeParams := none
  list := .unnamed [⟨false, .generic ⟨none, ⟨'G', [], rfl, rfl, by decide⟩⟩
    (.last (.array n (.name ⟨none, ⟨'i', ['n', 't'], rfl, rfl, by decide⟩⟩)))⟩]
  trailing := false
  first := .nil
  balanced := by simp

def eight : Numeral := ⟨false, ⟨'8', [], rfl, rfl⟩, none, by simp⟩

/-- `1e+3`, three tokens. -/
def thousand : Numeral := ⟨false, ⟨'1', ['e'], rfl, rfl⟩,
  some ⟨false, ⟨'3', [], rfl, rfl⟩⟩, by decide⟩

namespace Spells

variable {tail text : List Char} {ts : List Token}

theorem append {mid : List Char} {xs ys : List Token} (hx : Spells mid xs text)
    (hy : Spells tail ys mid) : Spells tail (xs ++ ys) text := by
  induction hx with
  | done => exact hy
  | trivia kind _ ih => exact .trivia kind ih
  | token written _ ih => exact .token written ih

theorem space (rest : Spells tail ts text) : Spells tail ts (' ' :: text) := .trivia (.blank rfl) rest

theorem word (c : Char) (more : List Char) {d : Char} (start : isIdentStart c = true)
    (part : more.all isIdentPart = true) (stop : isIdentPart d = false)
    (rest : Spells tail ts (d :: text)) :
    Spells tail (.ident (String.ofList (c :: more)) :: ts) (c :: more ++ d :: text) := by
  have h := token (.ident start (List.all_eq_true.mp part) (by simpa using stop)) rest
  rwa [Token.text, String.toList_ofList] at h

theorem number {d : Char} (n : Digits) (stop : isNumberPart d = false)
    (rest : Spells tail ts (d :: text)) :
    Spells tail (.literal n.text :: ts) (n.first :: n.more ++ d :: text) := by
  have h := token (.number n.start (List.all_eq_true.mp n.part) (by simpa using stop)) rest
  rwa [Token.text, String.toList_ofList] at h

theorem mark {c : Char} (plain : (isMark c && c != '/' && c != '.') = true)
    (rest : Spells tail ts text) : Spells tail (.mark c :: ts) (c :: text) := by
  simp only [Bool.and_eq_true, bne_iff_ne] at plain
  obtain ⟨⟨hmark, hslash⟩, hdot⟩ := plain
  have h := token (.mark hmark (fun e => absurd e hslash) fun e => absurd e hdot) rest
  rwa [Token.text, String.toList_ofList] at h

end Spells

theorem tokens_sized (n : Numeral) : (sized n).tokens =
    [.ident "func", .ident "NewX", .mark '(', .ident "G", .mark '[', .mark '['] ++
      (n.tokens ++ [.mark ']', .ident "int", .mark ']', .mark ')']) := by
  simp [sized, Signature.tokens, Signature.typeParamTokens, Signature.listTokens, separated,
    ParamList.segments, ParamType.tokens, GoType.tokens, TypeArgs.tokens, TypeName.tokens,
    Identifier.text]

/-- The source of `sized`, its size spelled in any way. -/
theorem spells_sized (n : Numeral) {size : List Char}
    (h : Spells "]int]) \x7b\x7d".toList n.tokens size) :
    Spells " \x7b\x7d".toList (sized n).tokens ("func NewX(G[[".toList ++ size) := by
  have hback : Spells " \x7b\x7d".toList [.mark ']', .ident "int", .mark ']', .mark ')']
      "]int]) \x7b\x7d".toList :=
    .mark rfl (.word 'i' ['n', 't'] (d := ']') rfl rfl rfl
      (.mark rfl (.mark rfl .done)))
  have hlist : Spells size [.mark '(', .ident "G", .mark '[', .mark '['] ("(G[[".toList ++ size) :=
    .mark rfl (.word 'G' [] (d := '[') rfl rfl rfl
      (.mark rfl (.mark rfl .done)))
  have hfront : Spells size [.ident "func", .ident "NewX", .mark '(', .ident "G", .mark '[', .mark '[']
      ("func NewX(G[[".toList ++ size) :=
    .word 'f' ['u', 'n', 'c'] (d := ' ') rfl rfl rfl
      (.space (.word 'N' ['e', 'w', 'X'] (d := '(') rfl rfl rfl hlist))
  rw [tokens_sized]
  exact hfront.append (h.append hback)

theorem spells_eight : Spells " \x7b\x7d".toList (sized eight).tokens
    "func NewX(G[[8]int]) \x7b\x7d".toList :=
  spells_sized eight (.number (d := ']') eight.digits rfl .done)

theorem spells_thousand : Spells " \x7b\x7d".toList (sized thousand).tokens
    "func NewX(G[[1e+3]int]) \x7b\x7d".toList :=
  spells_sized thousand (.number (d := '+') thousand.digits rfl
    (.mark (c := '+') rfl (.number (d := ']') ⟨'3', [], rfl, rfl⟩ rfl .done)))

theorem readable_sized_iff (n : Numeral) : (sized n).list.Readable ↔ n.Plain := by
  simp [sized, ParamList.Readable, ParamType.Readable, TypeArgs.Plain, GoType.Plain]

theorem constructor?_sized_thousand :
    constructor? "func NewX(G[[1e+3]int]) \x7b\x7d" "NewX" = some [⟨"G", "[[1e+3]int]"⟩] :=
  (constructor?_of_spells (sized thousand) spells_thousand).trans (by decide +kernel)

/-! ### When the parameters come back -/

/-- **When parameters are read back**: however the source of a constructor is written and whatever
follows, its parameters are read from it unless they have no names and a number of more than one token
stands in an instantiation. -/
theorem constructor_reads_back_iff (s : Signature) {tail : List Char} {source : String}
    (h : Spells tail s.tokens source.toList) :
    constructor? source s.name.text = some s.list.params ↔ s.list.Readable := by
  rw [constructor?_of_spells s h, Option.some.injEq, Signature.listTokens, s.list.params_segments_iff]

theorem constructor_reads_back_sized_eight :
    Spells " \x7b\x7d".toList (sized eight).tokens "func NewX(G[[8]int]) \x7b\x7d".toList ∧
      (sized eight).list.params = [⟨"arg0", "G[[8]int]"⟩] ∧
      constructor? "func NewX(G[[8]int]) \x7b\x7d" "NewX" = some (sized eight).list.params :=
  ⟨spells_eight, by decide +kernel, (constructor_reads_back_iff (sized eight) spells_eight).mpr
    ((readable_sized_iff eight).mpr ⟨rfl, rfl⟩)⟩

/-- **Not from every source**: an array of `1e+3` in an instantiation makes its name the name of a
parameter. -/
theorem not_forall_constructor_reads_back : ¬ ∀ (s : Signature) (tail : List Char) (source : String),
    Spells tail s.tokens source.toList → constructor? source s.name.text = some s.list.params := by
  intro h
  have hread := (h (sized thousand) _ _ spells_thousand).symm.trans constructor?_sized_thousand
  exact absurd hread (by decide +kernel)

end ApiScaffold.Code
