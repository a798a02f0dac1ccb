import ApiScaffold.Code.Signature
import ApiScaffold.Name.Casing
import ApiScaffold.Proofs.Code.Spelling

/-!
# Types of parameters

`Code.GoType` is a Go type of names, instantiations, pointers, slices, arrays, maps and interfaces,
with its tokens and its text.  `GoType.sound` and `GoType.complete` say that the tokens are read as the
type exactly if each number in it is one token, `ParamType.typeText_tokens` that its text comes out in
any case.
-/

namespace ApiScaffold.Code

/-! ### Names and numbers -/

/-- A name that is no keyword. -/
structure Identifier where
  first : Char
  more : List Char
  start : isIdentStart first = true
  part : more.all isIdentPart = true
  free : String.ofList (first :: more) ∉ Name.reservedWords

def Identifier.text (x : Identifier) : String := String.ofList (x.first :: x.more)

/-- A digit and what belongs to a number behind it. -/
structure Digits where
  first : Char
  more : List Char
  start : first.isDigit = true
  part : more.all isNumberPart = true

def Digits.text (d : Digits) : String := String.ofList (d.first :: d.more)

/-- The exponent of a number with its sign. -/
structure Exponent where
  negative : Bool
  digits : Digits

def Exponent.sign (e : Exponent) : Char := if e.negative then '-' else '+'

/-- A number literal: it may open with its decimal point, and end with a signed exponent. -/
structure Numeral where
  point : Bool
  digits : Digits
  exponent : Option Exponent
  marked : exponent.isSome → digits.more.getLast? ∈ ['e', 'E', 'p', 'P'].map some

namespace Numeral

def tokens (n : Numeral) : List Token :=
  (if n.point then [.mark '.'] else []) ++ .literal n.digits.text ::
    (match n.exponent with
    | none => []
    | some e => [.mark e.sign, .literal e.digits.text])

def text (n : Numeral) : String :=
  (if n.point then "." else "") ++ n.digits.text ++
    (match n.exponent with
    | none => ""
    | some e => String.ofList [e.sign] ++ e.digits.text)

/-- The number is one token. -/
def Plain (n : Numeral) : Prop := n.point = false ∧ n.exponent = none

end Numeral

structure TypeName where
  package : Option Identifier
  name : Identifier

namespace TypeName

def tokens (n : TypeName) : List Token :=
  match n.package with
  | none => [.ident n.name.text]
  | some p => [.ident p.text, .mark '.', .ident n.name.text]

def text (n : TypeName) : String :=
  match n.package with
  | none => n.name.text
  | some p => p.text ++ "." ++ n.name.text

end TypeName

/-! ### Types -/

mutual

inductive GoType where
  | name (n : TypeName)
  | generic (n : TypeName) (args : TypeArgs)
  | pointer (target : GoType)
  | slice (item : GoType)
  | array (size : Numeral) (item : GoType)
  | map (key value : GoType)
  | interface

/-- One type argument or more. -/
inductive TypeArgs where
  | last (t : GoType)
  | more (t : GoType) (rest : TypeArgs)

end

mutual

def GoType.tokens : GoType → List Token
  | .name n => n.tokens
  | .generic n args => n.tokens ++ .mark '[' :: (args.tokens ++ [.mark ']'])
  | .pointer t => .mark '*' :: t.tokens
  | .slice t => .mark '[' :: .mark ']' :: t.tokens
  | .array n t => .mark '[' :: (n.tokens ++ .mark ']' :: t.tokens)
  | .map k v => .ident "map" :: .mark '[' :: (k.tokens ++ .mark ']' :: v.tokens)
  | .interface => [.ident "interface", .mark '\x7b', .mark '\x7d']

def TypeArgs.tokens : TypeArgs → List Token
  | .last t => t.tokens
  | .more t rest => t.tokens ++ .mark ',' :: rest.tokens

end

section Append

variable (rest : List Token)

theorem GoType.tokens_generic_append (n : TypeName) (args : TypeArgs) :
    (GoType.generic n args).tokens ++ rest
      = n.tokens ++ .mark '[' :: (args.tokens ++ .mark ']' :: rest) := by
  simp [GoType.tokens]

theorem GoType.tokens_pointer_append (t : GoType) :
    (GoType.pointer t).tokens ++ rest = .mark '*' :: (t.tokens ++ rest) := rfl

theorem GoType.tokens_slice_append (t : GoType) :
    (GoType.slice t).tokens ++ rest = .mark '[' :: .mark ']' :: (t.tokens ++ rest) := rfl

theorem GoType.tokens_array_append (n : Numeral) (t : GoType) :
    (GoType.array n t).tokens ++ rest
      = .mark '[' :: (n.tokens ++ .mark ']' :: (t.tokens ++ rest)) :=
  congrArg (Token.mark '[' :: ·) (List.append_assoc ..)

theorem GoType.tokens_map_append (k v : GoType) :
    (GoType.map k v).tokens ++ rest
      = .ident "map" :: .mark '[' :: (k.tokens ++ .mark ']' :: (v.tokens ++ rest)) :=
  congrArg (Token.ident "map" :: .mark '[' :: ·) (List.append_assoc ..)

theorem GoType.tokens_interface_append : GoType.interface.tokens ++ rest
    = .ident "interface" :: .mark '\x7b' :: .mark '\x7d' :: rest := rfl

theorem TypeArgs.tokens_more_append (t : GoType) (args : TypeArgs) :
    (TypeArgs.more t args).tokens ++ rest = t.tokens ++ .mark ',' :: (args.tokens ++ rest) :=
  List.append_assoc ..

end Append

mutual

def GoType.text : GoType → String
  | .name n => n.text
  | .generic n args => n.text ++ "[" ++ ", ".intercalate args.texts ++ "]"
  | .pointer t => "*" ++ t.text
  | .slice t => "[]" ++ t.text
  | .array n t => "[" ++ n.text ++ "]" ++ t.text
  | .map k v => "map[" ++ k.text ++ "]" ++ v.text
  | .interface => "interface\x7b\x7d"

def TypeArgs.texts : TypeArgs → List String
  | .last t => [t.text]
  | .more t rest => t.text :: rest.texts

end

mutual

/-- Each number in the type is one token. -/
def GoType.Plain : GoType → Prop
  | .name _ => True
  | .generic _ args => args.Plain
  | .pointer t => t.Plain
  | .slice t => t.Plain
  | .array n t => n.Plain ∧ t.Plain
  | .map k v => k.Plain ∧ v.Plain
  | .interface => True

def TypeArgs.Plain : TypeArgs → Prop
  | .last t => t.Plain
  | .more t rest => t.Plain ∧ rest.Plain

end

/-! ### One step of the reader -/

/-- A name ends here: no selector and no type arguments follow. -/
def EndsName (rest : List Token) : Prop :=
  rest.head? ≠ some (.mark '.') ∧ rest.head? ≠ some (.mark '[')

theorem type?_pointer (fuel : Nat) (ts : List Token) :
    type? fuel (.mark '*' :: ts) = (type? (fuel - 1) ts).map fun (t, rest) => ("*" ++ t, rest) := by
  cases fuel <;> rfl

theorem type?_ellipsis (fuel : Nat) (ts : List Token) :
    type? fuel (.ellipsis :: ts) = (type? (fuel - 1) ts).map fun (t, rest) => ("..." ++ t, rest) := by
  cases fuel <;> rfl

theorem type?_bracket (fuel : Nat) (ts : List Token) :
    type? fuel (.mark '[' :: ts) = (arraySize? ts).bind fun (size, rest) =>
      (type? (fuel - 1) rest).map fun (t, rest) => ("[" ++ size ++ "]" ++ t, rest) := by
  cases fuel with
  | zero => cases arraySize? ts <;> rfl
  | succ fuel =>
    simp only [Option.map_eq_bind]
    rfl

theorem type?_map_eq_some {fuel : Nat} {ts : List Token} {r : String × List Token} :
    type? fuel (.ident "map" :: .mark '[' :: ts) = some r ↔ ∃ key rest value after,
      type? (fuel - 1) ts = some (key, .mark ']' :: rest) ∧
      type? (fuel - 1) rest = some (value, after) ∧ ("map[" ++ key ++ "]" ++ value, after) = r := by
  cases fuel with
  | zero => exact ⟨nofun, nofun⟩
  | succ fuel =>
    rw [type?, if_pos rfl, Nat.add_sub_cancel]
    dsimp only
    split
    · rename_i key rest hkey
      simp [hkey, and_assoc]
    · rename_i hkey
      simp only [reduceCtorEq, false_iff, not_exists, not_and]
      intro key rest _ _ h
      exact absurd h (hkey key rest)

theorem Identifier.not_mem_typeWords (x : Identifier) : x.text ∉ typeWords := fun h =>
  x.free ((by decide : typeWords ⊆ Name.reservedWords) h)

theorem type?_ident (x : Identifier) (fuel : Nat) (ts : List Token) :
    type? fuel (.ident x.text :: ts) = namedType? (fuel - 1) x.text ts := by
  cases fuel with
  | zero => rfl
  | succ fuel =>
    have h := x.not_mem_typeWords
    have hmap : x.text ≠ "map" := fun e => h (e ▸ by decide)
    have hinterface : x.text ≠ "interface" := fun e => h (e ▸ by decide)
    simp [type?, hmap, hinterface, h]

theorem instance?_name {rest : List Token} (h : rest.head? ≠ some (.mark '[')) (fuel : Nat)
    (name : String) : instance? (fuel + 1) name rest = some (name, rest) := by
  unfold instance?
  split
  · exact absurd rfl h
  · rfl

theorem type?_interface (fuel : Nat) (rest : List Token) :
    type? (fuel + 1) (.ident "interface" :: .mark '\x7b' :: .mark '\x7d' :: rest)
      = some ("interface\x7b\x7d", rest) := rfl

/-- A name is read in two steps, and its type arguments are looked for. -/
theorem type?_typeName (n : TypeName) {rest : List Token} (h : rest.head? ≠ some (.mark '.'))
    (fuel : Nat) : type? fuel (n.tokens ++ rest) = instance? (fuel - 2) n.text rest := by
  obtain ⟨_ | p, x⟩ := n
  · simp only [TypeName.tokens, TypeName.text, List.cons_append, List.nil_append, type?_ident]
    match fuel with
    | 0 | 1 => rfl
    | fuel + 2 =>
      rw [Nat.add_sub_cancel, show fuel + 2 - 1 = fuel + 1 from rfl]
      unfold namedType?
      split
      · exact absurd rfl h
      · exact absurd rfl h
      · rfl
  · simp only [TypeName.tokens, TypeName.text, List.cons_append, List.nil_append, type?_ident]
    match fuel with
    | 0 | 1 => rfl
    | fuel + 2 => rfl

theorem instance?_bracket (fuel : Nat) (name : String) (ts : List Token) :
    instance? fuel name (.mark '[' :: ts) = (arguments? (fuel - 1) ts).map fun (args, rest) =>
      (name ++ "[" ++ ", ".intercalate args ++ "]", rest) := by
  cases fuel <;> rfl

theorem arguments?_eq_some {fuel : Nat} {ts : List Token} {r : List String × List Token} :
    arguments? fuel ts = some r ↔ ∃ t rest, type? (fuel - 1) ts = some (t, rest) ∧
      ((∃ next more after, rest = .mark ',' :: next ∧ arguments? (fuel - 1) next = some (more, after) ∧
          (t :: more, after) = r) ∨
        ∃ after, rest = .mark ']' :: after ∧ ([t], after) = r) := by
  cases fuel with
  | zero => exact ⟨nofun, nofun⟩
  | succ fuel =>
    rw [arguments?, Nat.add_sub_cancel, Option.bind_eq_bind, Option.bind_eq_some_iff, Prod.exists]
    refine exists_congr fun t => exists_congr fun rest => and_congr_right fun _ => ?_
    dsimp only
    split
    · simp
    · simp
    · rename_i hcomma hbracket
      simp only [reduceCtorEq, false_iff, not_or, not_exists, not_and]
      exact ⟨fun next _ _ h => (hcomma next h).elim, fun after h => (hbracket after h).elim⟩

theorem arraySize?_tokens {n : Numeral} (h : n.Plain) (rest : List Token) :
    arraySize? (n.tokens ++ .mark ']' :: rest) = some (n.text, rest) := by
  obtain ⟨point, digits, exponent, marked⟩ := n
  obtain ⟨rfl, rfl⟩ : point = false ∧ exponent = none := h
  simp [Numeral.tokens, Numeral.text, arraySize?]

theorem plain_of_arraySize? {n : Numeral} {rest : List Token} {r : String × List Token}
    (h : arraySize? (n.tokens ++ .mark ']' :: rest) = some r) : n.Plain := by
  obtain ⟨point, digits, exponent, marked⟩ := n
  cases point with
  | true => simp [Numeral.tokens, arraySize?] at h
  | false =>
    cases exponent with
    | none => exact ⟨rfl, rfl⟩
    | some e =>
      have hsign : e.sign ≠ ']' := by
        unfold Exponent.sign
        split <;> decide
      simp [Numeral.tokens, arraySize?, hsign] at h

/-! ### What is read is the type -/

mutual

/-- With whatever fuel something is read of the tokens of a type, it is the type. -/
theorem GoType.sound : ∀ (t : GoType) {fuel : Nat} {rest : List Token} {r : String × List Token},
    EndsName rest → type? fuel (t.tokens ++ rest) = some r → t.Plain ∧ r = (t.text, rest)
  | .name n, fuel, rest, r, hend, h => by
    rw [GoType.tokens, type?_typeName n hend.1] at h
    refine ⟨trivial, ?_⟩
    cases hfuel : fuel - 2 with
    | zero => simp [hfuel, instance?] at h
    | succ k =>
      rw [hfuel, instance?_name hend.2, Option.some.injEq] at h
      exact h.symm
  | .generic n args, fuel, rest, r, hend, h => by
    rw [GoType.tokens_generic_append, type?_typeName n (by simp), instance?_bracket] at h
    obtain ⟨⟨texts, after⟩, hargs, rfl⟩ := Option.map_eq_some_iff.mp h
    obtain ⟨hplain, heq⟩ := args.sound hargs
    obtain ⟨rfl, rfl⟩ := Prod.mk.inj heq
    exact ⟨hplain, rfl⟩
  | .pointer t, fuel, rest, r, hend, h => by
    rw [GoType.tokens_pointer_append, type?_pointer] at h
    obtain ⟨⟨text, after⟩, ht, rfl⟩ := Option.map_eq_some_iff.mp h
    obtain ⟨hplain, heq⟩ := t.sound hend ht
    obtain ⟨rfl, rfl⟩ := Prod.mk.inj heq
    exact ⟨hplain, rfl⟩
  | .slice t, fuel, rest, r, hend, h => by
    rw [GoType.tokens_slice_append, type?_bracket, arraySize?, Option.bind_some] at h
    obtain ⟨⟨text, after⟩, ht, rfl⟩ := Option.map_eq_some_iff.mp h
    obtain ⟨hplain, heq⟩ := t.sound hend ht
    obtain ⟨rfl, rfl⟩ := Prod.mk.inj heq
    exact ⟨hplain, rfl⟩
  | .array n t, fuel, rest, r, hend, h => by
    rw [GoType.tokens_array_append, type?_bracket] at h
    -- a size that is read at all is one token
    have hn : n.Plain := by
      obtain ⟨size, hsize, -⟩ := Option.bind_eq_some_iff.mp h
      exact plain_of_arraySize? hsize
    rw [arraySize?_tokens hn, Option.bind_some] at h
    obtain ⟨⟨text, after⟩, ht, rfl⟩ := Option.map_eq_some_iff.mp h
    obtain ⟨hplain, heq⟩ := t.sound hend ht
    obtain ⟨rfl, rfl⟩ := Prod.mk.inj heq
    exact ⟨⟨hn, hplain⟩, rfl⟩
  | .map k v, fuel, rest, r, hend, h => by
    rw [GoType.tokens_map_append, type?_map_eq_some] at h
    obtain ⟨key, next, value, after, hkey, hvalue, rfl⟩ := h
    obtain ⟨hk, heq⟩ := k.sound (by simp [EndsName]) hkey
    obtain ⟨rfl, hnext⟩ := Prod.mk.inj heq
    obtain ⟨-, rfl⟩ := List.cons.inj hnext
    obtain ⟨hv, heq⟩ := v.sound hend hvalue
    obtain ⟨rfl, rfl⟩ := Prod.mk.inj heq
    exact ⟨⟨hk, hv⟩, rfl⟩
  | .interface, fuel, rest, r, hend, h => by
    refine ⟨trivial, ?_⟩
    cases fuel with
    | zero => cases h
    | succ fuel =>
      rw [GoType.tokens_interface_append, type?_interface, Option.some.injEq] at h
      exact h.symm

theorem TypeArgs.sound : ∀ (args : TypeArgs) {fuel : Nat} {rest : List Token}
    {r : List String × List Token}, arguments? fuel (args.tokens ++ .mark ']' :: rest) = some r →
    args.Plain ∧ r = (args.texts, rest)
  | .last t, fuel, rest, r, h => by
    obtain ⟨text, after, ht, hafter⟩ := arguments?_eq_some.mp h
    obtain ⟨hplain, heq⟩ := t.sound (by simp [EndsName]) ht
    obtain ⟨rfl, rfl⟩ := Prod.mk.inj heq
    rcases hafter with ⟨_, _, _, hnext, -⟩ | ⟨_, hnext, rfl⟩
    · cases hnext
    · obtain ⟨-, rfl⟩ := List.cons.inj hnext
      exact ⟨hplain, rfl⟩
  | .more t args, fuel, rest, r, h => by
    rw [TypeArgs.tokens_more_append] at h
    obtain ⟨text, after, ht, hafter⟩ := arguments?_eq_some.mp h
    obtain ⟨hplain, heq⟩ := t.sound (by simp [EndsName]) ht
    obtain ⟨rfl, rfl⟩ := Prod.mk.inj heq
    rcases hafter with ⟨_, texts, _, hnext, hargs, rfl⟩ | ⟨_, hnext, -⟩
    · obtain ⟨-, rfl⟩ := List.cons.inj hnext
      obtain ⟨hrest, heq⟩ := args.sound hargs
      obtain ⟨rfl, rfl⟩ := Prod.mk.inj heq
      exact ⟨⟨hplain, hrest⟩, rfl⟩
    · cases hnext

end

/-! ### Types of plain numbers are read -/

theorem TypeName.length_tokens_pos (n : TypeName) : 0 < n.tokens.length := by
  unfold TypeName.tokens
  split <;> simp

mutual

/-- Three steps for each token are enough: a name takes three, everything else has more tokens. -/
theorem GoType.complete : ∀ (t : GoType) {fuel : Nat} {rest : List Token}, EndsName rest → t.Plain →
    3 * t.tokens.length ≤ fuel → type? fuel (t.tokens ++ rest) = some (t.text, rest)
  | .name n, fuel, rest, hend, _, hfuel => by
    have hpos := n.length_tokens_pos
    rw [GoType.tokens] at hfuel
    -- a name takes three steps, as many as one token allows
    obtain ⟨k, hk⟩ : ∃ k, fuel - 2 = k + 1 := ⟨fuel - 3, by omega⟩
    rw [GoType.tokens, type?_typeName n hend.1, hk, instance?_name hend.2, GoType.text]
  | .generic n args, fuel, rest, hend, hplain, hfuel => by
    have hpos := n.length_tokens_pos
    simp only [GoType.tokens, List.length_append, List.length_cons, List.length_nil] at hfuel
    have hargs : arguments? (fuel - 3) (args.tokens ++ .mark ']' :: rest) = some (args.texts, rest) :=
      args.complete hplain (by omega)
    rw [GoType.tokens_generic_append, type?_typeName n (by simp), instance?_bracket, Nat.sub_sub,
      hargs]
    rfl
  | .pointer t, fuel, rest, hend, hplain, hfuel => by
    simp only [GoType.tokens, List.length_cons] at hfuel
    rw [GoType.tokens_pointer_append, type?_pointer, t.complete hend hplain (by omega)]
    rfl
  | .slice t, fuel, rest, hend, hplain, hfuel => by
    simp only [GoType.tokens, List.length_cons] at hfuel
    rw [GoType.tokens_slice_append, type?_bracket, arraySize?, Option.bind_some]
    dsimp only
    rw [t.complete hend hplain (by omega)]
    rfl
  | .array n t, fuel, rest, hend, hplain, hfuel => by
    simp only [GoType.tokens, List.length_append, List.length_cons] at hfuel
    rw [GoType.tokens_array_append, type?_bracket, arraySize?_tokens hplain.1, Option.bind_some]
    dsimp only
    rw [t.complete hend hplain.2 (by omega)]
    rfl
  | .map k v, fuel, rest, hend, hplain, hfuel => by
    simp only [GoType.tokens, List.length_append, List.length_cons] at hfuel
    rw [GoType.tokens_map_append, type?_map_eq_some]
    exact ⟨_, _, _, _, k.complete (by simp [EndsName]) hplain.1 (by omega),
      v.complete hend hplain.2 (by omega), rfl⟩
  | .interface, fuel, rest, hend, _, hfuel => by
    obtain ⟨k, rfl⟩ : ∃ k, fuel = k + 1 := ⟨fuel - 1, by simp [GoType.tokens] at hfuel; omega⟩
    exact type?_interface k rest

theorem TypeArgs.complete : ∀ (args : TypeArgs) {fuel : Nat} {rest : List Token}, args.Plain →
    3 * args.tokens.length + 1 ≤ fuel →
    arguments? fuel (args.tokens ++ .mark ']' :: rest) = some (args.texts, rest)
  | .last t, fuel, rest, hplain, hfuel => by
    rw [TypeArgs.tokens] at hfuel ⊢
    exact arguments?_eq_some.mpr
      ⟨_, _, t.complete (by simp [EndsName]) hplain (by omega), .inr ⟨_, rfl, rfl⟩⟩
  | .more t args, fuel, rest, hplain, hfuel => by
    simp only [TypeArgs.tokens, List.length_append, List.length_cons] at hfuel
    rw [TypeArgs.tokens_more_append]
    exact arguments?_eq_some.mpr ⟨_, _, t.complete (by simp [EndsName]) hplain.1 (by omega),
      .inl ⟨_, _, _, rfl, args.complete hplain.2 (by omega), rfl⟩⟩

end

/-! ### The text of the tokens is the type -/

theorem spell_mark {c : Char} (h : c ∉ [',', ';', ')']) (w : Bool) (rest : List Token) :
    spell w (.mark c :: rest) = c :: spell false rest := by
  simp only [List.mem_cons, List.not_mem_nil, or_false, not_or] at h
  simp [spell, Token.isWord, Token.text, h]

theorem spell_comma (w : Bool) (rest : List Token) :
    spell w (.mark ',' :: rest) = ',' :: ' ' :: spell false rest := by
  simp [spell, Token.isWord, Token.text]

theorem spell_ident (name : String) (rest : List Token) :
    spell false (.ident name :: rest) = name.toList ++ spell true rest := by
  simp [spell, Token.isWord, Token.text]

theorem spell_literal (text : String) (rest : List Token) :
    spell false (.literal text :: rest) = text.toList ++ spell true rest := by
  simp [spell, Token.isWord, Token.text]

/-- No word follows, so that no space is needed. -/
def EndsWord (rest : List Token) : Prop := ∀ u ∈ rest.head?, u.isWord = false

theorem EndsWord.mark (c : Char) (rest : List Token) : EndsWord (.mark c :: rest) := by
  simp [EndsWord, Token.isWord]

theorem spell_of_endsWord {rest : List Token} (h : EndsWord rest) (w : Bool) :
    spell w rest = spell false rest := by
  cases rest with
  | nil => rfl
  | cons u rest => simp [spell, h u rfl]

theorem TypeName.spell_tokens (n : TypeName) {rest : List Token} (h : EndsWord rest) :
    spell false (n.tokens ++ rest) = n.text.toList ++ spell false rest := by
  obtain ⟨_ | p, x⟩ := n
  · simp [TypeName.tokens, TypeName.text, spell_ident, spell_of_endsWord h]
  · simp [TypeName.tokens, TypeName.text, spell_ident, spell_of_endsWord h, spell_mark]

theorem Numeral.spell_tokens (n : Numeral) {rest : List Token} (h : EndsWord rest) :
    spell false (n.tokens ++ rest) = n.text.toList ++ spell false rest := by
  obtain ⟨point, digits, exponent, marked⟩ := n
  cases exponent with
  | none => cases point <;>
      simp [Numeral.tokens, Numeral.text, spell_literal, spell_of_endsWord h, spell_mark]
  | some e =>
    have hsign : e.sign ∉ [',', ';', ')'] := by
      unfold Exponent.sign
      split <;> decide
    cases point <;> simp [Numeral.tokens, Numeral.text, spell_literal, spell_of_endsWord h,
      spell_mark, spell_mark hsign]

mutual

/-- No two words meet within a type, so that its tokens give its text without spaces. -/
theorem GoType.spell_tokens : ∀ (t : GoType) {rest : List Token}, EndsWord rest →
    spell false (t.tokens ++ rest) = t.text.toList ++ spell false rest
  | .name n, rest, h => n.spell_tokens h
  | .generic n args, rest, h => by
    rw [GoType.tokens_generic_append, n.spell_tokens (.mark _ _), spell_mark (by decide),
      args.spell_tokens]
    simp [GoType.text]
  | .pointer t, rest, h => by
    rw [GoType.tokens_pointer_append, spell_mark (by decide), t.spell_tokens h]
    simp [GoType.text]
  | .slice t, rest, h => by
    rw [GoType.tokens_slice_append, spell_mark (by decide), spell_mark (by decide), t.spell_tokens h]
    simp [GoType.text]
  | .array n t, rest, h => by
    rw [GoType.tokens_array_append, spell_mark (by decide), n.spell_tokens (.mark _ _),
      spell_mark (by decide), t.spell_tokens h]
    simp [GoType.text]
  | .map k v, rest, h => by
    rw [GoType.tokens_map_append, spell_ident, spell_mark (by decide), k.spell_tokens (.mark _ _),
      spell_mark (by decide), v.spell_tokens h]
    simp [GoType.text]
  | .interface, rest, h => by
    rw [GoType.tokens_interface_append, spell_ident, spell_mark (by decide), spell_mark (by decide)]
    simp [GoType.text]

theorem TypeArgs.spell_tokens : ∀ (args : TypeArgs) {rest : List Token},
    spell false (args.tokens ++ .mark ']' :: rest)
      = (", ".intercalate args.texts).toList ++ ']' :: spell false rest
  | .last t, rest => by
    rw [TypeArgs.tokens, t.spell_tokens (.mark _ _), spell_mark (by decide)]
    simp [TypeArgs.texts]
  | .more t args, rest => by
    have hmore : args.texts ≠ [] := by cases args <;> simp [TypeArgs.texts]
    obtain ⟨second, more, hsecond⟩ := List.exists_cons_of_ne_nil hmore
    rw [TypeArgs.tokens_more_append, t.spell_tokens (.mark _ _), spell_comma, args.spell_tokens]
    simp [TypeArgs.texts, hsecond, String.intercalate_cons_cons]

end

/-- The text ends with a character that is no blank. -/
def EndsVisibly (s : String) : Prop := ∃ c ∈ s.toList.getLast?, Text.isBlank c = false

theorem EndsVisibly.append {s : String} (h : EndsVisibly s) (before : String) :
    EndsVisibly (before ++ s) := by
  obtain ⟨c, hc, hblank⟩ := h
  refine ⟨c, ?_, hblank⟩
  rw [Option.mem_def] at hc ⊢
  rw [String.toList_append, List.getLast?_append, hc, Option.some_or]

theorem EndsVisibly.dropWhileEnd {s : String} (h : EndsVisibly s) :
    Text.dropWhileEnd Text.isBlank s = s := by
  obtain ⟨c, hc, hblank⟩ := h
  obtain ⟨before, hs⟩ := List.getLast?_eq_some_iff.mp hc
  rw [Text.dropWhileEnd, hs, List.reverse_append, List.reverse_singleton, List.singleton_append,
    List.dropWhile_cons_of_neg (by simp [hblank]), List.reverse_cons, List.reverse_reverse, ← hs,
    String.ofList_toList]

theorem isBlank_of_isIdentPart {c : Char} (h : isIdentPart c = true) : Text.isBlank c = false := by
  by_contra hb
  have hletter := Text.isAlphanumeric_of_isBlank (eq_true_of_ne_false hb)
  rw [isIdentPart, hletter, Bool.false_or, beq_iff_eq] at h
  subst h
  exact hb rfl

theorem Identifier.endsVisibly (x : Identifier) : EndsVisibly x.text := by
  refine ⟨_, List.getLast?_eq_some_getLast (by simp [Identifier.text]), ?_⟩
  have hmem := List.getLast_mem (l := x.first :: x.more) (by simp)
  simp only [Identifier.text, String.toList_ofList]
  rcases List.mem_cons.mp hmem with hfirst | hmore
  · rw [hfirst]
    exact isBlank_of_isIdentStart x.start
  · exact isBlank_of_isIdentPart (List.all_eq_true.mp x.part _ hmore)

theorem TypeName.endsVisibly (n : TypeName) : EndsVisibly n.text := by
  obtain ⟨_ | p, x⟩ := n
  · exact x.endsVisibly
  · exact x.endsVisibly.append _

theorem GoType.endsVisibly : ∀ t : GoType, EndsVisibly t.text
  | .name n => n.endsVisibly
  | .generic _ _ => EndsVisibly.append (s := "]") ⟨']', rfl, rfl⟩ _
  | .pointer t => t.endsVisibly.append _
  | .slice t => t.endsVisibly.append _
  | .array _ t => t.endsVisibly.append _
  | .map _ v => v.endsVisibly.append _
  | .interface => ⟨'\x7d', rfl, rfl⟩

/-! ### Types of parameters -/

/-- The type of a parameter, which may be variadic. -/
structure ParamType where
  variadic : Bool
  type : GoType

namespace ParamType

def tokens (p : ParamType) : List Token := (if p.variadic then [.ellipsis] else []) ++ p.type.tokens

def text (p : ParamType) : String := (if p.variadic then "..." else "") ++ p.type.text

theorem wholeType?_tokens {p : ParamType} (h : p.type.Plain) : wholeType? p.tokens = some p.text := by
  have hend : EndsName [] := by simp [EndsName]
  obtain ⟨_ | _, t⟩ := p
  · have ht : type? (3 * t.tokens.length + 3) (t.tokens ++ []) = some (t.text, []) :=
      t.complete hend h (by omega)
    rw [List.append_nil] at ht
    simp [wholeType?, tokens, text, ht]
  · have ht : type? (3 * (t.tokens.length + 1) + 3 - 1) (t.tokens ++ []) = some (t.text, []) :=
      t.complete hend h (by omega)
    rw [List.append_nil] at ht
    simp only [wholeType?, tokens, text, if_true, List.singleton_append, List.length_cons,
      type?_ellipsis, ht, Option.map_some]

theorem wholeType?_eq_none {p : ParamType} (h : ¬ p.type.Plain) : wholeType? p.tokens = none := by
  have hend : EndsName [] := by simp [EndsName]
  have hnone : ∀ fuel, type? fuel p.type.tokens = none := by
    intro fuel
    by_contra hsome
    obtain ⟨r, hr⟩ := Option.ne_none_iff_exists'.mp hsome
    rw [← List.append_nil p.type.tokens] at hr
    exact h (p.type.sound hend hr).1
  obtain ⟨_ | _, t⟩ := p
  · simp only [wholeType?, tokens, List.nil_append, hnone, Bool.false_eq_true, if_false]
  · simp only [wholeType?, tokens, if_true, List.singleton_append, type?_ellipsis, hnone,
      Option.map_none]

theorem spell_tokens (p : ParamType) : spell false p.tokens = p.text.toList := by
  have hend : EndsWord [] := by simp [EndsWord]
  have ht := p.type.spell_tokens hend
  rw [List.append_nil, spell, List.append_nil] at ht
  obtain ⟨_ | _, t⟩ := p
  · simpa [tokens, text] using ht
  · simpa [tokens, text, spell, Token.isWord, Token.text] using ht

theorem tokenText_tokens (p : ParamType) : tokenText p.tokens = p.text := by
  rw [tokenText, p.spell_tokens, String.ofList_toList]
  exact (p.type.endsVisibly.append _).dropWhileEnd

/-- Whether it is read as a type or kept as tokens, the text of a type is the same. -/
theorem typeText_tokens (p : ParamType) : typeText p.tokens = p.text := by
  by_cases h : p.type.Plain
  · rw [typeText, wholeType?_tokens h, Option.getD_some]
  · rw [typeText, wholeType?_eq_none h, Option.getD_none, tokenText_tokens]

end ParamType

end ApiScaffold.Code
