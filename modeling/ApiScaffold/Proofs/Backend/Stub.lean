import ApiScaffold.Backend.Handlers
import ApiScaffold.Proofs.Backend.Page
import ApiScaffold.Proofs.Code.Constructor
import ApiScaffold.Proofs.Model.Valid
import ApiScaffold.Proofs.Name.Casing
import ApiScaffold.Wiring.Handler

/-!
# Drafts as source code

The draft of a handler, line by line as tokens up to the end of its constructor.  Where the id of the
operation is plain and the path of the module has no quote and no backslash, the constructor is found in
the draft, and it has no parameters (`constructor?_stubFile`).
-/

namespace ApiScaffold

namespace Code

/-! ### Lines of source code -/

/-- The tokens of a line, its end counted. -/
def SpellsLine (ts : List Token) (line : String) : Prop :=
  ∀ tail, Spells tail ts (line.toList ++ '\n' :: tail)

theorem spells_lines {lines : List (List Token × String)}
    (h : ∀ l ∈ lines, SpellsLine l.1 l.2) (tail : List Char) :
    Spells tail (lines.flatMap Prod.fst)
      (lines.flatMap (fun l => l.2.toList ++ "\n".toList) ++ tail) := by
  induction lines with
  | nil => exact .done
  | cons l lines ih =>
    rw [List.flatMap_cons, List.flatMap_cons, List.append_assoc, List.append_assoc]
    exact (h l List.mem_cons_self _).append (ih fun l hl => h l (List.mem_cons_of_mem _ hl))

theorem spellsLine_nil : SpellsLine [] "" := fun tail =>
  show Spells tail [] (['\n'] ++ tail) from .trivia (.blank rfl) .done

theorem spellsLine_comment {line : String} {text : List Char} (h : line.toList = '/' :: '/' :: text)
    (hline : '\n' ∉ text) : SpellsLine [] line := by
  intro tail
  have hspells : Spells tail [] (('/' :: '/' :: text ++ ['\n']) ++ tail) := .trivia (.line hline) .done
  rw [h]
  simpa using hspells

theorem quoted_of_notMem {quote : Char} {body : List Char} (hquote : quote ∉ body)
    (hbackslash : '\\' ∉ body) : Quoted quote body := by
  induction body with
  | nil => exact .nil
  | cons c body ih =>
    refine .plain (fun e => hbackslash (by simp [e])) (fun e => hquote (by simp [e])) ?_
    exact ih (fun e => hquote (.tail _ e)) fun e => hbackslash (.tail _ e)

def importToken (i : String) : Token := .literal (String.ofList ('"' :: (i.toList ++ ['"'])))

theorem spellsLine_import {i : String} (hquote : '"' ∉ i.toList) (hbackslash : '\\' ∉ i.toList) :
    SpellsLine [importToken i] ("\t\"" ++ i ++ "\"") := by
  intro tail
  have hend : Spells tail [] (['\n'] ++ tail) := .trivia (.blank rfl) .done
  have hline := Spells.trivia (.blank (c := '\t') rfl)
    (.token (.quoted (.inl rfl) (quoted_of_notMem hquote hbackslash)) hend)
  simpa [importToken, Token.text] using hline

/-! ### Words of letters and digits -/

theorem isIdentPart_of_isAlphanum {c : Char} (h : c.isAlphanum = true) : isIdentPart c = true :=
  Text.of_isAlphanum (P := fun c => isIdentPart c = true) (by decide +kernel) h

theorem isNumberPart_of_isAlphanum {c : Char} (h : c.isAlphanum = true) : isNumberPart c = true :=
  Text.of_isAlphanum (P := fun c => isNumberPart c = true) (by decide +kernel) h

theorem isIdentStart_of_isAlphanum {c : Char} (h : c.isAlphanum = true)
    (hdigit : c.isDigit = false) : isIdentStart c = true :=
  Text.of_isAlphanum (P := fun c => c.isDigit = false → isIdentStart c = true) (by decide +kernel) h
    hdigit

/-- What a word of letters and digits is read as: a number if it opens with a digit. -/
def wordToken (w : List Char) : Token :=
  if w.head?.any Char.isDigit then .literal (String.ofList w) else .ident (String.ofList w)

theorem Spells.alphanum {tail text : List Char} {ts : List Token} {w : List Char}
    (h : Text.IsAlphanum w) (hne : w ≠ []) (rest : Spells tail ts (' ' :: text)) :
    Spells tail (wordToken w :: ts) (w ++ ' ' :: text) := by
  obtain ⟨c, more, rfl⟩ := List.exists_cons_of_ne_nil hne
  have hc := h c List.mem_cons_self
  have hmore : ∀ d ∈ more, d.isAlphanum = true := fun d hd => h d (List.mem_cons_of_mem _ hd)
  rw [wordToken, List.head?_cons, Option.any_some]
  cases hdigit : c.isDigit with
  | true =>
    have hword := Spells.token (.number hdigit (fun d hd => isNumberPart_of_isAlphanum (hmore d hd))
      (by simp; rfl)) rest
    rwa [Token.text, String.toList_ofList] at hword
  | false =>
    have hword := Spells.token (.ident (isIdentStart_of_isAlphanum hc hdigit)
      (fun d hd => isIdentPart_of_isAlphanum (hmore d hd)) (by simp; rfl)) rest
    rwa [Token.text, String.toList_ofList] at hword

/-! ### What stands before a constructor -/

/-- Neither a brace nor the word that opens a function. -/
def Token.IsInert (t : Token) : Prop := t ≠ .mark '\x7b' ∧ t ≠ .mark '\x7d' ∧ t ≠ .ident "func"

instance (t : Token) : Decidable t.IsInert := inferInstanceAs (Decidable (_ ∧ _ ∧ _))

theorem Before.append {name : String} {ts rest : List Token} (h : ∀ t ∈ ts, t.IsInert)
    (hrest : Before name rest) : Before name (ts ++ rest) := by
  induction ts with
  | nil => exact hrest
  | cons t ts ih =>
    obtain ⟨hopening, hclosing, hfunc⟩ := h t List.mem_cons_self
    exact .token hopening hclosing (fun e => absurd e hfunc)
      (ih fun u hu => h u (List.mem_cons_of_mem _ hu))

theorem isInert_importToken (i : String) : (importToken i).IsInert :=
  ⟨nofun, nofun, nofun⟩

theorem isInert_wordToken {w : List Char} (h : w ≠ "func".toList) : (wordToken w).IsInert := by
  unfold wordToken
  split
  · exact ⟨nofun, nofun, nofun⟩
  · refine ⟨nofun, nofun, fun e => h ?_⟩
    rw [← String.toList_ofList (l := w), Token.ident.inj e]

end Code

namespace Backend

open Code

/-! ### The lines of a draft -/

/-- The lines of a draft before its constructor, with their tokens. -/
def draftFront (imports : List String) (name operation : String) : List (List Token × String) :=
  [([.ident "package", .ident "handlers"], "package handlers"), ([], ""),
    ([.ident "import", .mark '('], "import (")]
  ++ imports.map (fun i => ([importToken i], "\t\"" ++ i ++ "\""))
  ++ [([.mark ')'], ")"), ([], ""),
    ([], s!"// {name}HandlerImpl implements {name}Handler."), ([], "//"),
    ([], "// This file is yours: it is created once and never overwritten. Constructor"),
    ([], "// parameters are wired by the generated bootstrap code."),
    ([.ident "type", wordToken (name.toList ++ "HandlerImpl".toList), .ident "struct",
      .mark '\x7b', .mark '\x7d'], s!"type {name}HandlerImpl struct\x7b\x7d"),
    ([], ""), ([], s!"// New{name}Handler creates the {operation} handler.")]

def constructorLine (name : String) : String :=
  s!"func New{name}Handler() *{name}HandlerImpl \x7b"

def draftImports (module : String) (op : Operation) : List String :=
  ["context", "errors"] ++ importsFor [returns op] ++ modelImport module [returns op]

theorem exists_stubFile (module : String) (op : Operation) : ∃ rest, stubFile module op
    = page ((draftFront (draftImports module op) (Name.pascal op.id) op.id).map Prod.snd
      ++ constructorLine (Name.pascal op.id) :: rest) := by
  apply Exists.intro
  unfold stubFile draftImports
  simp only [draftFront, importLines, List.map_append, List.map_cons, List.map_map, List.map_nil,
    List.append_assoc, List.cons_append, List.nil_append, Function.comp_def]
  rfl

/-- The packages of the standard library and of the models are imported as they are. -/
theorem notMem_draftImports {module : String} {c : Char} (op : Operation)
    (hmodule : c ∉ module.toList)
    (hc : ∀ i ∈ ["context", "errors", "/models"] ++ packagesByType.map Prod.snd, c ∉ i.toList) :
    ∀ i ∈ draftImports module op, c ∉ i.toList := by
  intro i hi
  rcases List.mem_append.mp hi with hi | hi
  · rcases List.mem_append.mp hi with hi | hi
    · exact hc i (List.mem_append_left _ (List.mem_append_left ["/models"] hi))
    · rw [importsFor, Keyed.mem_keysOfList] at hi
      obtain ⟨p, hp, rfl⟩ := List.mem_map.mp hi
      exact hc p.2 (List.mem_append_right _ (List.mem_map_of_mem (List.mem_filter.mp hp).1))
  · unfold modelImport at hi
    split at hi
    · rw [List.mem_singleton.mp hi, String.toList_append, List.mem_append]
      exact not_or.mpr ⟨hmodule, hc "/models" (by simp)⟩
    · cases hi

/-! ### The lines are tokens -/

theorem spellsLine_package : SpellsLine [.ident "package", .ident "handlers"] "package handlers" :=
  fun tail => .word 'p' "ackage".toList (d := ' ') rfl rfl rfl
    (.space (.word 'h' "andlers".toList (d := '\n') rfl rfl rfl (spellsLine_nil tail)))

theorem spellsLine_importOpening : SpellsLine [.ident "import", .mark '('] "import (" :=
  fun tail => .word 'i' "mport".toList (d := ' ') rfl rfl rfl
    (.space (.mark rfl (spellsLine_nil tail)))

theorem spellsLine_importClosing : SpellsLine [.mark ')'] ")" :=
  fun tail => .mark rfl (spellsLine_nil tail)

section Draft

variable {name operation : String} {imports : List String}

theorem spellsLine_type (hname : Text.IsAlphanum name.toList) :
    SpellsLine [.ident "type", wordToken (name.toList ++ "HandlerImpl".toList), .ident "struct",
      .mark '\x7b', .mark '\x7d'] s!"type {name}HandlerImpl struct\x7b\x7d" := by
  intro tail
  have hback : Spells tail [.ident "struct", .mark '\x7b', .mark '\x7d']
      ("struct\x7b\x7d".toList ++ '\n' :: tail) :=
    .word 's' "truct".toList (d := '\x7b') rfl rfl rfl (.mark rfl (.mark rfl (spellsLine_nil tail)))
  have hword : Text.IsAlphanum (name.toList ++ "HandlerImpl".toList) :=
    List.forall_mem_append.mpr ⟨hname, List.all_eq_true.mp (by decide)⟩
  have hline := Spells.word 't' "ype".toList (d := ' ') rfl rfl rfl
    (.space (.alphanum hword (by simp) (.space hback)))
  simpa [toString] using hline

theorem newline_notMem_of_isAlphanum {s : List Char} (h : Text.IsAlphanum s) : '\n' ∉ s :=
  fun hmem => absurd (h _ hmem) (by decide)

/-- The comments name the handler and its operation. -/
theorem spellsLine_implements (hname : Text.IsAlphanum name.toList) :
    SpellsLine [] s!"// {name}HandlerImpl implements {name}Handler." := by
  have hplain := newline_notMem_of_isAlphanum hname
  have htext : s!"// {name}HandlerImpl implements {name}Handler.".toList = '/' :: '/' ::
      (" ".toList ++ name.toList ++ "HandlerImpl implements ".toList ++ name.toList
        ++ "Handler.".toList) := by
    simp [toString]
  exact spellsLine_comment htext (by simp [hplain])

theorem spellsLine_creates (hname : Text.IsAlphanum name.toList)
    (hoperation : '\n' ∉ operation.toList) :
    SpellsLine [] s!"// New{name}Handler creates the {operation} handler." := by
  have hplain := newline_notMem_of_isAlphanum hname
  have htext : s!"// New{name}Handler creates the {operation} handler.".toList = '/' :: '/' ::
      (" New".toList ++ name.toList ++ "Handler creates the ".toList ++ operation.toList
        ++ " handler.".toList) := by
    simp [toString]
  exact spellsLine_comment htext (by simp [hplain, hoperation])

theorem spellsLine_draftFront (hname : Text.IsAlphanum name.toList)
    (hoperation : '\n' ∉ operation.toList)
    (hquote : ∀ i ∈ imports, '"' ∉ i.toList) (hbackslash : ∀ i ∈ imports, '\\' ∉ i.toList) :
    ∀ l ∈ draftFront imports name operation, SpellsLine l.1 l.2 := by
  refine List.forall_mem_append.mpr ⟨List.forall_mem_append.mpr ⟨?package, ?imports⟩, ?type⟩
  case package =>
    simp only [List.forall_mem_cons]
    exact ⟨spellsLine_package, spellsLine_nil, spellsLine_importOpening, nofun⟩
  case imports =>
    rw [List.forall_mem_map]
    exact fun i hi => spellsLine_import (hquote i hi) (hbackslash i hi)
  case type =>
    simp only [List.forall_mem_cons]
    exact ⟨spellsLine_importClosing, spellsLine_nil, spellsLine_implements hname,
      spellsLine_comment rfl (by decide), spellsLine_comment rfl (by decide),
      spellsLine_comment rfl (by decide), spellsLine_type hname, spellsLine_nil,
      spellsLine_creates hname hoperation, nofun⟩

/-! ### The constructor of a draft -/

theorem isIdentStart_new : isIdentStart 'N' = true := rfl

theorem isIdentPart_constructor (hname : Text.IsAlphanum name.toList) :
    ("ew".toList ++ (name.toList ++ "Handler".toList)).all isIdentPart = true := by
  have hhandler : Text.IsAlphanum "Handler".toList := by decide
  simp only [List.all_append, Bool.and_eq_true, List.all_eq_true]
  exact ⟨List.all_eq_true.mp (by decide), fun c hc => isIdentPart_of_isAlphanum (hname c hc),
    fun c hc => isIdentPart_of_isAlphanum (hhandler c hc)⟩

/-- No keyword begins as a constructor does. -/
theorem notMem_reservedWords_new (more : List Char) :
    String.ofList ('N' :: more) ∉ Name.reservedWords := by
  intro hmem
  have hfirst : ∀ w ∈ Name.reservedWords, w.toList.head? ≠ some 'N' := by decide
  exact hfirst _ hmem (by rw [String.toList_ofList, List.head?_cons])

def constructorIdentifier (name : String) (hname : Text.IsAlphanum name.toList) : Identifier where
  first := 'N'
  more := "ew".toList ++ (name.toList ++ "Handler".toList)
  start := isIdentStart_new
  part := isIdentPart_constructor hname
  free := notMem_reservedWords_new _

theorem text_constructorIdentifier (hname : Text.IsAlphanum name.toList) :
    (constructorIdentifier name hname).text = "New" ++ name ++ "Handler" := by
  rw [← String.toList_inj]
  simp [Identifier.text, constructorIdentifier]

theorem before_draftFront (constructor : String) :
    Before constructor ((draftFront imports name operation).flatMap Prod.fst) := by
  have htokens : (draftFront imports name operation).flatMap Prod.fst
      = ([.ident "package", .ident "handlers", .ident "import", .mark '(']
        ++ (imports.map importToken ++ [.mark ')', .ident "type",
          wordToken (name.toList ++ "HandlerImpl".toList), .ident "struct"]))
        ++ [.mark '\x7b', .mark '\x7d'] := by
    rw [List.map_eq_flatMap]
    simp [draftFront, List.flatMap_map]
  have hword : (wordToken (name.toList ++ "HandlerImpl".toList)).IsInert := by
    refine isInert_wordToken fun h => ?_
    have hlength := congrArg List.length h
    simp at hlength
  rw [htokens]
  refine .append ?_ (.braces .nil .nil)
  refine List.forall_mem_append.mpr ⟨by decide, List.forall_mem_append.mpr ⟨?_, ?_⟩⟩
  · rw [List.forall_mem_map]
    exact fun i _ => isInert_importToken i
  · simp only [List.forall_mem_cons]
    exact ⟨by decide, by decide, hword, by decide, nofun⟩

theorem balanced_none : ∀ ts ∈ (none : Option (List Token)), Balanced '[' ']' ts := nofun

/-- The source of a draft up to the end of its constructor. -/
def draftSignature (imports : List String) (operation : String)
    (hname : Text.IsAlphanum name.toList) : Code.Signature where
  before := (draftFront imports name operation).flatMap Prod.fst
  name := constructorIdentifier name hname
  typeParams := none
  list := .unnamed []
  trailing := false
  first := before_draftFront _
  balanced := balanced_none

theorem spells_constructorLine (hname : Text.IsAlphanum name.toList) (more : List Char) :
    Spells (s!" *{name}HandlerImpl \x7b".toList ++ more)
      [.ident "func", .ident (constructorIdentifier name hname).text, .mark '(', .mark ')']
      ((constructorLine name).toList ++ more) := by
  have hparens : Spells (s!" *{name}HandlerImpl \x7b".toList ++ more) [.mark '(', .mark ')']
      ('(' :: ')' :: (s!" *{name}HandlerImpl \x7b".toList ++ more)) :=
    .mark rfl (.mark rfl .done)
  have hline := Spells.word 'f' "unc".toList (d := ' ') rfl rfl rfl
    (.space (.word 'N' (constructorIdentifier name hname).more (d := '(') rfl
      (constructorIdentifier name hname).part rfl hparens))
  simpa [constructorLine, constructorIdentifier, Identifier.text, toString] using hline

end Draft

variable {module : String} {op : Operation}

/-- **A draft has the constructor that is looked for**, and it takes nothing. -/
theorem constructor?_stubFile (hid : Name.IsPlain op.id.toList) (hquote : '"' ∉ module.toList)
    (hbackslash : '\\' ∉ module.toList) :
    constructor? (stubFile module op) (Wiring.Handler.constructorName op.id) = some [] := by
  have hname : Text.IsAlphanum (Name.pascal op.id).toList := by
    rw [Name.pascal, String.toList_ofList]
    exact hid.isAlphanum_pascalChars
  have himports := spellsLine_draftFront hname hid.newline_notMem
    (notMem_draftImports op hquote (by decide)) (notMem_draftImports op hbackslash (by decide))
  let signature := draftSignature (draftImports module op) op.id hname
  obtain ⟨rest, hstub⟩ := exists_stubFile module op
  obtain ⟨more, hmore⟩ := exists_pageChars
    ((draftFront (draftImports module op) (Name.pascal op.id) op.id).map Prod.snd)
    (constructorLine (Name.pascal op.id)) rest
  have hspells : Spells (s!" *{Name.pascal op.id}HandlerImpl \x7b".toList ++ more) signature.tokens
      (stubFile module op).toList := by
    rw [hstub, toList_page, hmore, List.flatMap_map]
    exact (spells_lines himports _).append (spells_constructorLine hname more)
  have hread := constructor?_of_spells signature hspells
  rw [show signature.name.text = _ from text_constructorIdentifier hname] at hread
  exact hread

end Backend
end ApiScaffold
