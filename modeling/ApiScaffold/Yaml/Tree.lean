import ApiScaffold.Yaml.Token

/-!
# Trees of tokens

`Tree.ofTokens?` reads the one document of a list of tokens.  Aliases stay what they are: they carry
the number of an anchor, and the anchors are known only when the document has been read.
-/

namespace ApiScaffold.Yaml

/-- What may stand before a node; `mark` numbers the nodes that are anchored. -/
structure Properties where
  tag : Option String := none
  mark : Option Nat := none

inductive Tree where
  | alias (anchor : Nat)
  | scalar (properties : Properties) (text : String) (plain : Bool)
  | list (properties : Properties) (items : List Tree)
  | map (properties : Properties) (entries : List (Tree × Tree))

namespace Tree

/-- A node that is not written. -/
def absent : Tree := .scalar {} "" true

def properties : Tree → Properties
  | .alias _ => {}
  | scalar p _ _ => p
  | list p _ => p
  | map p _ => p

mutual

/-- How many parts a tree is told in: collections have a start and an end. -/
def size : Tree → Nat
  | .alias _ => 1
  | scalar _ _ _ => 1
  | list _ items => 2 + itemsSize items
  | map _ entries => 2 + entriesSize entries

def itemsSize : List Tree → Nat
  | [] => 0
  | t :: rest => t.size + itemsSize rest

def entriesSize : List (Tree × Tree) → Nat
  | [] => 0
  | (key, value) :: rest => key.size + value.size + entriesSize rest

end

mutual

/-- The trees below a tree, itself among them, by the number of their mark. -/
def marked : Tree → List (Nat × Tree)
  | .alias _ => []
  | scalar p text plain => (p.mark.map (·, .scalar p text plain)).toList
  | list p items => (p.mark.map (·, .list p items)).toList ++ itemsMarked items
  | map p entries => (p.mark.map (·, .map p entries)).toList ++ entriesMarked entries

def itemsMarked : List Tree → List (Nat × Tree)
  | [] => []
  | t :: rest => t.marked ++ itemsMarked rest

def entriesMarked : List (Tree × Tree) → List (Nat × Tree)
  | [] => []
  | (key, value) :: rest => key.marked ++ value.marked ++ entriesMarked rest

end

end Tree

/-- What has been read of a list of tokens.  An anchor is numbered by how many names there were before
it, so that a name given twice shares its number with the next new name. -/
structure Reading where
  rest : List Token
  /-- What the handles of tags stand for. -/
  handles : List (String × String) := []
  names : List (String × Nat) := []
  /-- The marks of the anchors; the last one of a number counts. -/
  targets : List (Nat × Nat) := []
  marks : Nat := 0

/-- Reading from tokens, which may fail. -/
abbrev Reader := StateT Reading Option

namespace Reader

def peek : Reader (Option Token) := return (← get).rest.head?

def skip : Reader Unit := modify fun r => { r with rest := r.rest.drop 1 }

def nextIs (ts : List Token) : Reader Bool := return (← peek).any ts.contains

/-- Skips a token, if it comes next. -/
def skipIf (t : Token) : Reader Bool := do
  if ← nextIs [t] then skip; return true
  return false

/-- A name is anchored to the next mark. -/
def anchored (name : String) : Reader Nat := do
  let r ← get
  let number := r.names.length
  set { r with
    names := (name, number) :: r.names.filter (·.1 != name)
    targets := (number, r.marks) :: r.targets
    marks := r.marks + 1 }
  return r.marks

/-- The tag that a handle and a name stand for. -/
def tagOf (handle suffix : String) : Reader String := do
  if handle.isEmpty then return suffix
  return (← (← get).handles.lookup handle) ++ suffix

/-- Tag and anchor, in either order. -/
def properties : Reader (Option (Option String × Option String)) := do
  match ← peek with
  | some (.anchor name) =>
    skip
    match ← peek with
    | some (.tag handle suffix) => skip; return some (some (← tagOf handle suffix), some name)
    | _ => return some (none, some name)
  | some (.tag handle suffix) =>
    skip
    match ← peek with
    | some (.anchor name) => skip; return some (some (← tagOf handle suffix), some name)
    | _ => return some (some (← tagOf handle suffix), none)
  | _ => return none

/-- The properties of a node that begins here. -/
def begin (given : Option (Option String × Option String)) : Reader Properties := do
  let (tag, name) := given.getD (none, none)
  match name with
  | none => return { tag }
  | some name => return { tag, mark := some (← anchored name) }

/-- The tags of scalars that say nothing. -/
def scalarTag (tag : Option String) : Option String := tag.filter (· != "!")

/-- A node of which only properties are written. -/
def unwritten (given : Option (Option String × Option String)) : Reader Tree := do
  match given with
  | none => failure
  | some _ => return .scalar (← begin given) "" true

mutual

/-- A node; `inBlock` nodes may be blocks, and `loose` ones lists that are no further in. -/
def node : (bound : Nat) → (inBlock loose : Bool) → Reader Tree
  | 0, _, _ => failure
  | bound + 1, inBlock, loose => do
    if let some (.alias name) ← peek then
      skip
      return .alias (← (← get).names.lookup name)
    let given ← properties
    let next ← peek
    match next with
    | some (.scalar text plain) =>
      let p ← begin (given.map fun g => (scalarTag g.1, g.2))
      skip
      return .scalar p text plain
    | some .entry =>
      if loose then return .list (← begin given) (← looseItems bound)
      else unwritten given
    | some .flowListStart =>
      let p ← begin given
      skip
      return .list p (← flowItems bound true)
    | some .flowMapStart =>
      let p ← begin given
      skip
      return .map p (← flowEntries bound true)
    | some .blockListStart =>
      if inBlock then
        let p ← begin given
        skip
        return .list p (← blockItems bound)
      else unwritten given
    | some .blockMapStart =>
      if inBlock then
        let p ← begin given
        skip
        return .map p (← blockEntries bound)
      else unwritten given
    | _ => unwritten given

/-- A node, unless one of some tokens comes next. -/
def optional : (bound : Nat) → (inBlock loose : Bool) → (ends : List Token) → Reader Tree
  | 0, _, _, _ => failure
  | bound + 1, inBlock, loose, ends => do
    if ← nextIs ends then return .absent else node bound inBlock loose

/-- The items of a list whose dashes stand no further in than the key before it. -/
def looseItems : (bound : Nat) → Reader (List Tree)
  | 0 => failure
  | bound + 1 => do
    if ← skipIf .entry then
      let item ← optional bound true false [.entry, .key, .value, .blockEnd]
      return item :: (← looseItems bound)
    return []

def blockItems : (bound : Nat) → Reader (List Tree)
  | 0 => failure
  | bound + 1 => do
    if ← skipIf .entry then
      let item ← optional bound true false [.entry, .blockEnd]
      return item :: (← blockItems bound)
    if ← skipIf .blockEnd then return []
    failure

/-- The value of an entry whose key has been read. -/
def valueAfterKey : (bound : Nat) → (inBlock : Bool) → (ends : List Token) → Reader Tree
  | 0, _, _ => failure
  | bound + 1, inBlock, ends => do
    if ← skipIf .value then optional bound inBlock inBlock ends else return .absent

def blockEntries : (bound : Nat) → Reader (List (Tree × Tree))
  | 0 => failure
  | bound + 1 => do
    if ← skipIf .key then
      let ends := [Token.key, .value, .blockEnd]
      let key ← optional bound true true ends
      let value ← valueAfterKey bound true ends
      return (key, value) :: (← blockEntries bound)
    if ← skipIf .blockEnd then return []
    failure

def flowItems : (bound : Nat) → (isFirst : Bool) → Reader (List Tree)
  | 0, _ => failure
  | bound + 1, isFirst => do
    if ← skipIf .flowListEnd then return []
    if !isFirst then
      if !(← skipIf .comma) then failure
      if ← skipIf .flowListEnd then return []
    let item ← if ← skipIf .key then singleEntry bound else node bound false false
    return item :: (← flowItems bound false)

/-- An entry that stands in a list as a mapping of its own; a key that is not written takes the token
behind it along. -/
def singleEntry : (bound : Nat) → Reader Tree
  | 0 => failure
  | bound + 1 => do
    let key ←
      if ← nextIs [.value, .comma, .flowListEnd] then
        skip
        pure .absent
      else node bound false false
    let value ← valueAfterKey bound false [.comma, .flowListEnd]
    return .map {} [(key, value)]

def flowEntries : (bound : Nat) → (isFirst : Bool) → Reader (List (Tree × Tree))
  | 0, _ => failure
  | bound + 1, isFirst => do
    if ← skipIf .flowMapEnd then return []
    if !isFirst then
      if !(← skipIf .comma) then failure
      if ← skipIf .flowMapEnd then return []
    let ends := [Token.value, .comma, .flowMapEnd]
    if ← skipIf .key then
      let key ← optional bound false false ends
      let value ← valueAfterKey bound false [.comma, .flowMapEnd]
      return (key, value) :: (← flowEntries bound false)
    let key ← node bound false false
    return (key, .absent) :: (← flowEntries bound false)

end

def standardHandles : List (String × String) := [("!", "!"), ("!!", "tag:yaml.org,2002:")]

/-- The directives before a document: a version at most, and each handle once. -/
def directives (versioned : Bool) (handles : List (String × String)) :
    List Token → Option (List (String × String) × List Token)
  | .version major minor :: rest =>
    if versioned || major != 1 || (minor != 1 && minor != 2) then none
    else directives true handles rest
  | .tagDirective handle meaning :: rest =>
    if (handles.lookup handle).isSome then none
    else directives versioned ((handle, meaning) :: handles) rest
  | rest => some (handles, rest)

end Reader

/-- A document, and the marks of its anchors. -/
structure Document where
  root : Tree
  targets : List (Nat × Nat)

namespace Document

/-- The one document of a list of tokens; without tokens it is not written. -/
def ofTokens? (ts : List Token) : Option Document := do
  if ts.isEmpty then return ⟨.absent, []⟩
  let (own, rest) ← Reader.directives false [] ts
  let explicit := rest.head? == some .documentStart
  if !explicit && rest.length < ts.length then none
  let rest := if explicit then rest.drop 1 else rest
  let handles := own ++ Reader.standardHandles
  let bound := 4 * rest.length + 4
  let betweenDocuments : Token → Bool
    | .documentStart | .documentEnd | .version .. | .tagDirective .. => true
    | _ => false
  let isAbsent := explicit && rest.head?.all betweenDocuments
  let (root, r) ← if isAbsent then some (.absent, { rest }) else
    (Reader.node bound true false).run { rest, handles }
  if r.rest.all (· == .documentEnd) then some ⟨root, r.targets⟩ else none

/-- The tree that an alias stands for. -/
def target? (d : Document) (anchor : Nat) : Option Tree := do
  d.root.marked.lookup (← d.targets.lookup anchor)

end Document
end ApiScaffold.Yaml
