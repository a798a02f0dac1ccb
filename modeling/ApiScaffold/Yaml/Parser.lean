import ApiScaffold.Text.Alphabetic
import ApiScaffold.Yaml.Tree

/-!
# Reading YAML

`Yaml.parse?` reads a text that holds one document, with aliases replaced by what they stand for;
`Yaml.toJson` gives the value of a node.
-/

namespace ApiScaffold.Yaml

namespace Node

mutual

/-- Whether two nodes are one key: the order of entries does not count, nor the sign of zero. -/
def same : Node → Node → Bool
  | null, null => true
  | bool a, bool b => a == b
  | int a, int b => a == b
  | float a, float b => a.bits == b.bits || (a.isNaN && b.isNaN) || (a.isZero && b.isZero)
  | str a, str b => a == b
  | seq as, seq bs => sameItems as bs
  | map as, map bs => as.length == bs.length && sameEntries as bs
  | tagged t a, tagged u b => t == u && same a b
  | _, _ => false

def sameItems : List Node → List Node → Bool
  | [], [] => true
  | a :: as, b :: bs => same a b && sameItems as bs
  | _, _ => false

def sameEntries : List (Node × Node) → List (Node × Node) → Bool
  | [], _ => true
  | (key, value) :: rest, bs =>
    bs.any (fun b => same key b.1 && same value b.2) && sameEntries rest bs

end

/-- A key as the name of a field. -/
def keyText : Node → String
  | null => "null"
  | bool b => if b then "true" else "false"
  | int n => toString n
  | float x => Number.Layout.yaml.write x
  | str s => s
  | node => Text.trim node.render

mutual

/-- The value of a node without its tags; numbers that are not finite are null. -/
def toJson : Node → Json
  | null => .null
  | bool b => .bool b
  | int n => .num (.int n)
  | float x => if x.isFinite then .num (.float x) else .null
  | str s => .str s
  | seq items => .arr (itemsToJson items)
  | map entries => .obj (entriesToJson entries [])
  | tagged _ node => toJson node

def itemsToJson : List Node → List Json
  | [] => []
  | node :: rest => toJson node :: itemsToJson rest

/-- Of two keys with one text the later counts. -/
def entriesToJson : List (Node × Node) → List (String × Json) → List (String × Json)
  | [], fields => fields
  | (key, value) :: rest, fields => entriesToJson rest (Keyed.insert key.keyText (toJson value) fields)

end

end Node

/-- The name of a type in the core schema. -/
def coreTag (name : String) : String := "tag:yaml.org,2002:" ++ name

/-- What a scalar with a tag of its own, or without one, stands for. -/
def untaggedScalar? (text : String) (plain : Bool) : Option Node :=
  if !plain then some (.str text)
  else match resolve text with
    | .node n => some n
    | .text => some (.str text)
    | .outOfRange => none

/-- A scalar whose tag names a type has to be of it. -/
def scalar? (tag : Option String) (text : String) (plain : Bool) : Option Node :=
  match tag with
  | none => untaggedScalar? text plain
  | some tag =>
    if tag == coreTag "bool" then (bool? text).map .bool
    else if tag == coreTag "int" then ((integer? text.toList).filter fits64).map .int
    else if tag == coreTag "float" then (float? text).map .float
    else if tag == coreTag "null" then (if isNullText text then some .null else none)
    else some (.str text)

/-- A tag that is no type of the core schema but a name given here. -/
def ownTag? (p : Properties) : Option String := p.tag.filter (Text.startsWith "!")

def withTag (p : Properties) (node : Node) : Node :=
  match ownTag? p with
  | some tag => .tagged tag node
  | none => node

namespace Document

/-- Counts the aliases that may still be followed. -/
abbrev Budget := StateT Nat Option

/-- One alias is followed. -/
def spend : Budget Unit := do
  match ← get with
  | 0 => failure
  | n + 1 => set n

/-- Entries in their order; each key is there once. -/
def entries (pairs : List (Node × Node)) : Option (List (Node × Node)) :=
  pairs.foldlM (fun known p => if known.any (·.1.same p.1) then none else some (known ++ [p])) []

/-- The tree itself, or that which an alias stands for. -/
def follow (d : Document) : Tree → Budget Tree
  | .alias anchor => do spend; d.target? anchor
  | t => return t

/-- The node of a tree with collections at most `depth` deep, aliases followed. -/
def expand (d : Document) : (depth : Nat) → Tree → Budget Node
  | 0, t => do
    match ← d.follow t with
    | .scalar p text plain => leaf p text plain
    | _ => failure
  | depth + 1, t => do
    match ← d.follow t with
    | .scalar p text plain => leaf p text plain
    | .list p items => return withTag p (.seq (← items.mapM (d.expand depth)))
    | .map p pairs =>
      let pairs ← pairs.mapM fun (key, value) => return (← d.expand depth key, ← d.expand depth value)
      return withTag p (.map (← entries pairs))
    | .alias _ => failure
where
  leaf (p : Properties) (text : String) (plain : Bool) : Budget Node :=
    match ownTag? p with
    | some tag => return .tagged tag (← untaggedScalar? text plain)
    | none => scalar? p.tag text plain

/-- How deep collections may be nested. -/
def depthLimit : Nat := 128

/-- How many aliases may be followed, for each part of the tree. -/
def aliasLimit : Nat := 100

def node? (d : Document) : Option Node :=
  ((d.expand depthLimit d.root).run (aliasLimit * d.root.size)).map Prod.fst

end Document

/-- The node that a text holds. -/
def parse? (s : String) : Option Node := do (← Document.ofTokens? (← tokens? s)).node?

/-- The value that a text holds. -/
def parseJson? (s : String) : Option Json := (parse? s).map Node.toJson

end ApiScaffold.Yaml
