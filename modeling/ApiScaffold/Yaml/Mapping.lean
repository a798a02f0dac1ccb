import ApiScaffold.Yaml.Parser

/-!
# Mappings

Entries in their order, with look-up by key and changes that leave the other entries where they are.
-/

namespace ApiScaffold.Yaml

abbrev Mapping := List (Node × Node)

namespace Node

def str? (n : Node) : Option String :=
  match n.untagged with
  | .str s => some s
  | _ => none

def bool? (n : Node) : Option Bool :=
  match n.untagged with
  | .bool b => some b
  | _ => none

def map? (n : Node) : Option Mapping :=
  match n.untagged with
  | .map entries => some entries
  | _ => none

def seq? (n : Node) : Option (List Node) :=
  match n.untagged with
  | .seq items => some items
  | _ => none

def isNull (n : Node) : Bool :=
  match n.untagged with
  | .null => true
  | _ => false

/-- Another node under the tags of this one. -/
def replaceUntagged (n node : Node) : Node :=
  match n with
  | .tagged tag n => .tagged tag (n.replaceUntagged node)
  | _ => node

end Node

namespace Mapping

def find? (m : Mapping) (key : Node) : Option Node := (List.find? (key.same ·.1) m).map Prod.snd

/-- The value of a key that is a text without a tag. -/
def get? (m : Mapping) (key : String) : Option Node := find? m (.str key)

/-- `key` is bound to `value`: in its place if it is there, else behind all others. -/
def put (key value : Node) : Mapping → Mapping
  | [] => [(key, value)]
  | (k, v) :: rest => if key.same k then (k, value) :: rest else (k, v) :: put key value rest

/-- What a key is bound to; what is missing or null is taken for `empty`, and is there from now on. -/
def getOr (m : Mapping) (key : String) (empty : Node) : Node :=
  match m.get? key with
  | some v => if v.isNull then empty else v
  | none => empty

/-- Changes the mapping under a key, which is made if it is missing; anything else is left alone. -/
def updateMap {ω : Type} (m : Mapping) (key : String) (change : Mapping → Mapping × List ω) :
    Mapping × List ω :=
  let value := m.getOr key (.map [])
  match value.map? with
  | some entries =>
    let (entries, notes) := change entries
    (m.put (.str key) (value.replaceUntagged (.map entries)), notes)
  | none => (m, [])

/-- Changes the list under a key, which is made if it is missing; anything else is left alone. -/
def updateSeq (m : Mapping) (key : String) (change : List Node → List Node) : Mapping :=
  let value := m.getOr key (.seq [])
  match value.seq? with
  | some items => m.put (.str key) (value.replaceUntagged (.seq (change items)))
  | none => m

end Mapping

/-- The text under a key of a mapping. -/
def Node.getStr? (n : Node) (key : String) : Option String := do
  (← Mapping.get? (← n.map?) key).str?

end ApiScaffold.Yaml
