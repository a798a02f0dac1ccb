import ApiScaffold.Json.Basic

/-!
# YAML nodes

`Yaml.Node` is a document as data: mappings keep the order of their entries, keys may be any node,
and a tag that is not of the core schema stays on its node.
-/

namespace ApiScaffold.Yaml

inductive Node where
  | null
  | bool (b : Bool)
  | int (n : Int)
  | float (x : Binary64)
  | str (s : String)
  | seq (items : List Node)
  | map (entries : List (Node × Node))
  | tagged (tag : String) (node : Node)

namespace Node

instance : Inhabited Node := ⟨.null⟩

mutual

/-- A value as a node. -/
def ofJson : Json → Node
  | .null => .null
  | .bool b => .bool b
  | .num (.int n) => .int n
  | .num (.float x) => .float x
  | .str s => .str s
  | .arr items => .seq (ofJsonItems items)
  | .obj fields => .map (ofJsonFields fields)

def ofJsonItems : List Json → List Node
  | [] => []
  | v :: rest => ofJson v :: ofJsonItems rest

def ofJsonFields : List (String × Json) → List (Node × Node)
  | [] => []
  | (key, v) :: rest => (.str key, ofJson v) :: ofJsonFields rest

end

/-- The node below its tags. -/
def untagged : Node → Node
  | .tagged _ node => node.untagged
  | node => node

end Node
end ApiScaffold.Yaml
