import ApiScaffold.Include.Fragment
import ApiScaffold.Warning
import ApiScaffold.Yaml.Mapping

/-!
# Union of root documents

`Include.addRoot` adds to a root document what the root of a fragment has more: paths, components,
tags and security requirements.  What is there already stays.
-/

namespace ApiScaffold.Include

open Yaml (Node Mapping)

/-- The key of a marker that asks for a fragment starts like this. -/
def markerStart : String := "x-include-"

/-- The name of the fragment that a key asks for. -/
def marked? (key : Node) : Option String := key.str?.bind (Text.afterStart? markerStart)

/-- The fragments that a root document asks for, in their own order, and a warning for each name that
is not known. -/
def enabled (fs : Fragments) (root : Mapping) : List Fragment × List Warning :=
  let asked := root.filterMap fun e => (marked? e.1).filter fun _ => e.2.bool? == some true
  (fs.list.filter fun f => asked.contains f.name,
    (asked.filter fun name => (fs.get? name).isNone).map (.unknownInclude · fs.names))

/-- Entries that `target` lacks are added behind its own; the others are reported if they differ. -/
def addEntries (fragment part : String) (target source : Mapping) : Mapping × List Warning :=
  source.foldl (fun (target, ws) (key, value) =>
    match Mapping.find? target key with
    | none => (target ++ [(key, value)], ws)
    | some own =>
      if own.same value then (target, ws)
      else (target, ws ++ [.shadowedEntry fragment part (key.str?.getD "")])) (target, [])

/-- Items with a name that no item of `target` has are added behind its own. -/
def addNamed (name? : Node → Option String) (target source : List Node) : List Node :=
  source.foldl (fun target item =>
    match name? item with
    | none => target
    | some name => if target.any (name? · == some name) then target else target ++ [item]) target

def tagName? (tag : Node) : Option String := tag.getStr? "name"

/-- A requirement is named for the first scheme that it asks for. -/
def requirementName? (requirement : Node) : Option String := do
  (← (← requirement.map?).head?).1.str?

/-- The components of a fragment, kind by kind. -/
def addComponents (fragment : String) (target source : Mapping) : Mapping × List Warning :=
  source.foldl (fun (target, ws) (key, value) =>
    match key.str?, value with
    | some kind, .map entries =>
      let (target, more) := Mapping.updateMap target kind (addEntries fragment kind · entries)
      (target, ws ++ more)
    | _, _ => (target, ws)) (target, [])

/-- One entry of the root of a fragment. -/
def addPart (fragment : String) (root : Mapping) (key value : Node) : Mapping × List Warning :=
  match key.str?, value with
  | some "paths", .map paths => Mapping.updateMap root "paths" (addEntries fragment "paths" · paths)
  | some "components", .map components =>
    Mapping.updateMap root "components" (addComponents fragment · components)
  | some "tags", .seq tags => (Mapping.updateSeq root "tags" (addNamed tagName? · tags), [])
  | some "security", .seq requirements =>
    (Mapping.updateSeq root "security" (addNamed requirementName? · requirements), [])
  | _, _ => (root, [])

/-- A root document with all that the root of a fragment adds. -/
def addRoot (fragment : String) (root source : Mapping) : Mapping × List Warning :=
  source.foldl (fun (root, ws) (key, value) =>
    let (root, more) := addPart fragment root key value
    (root, ws ++ more)) (root, [])

/-- The reference to a component in a file of its own. -/
def componentReference (kind file : String) : String := s!"components/{kind}/{file}"

/-- A text without the dots that mean the same directory. -/
def withoutLeadingDots (s : String) : String := String.ofList (go s.toList)
where
  go : List Char → List Char
    | '.' :: '/' :: rest => go rest
    | s => s

/-- Whether a component is declared by its name, or its file under any name. -/
def isDeclared (entries : Mapping) (name reference : String) : Bool :=
  (Mapping.get? entries name).isSome
    || entries.any fun e => (e.2.getStr? "$ref").any (withoutLeadingDots · == reference)

/-- A component of a kind that lies in a file is declared, unless it is. -/
def declare (kind : String) (entries : Mapping) (file : String) : Mapping :=
  let name := (Path.splitEnding file).1
  let reference := componentReference kind file
  if isDeclared entries name reference then entries
  else entries ++ [(.str name, .map [(.str "$ref", .str reference)])]

/-- The components of a kind that lie in files are declared. -/
def declareFiles (root : Mapping) (kind : String) (files : List String) : Mapping :=
  if files.isEmpty then root
  else (Mapping.updateMap (ω := Unit) root "components" fun components =>
    Mapping.updateMap components kind fun entries => (files.foldl (declare kind) entries, [])).1

/-- Markers say nothing once they are followed. -/
def withoutMarkers (root : Mapping) : Mapping := root.filter fun e => (marked? e.1).isNone

end ApiScaffold.Include
