import ApiScaffold.Backend.Bootstrap
import ApiScaffold.Proofs.Backend.Page
import ApiScaffold.Proofs.Text.Split

/-!
# Repositories as dependencies

The interface of a repository, the field that holds it and the expression that supplies it are named in
three places.  `Backend.repositories_wired`: they agree for every persisted entity whose name in the code
is an identifier, whatever that name ends in.
-/

namespace ApiScaffold

namespace Wiring
namespace Registry

def IsIdentifier (s : String) : Prop :=
  ∃ c rest, s.toList = c :: rest ∧ isNameStart c = true ∧ ∀ d ∈ rest, isNamePart d = true

/-- The entity is what stands between the package and the ending, also if it has the ending itself. -/
theorem repositoryEntity?_of_isIdentifier {entity : String} (h : IsIdentifier entity) :
    repositoryEntity? ("repositories." ++ entity ++ "Repository") = some entity := by
  obtain ⟨c, rest, hentity, hstart, hrest⟩ := h
  rw [String.append_assoc, repositoryEntity?, Text.afterStart?_append]
  simpa [Text.beforeEnd?_append, hentity, hstart] using hrest

theorem resolve?_repository {r : Registry} {entity : String} (h : IsIdentifier entity)
    (hnone : r.mappings.lookup ("repositories." ++ entity ++ "Repository") = none) :
    r.resolve? ("repositories." ++ entity ++ "Repository")
      = some ⟨"repos." ++ Name.plural entity, none⟩ := by
  rw [resolve?, hnone, repositoryEntity?_of_isIdentifier h]
  rfl

example : Registry.empty.resolve? "repositories.RepositoryRepository"
    = some ⟨"repos.Repositories", none⟩ := by decide +kernel

theorem resolve?_of_lookup {r : Registry} {type : String} {supply : Supply}
    (h : r.mappings.lookup type = some supply) : r.resolve? type = some supply := by
  rw [resolve?, h]

/-- The supplies of other types change nothing about what is mapped. -/
theorem lookup_foldl_add {type : String} {others : List (String × Supply)}
    (h : ∀ o ∈ others, o.1 ≠ type) (r : Registry) :
    (others.foldl (fun r o => r.add o.1 o.2) r).mappings.lookup type = r.mappings.lookup type := by
  induction others generalizing r with
  | nil => rfl
  | cons o others ih =>
    rw [List.foldl_cons, ih fun o ho => h o (.tail _ ho)]
    exact Keyed.lookup_insert_of_ne (Ne.symm (h o (.head _))) _ _

/-- The last supply that is added for a type counts. -/
theorem resolve?_add {type : String} {others : List (String × Supply)}
    (h : ∀ o ∈ others, o.1 ≠ type) (r : Registry) (supply : Supply) :
    (others.foldl (fun r o => r.add o.1 o.2) (r.add type supply)).resolve? type = some supply := by
  refine resolve?_of_lookup ?_
  rw [lookup_foldl_add h]
  exact Keyed.lookup_insert_self _ _ _

end Registry
end Wiring

namespace Backend

open Wiring (Registry Supply Handler)

def repositoryType (s : Schema) : String := "repositories." ++ Name.pascal s.name ++ "Repository"

def repositoryLine (s : Schema) : String :=
  "\t" ++ repositoryField s ++ " " ++ repositoryType s

theorem repositoryLine_eq (s : Schema) : repositoryLine s
    = s!"\t{repositoryField s} repositories.{Name.pascal s.name}Repository" := by
  show "\t" ++ repositoryField s ++ " " ++ ("repositories." ++ Name.pascal s.name ++ "Repository")
    = "\t" ++ repositoryField s ++ (" " ++ "repositories.") ++ Name.pascal s.name ++ "Repository"
  simp only [String.append_assoc]

theorem hasBlock_repositoryFile (module : String) (s : Schema) :
    ∃ methods, HasBlock (repositoryFile module s)
      s!"type {Name.pascal s.name}Repository interface \x7b" methods := by
  let methods := (signatures s).flatMap fun m => commentLine "\t" m.doc ++ ["\t" ++ m.text]
  refine ⟨methods, ?_⟩
  have hblock := hasBlock_page (packageLines "repositories" ++ [""]
    ++ importLines (["context"] ++ Code.importsFor ((signatures s).map (·.text))
      ++ [module ++ "/models"]) ++ [""])
    s!"// {Name.pascal s.name}Repository persists {Name.pascal s.name} entities in table {Persistence.tableName s}."
    s!"type {Name.pascal s.name}Repository interface \x7b" methods []
  simpa [repositoryFile, methods] using hblock

theorem hasBlock_bootstrapFile (module : String) (entities : List Schema)
    (handlers : List Handler) :
    HasBlock (bootstrapFile module entities handlers) "type Repositories struct \x7b"
      (entities.map repositoryLine) := by
  have hlines : entities.map (fun s => s!"\t{repositoryField s} repositories.{Name.pascal s.name}Repository")
      = entities.map repositoryLine := by
    exact List.map_congr_left fun s _ => (repositoryLine_eq s).symm
  have hblock := hasBlock_page (packageLines "app" ++ [""]
    ++ importLines (bootstrapImports module entities handlers) ++ [""])
    "// Repositories holds one repository per persisted entity." "type Repositories struct \x7b"
    (entities.map repositoryLine)
  unfold bootstrapFile
  rw [hlines]
  simpa using hblock _

/-- **Repositories are supplied by fields that exist.**  The package declares the interface of a
repository, and the bootstrap code a field of this type for each persisted entity.  Where no supply is
mapped to the type, a parameter is supplied by that field, without an import; else the last supply that
was added counts. -/
theorem repositories_wired (module : String) (m : Model) (handlers : List Handler) {s : Schema}
    (hs : s ∈ persisted m) (hname : Registry.IsIdentifier (Name.pascal s.name)) :
    (∃ methods, HasBlock (repositoryFile module s)
      s!"type {Name.pascal s.name}Repository interface \x7b" methods) ∧
    HasBlock (bootstrapFile module (persisted m) handlers) "type Repositories struct \x7b"
      ((persisted m).map repositoryLine) ∧
    repositoryLine s ∈ (persisted m).map repositoryLine ∧
    (∀ r : Registry, r.mappings.lookup (repositoryType s) = none →
      r.resolve? (repositoryType s) = some ⟨"repos." ++ repositoryField s, none⟩ ∧
      ∀ name, Handler.supply r ⟨name, repositoryType s⟩
        = ⟨name, repositoryType s, "repos." ++ repositoryField s, none, true⟩) ∧
    ∀ (r : Registry) (supply : Supply) (others : List (String × Supply)),
      (∀ o ∈ others, o.1 ≠ repositoryType s) →
      (others.foldl (fun r o => r.add o.1 o.2) (r.add (repositoryType s) supply)).resolve?
        (repositoryType s) = some supply := by
  refine ⟨hasBlock_repositoryFile module s, hasBlock_bootstrapFile module _ handlers,
    List.mem_map_of_mem hs, fun r hnone => ?_, fun r supply others h => Registry.resolve?_add h r supply⟩
  have hresolve := Registry.resolve?_repository hname hnone
  refine ⟨hresolve, fun name => ?_⟩
  rw [Handler.supply, show r.resolve? (repositoryType s) = _ from hresolve]
  rfl

def personSchema : Schema :=
  { name := "person", role := .entity, properties := [("id", { name := "id" })] }

/-- A model whose one entity has an irregular plural. -/
def peopleModel : Model where
  title := ""
  version := ""
  projectName := ""
  context := ""
  schemas := [personSchema]
  operations := []
  securitySchemes := []
  tags := []
  document := .null

theorem repositories_wired_person : personSchema ∈ persisted peopleModel ∧
    Registry.IsIdentifier (Name.pascal personSchema.name) ∧
    Registry.empty.mappings.lookup (repositoryType personSchema) = none ∧
    Registry.empty.resolve? "repositories.PersonRepository" = some ⟨"repos.People", none⟩ := by
  have hs : personSchema ∈ persisted peopleModel := List.mem_singleton_self _
  have hname : Registry.IsIdentifier (Name.pascal personSchema.name) :=
    ⟨'P', "erson".toList, by decide +kernel, by decide, List.all_eq_true.mp (by decide)⟩
  obtain ⟨-, -, -, hresolve, -⟩ := repositories_wired "" peopleModel [] hs hname
  have htype : repositoryType personSchema = "repositories.PersonRepository" := by decide +kernel
  have hfield : repositoryField personSchema = "People" := by decide +kernel
  refine ⟨hs, hname, rfl, ?_⟩
  rw [← htype, (hresolve Registry.empty rfl).1, hfield]
  rfl

end Backend
end ApiScaffold
