import Mathlib.Data.List.Permutation
import ApiScaffold.Json.Printer
import ApiScaffold.Proofs.Disk.Change
import ApiScaffold.Proofs.Document.Origin

/-!
# Documents with one component in a file

`shelf` is a disk with a document `api.json` and one file in its directory `schemas`.  When the only
item of the document wants that schema and the schema wants no other, loading the document registers
it and nothing else (`load_shelf`).
-/

namespace ApiScaffold.Document

open Disk (Leads asksDirectory)

/-! ### References and files -/

theorem read_of_leads {d : Disk} {p : Path} {text : String} {v : Json} (names : List String)
    (hp : p.components = names.map .normal) (hempty : p.text.isEmpty = false)
    (hasks : asksDirectory p = false) (hending : p.ending? = some "json")
    (h : Leads d d.start names (.file text.toUTF8)) (hparse : Json.parse? text = some v) :
    read d p = .ok v := by
  have htext : d.readText p = .ok text := by
    refine Disk.readText_eq_ok.mpr
      ⟨_, Disk.find_eq_ok.mpr ⟨_, ?_, h.2⟩, Disk.fromUTF8?_toUTF8 text⟩
    refine Disk.locate_eq_ok.mpr ⟨hempty, ?_, fun _ => hasks⟩
    rw [hp]
    exact Disk.foldlM_step_names.mpr ⟨h.1, rfl⟩
  refine bind_eq_ok.mpr ⟨text, Disk.during_eq_ok.mpr htext, ?_⟩
  rw [hending, if_pos (by decide), hparse]
  rfl

theorem body?_of_read {d : Disk} {f base : Path} {v : Json} (hread : read d f = .ok v)
    (hbase : directoryOf f = base) : Target.body? d ⟨f, ""⟩ = some ⟨base, v⟩ := by
  rw [Target.body?, hread, ← hbase]
  rfl

theorem loadFile_of_read {d : Disk} {f base : Path} {v : Json} {out : Bundled Json}
    (hread : read d f = .ok v) (hbase : directoryOf f = base)
    (h : Body.bundle d 32 ⟨base, v⟩ = .ok out) : loadFile d f = .ok out :=
  loadTarget_eq_ok_iff.mpr ⟨_, body?_of_read hread hbase, h⟩

theorem ofReference_of_plain {base file : Path} {reference : String}
    (hsplit : Text.splitOnce? '#' reference = none) (hfile : normalize (base.join ⟨reference⟩) = file) :
    Target.ofReference base reference = ⟨file, ""⟩ := by
  unfold Target.ofReference
  rw [hsplit]
  exact congrArg (Target.mk · "") hfile

/-- What becomes of a reference to the file of a component. -/
theorem redirect_of_kind {load : Target → Except Failure (Bundled Json)} {base : Path}
    {reference : String} {t : Target} {w : Wanted} (fields : List (String × Json))
    (ht : Target.ofReference base reference = t) (hkind : kindOf? t.file = some w.kind)
    (hw : Wanted.ofFile w.kind t.file = w) :
    redirect load base fields reference
      = .ok (.obj (Keyed.insert "$ref" (.str w.reference) fields), [w]) := by
  dsimp only [redirect]
  rw [ht, hkind]
  dsimp only
  rw [hw]

/-- An object whose only field refers to a file. -/
theorem internalize_single {load : Target → Except Failure (Bundled Json)} {base : Path}
    {key reference : String} {fields : List (String × Json)} {out : Bundled Json}
    (hkey : fileReference? (.obj [(key, .obj fields)]) = none)
    (href : fileReference? (.obj fields) = some reference)
    (hout : redirect load base fields reference = .ok out) :
    internalize load base (.obj [(key, .obj fields)]) = .ok (.obj [(key, out.1)], out.2) := by
  simp only [internalize, internalizeFields, hkey, href, hout, bind, Except.bind, pure, Except.pure,
    List.append_nil]

theorem references_reference {reference : String} {fields : List (String × Json)}
    (href : fileReference? (.obj fields) = some reference) :
    references (.obj fields) = [(fields, reference)] := by
  simp only [references, href]

theorem references_field {key : String} {v : Json} (hkey : fileReference? (.obj [(key, v)]) = none) :
    references (.obj [(key, v)]) = references v := by
  simp only [references, referencesFields, hkey, List.append_nil]

/-! ### The disk -/

/-- A disk with a document `api.json` and one file in the directory `schemas`. -/
def shelf (name : String) (root schema : Json) : Disk where
  start := []
  nodes := [(["api.json"], .file root.compact.toUTF8), (["schemas"], .directory),
    (["schemas", name], .file schema.compact.toUTF8)]

def withItem (item : Json) : Json := .obj [("paths", .obj [("/x", item)])]

section

variable {name : String} {root schema : Json}

theorem read_shelf_api (h : Json.parse? root.compact = some root) :
    read (shelf name root schema) ⟨"api.json"⟩ = .ok root :=
  read_of_leads ["api.json"] (by decide) (by decide) (by decide) (by decide) ⟨⟨rfl, trivial⟩, rfl⟩ h

theorem read_shelf_schema {p : Path} (hp : p.components = [.normal "schemas", .normal name])
    (hempty : p.text.isEmpty = false) (hasks : asksDirectory p = false)
    (hending : p.ending? = some "json") (h : Json.parse? schema.compact = some schema) :
    read (shelf name root schema) p = .ok schema := by
  refine read_of_leads ["schemas", name] hp hempty hasks hending ⟨⟨rfl, rfl, trivial⟩, ?_⟩ h
  simp [Disk.node?, shelf, List.lookup_cons]

theorem directoryOf_api : directoryOf ⟨"api.json"⟩ = ⟨""⟩ := by decide

theorem pathFiles_shelf : pathFiles (shelf name root schema) ⟨""⟩ = .ok [] := by
  have hjoin : (⟨""⟩ : Path).joinName "paths" = ⟨"paths"⟩ := by decide
  have h : (shelf name root schema).isDirectory ⟨"paths"⟩ = false := by
    rw [← Bool.not_eq_true, Disk.isDirectory_iff, Disk.find_eq_ok]
    rintro ⟨l, hl, hnode⟩
    obtain ⟨-, hfold, -⟩ := Disk.locate_eq_ok.mp hl
    rw [show (⟨"paths"⟩ : Path).components = ["paths"].map .normal by decide] at hfold
    obtain ⟨-, rfl⟩ := Disk.foldlM_step_names.mp hfold
    simp [Disk.node?, shelf, List.lookup_cons] at hnode
  unfold pathFiles
  simp only [hjoin, h]
  rfl

theorem register_of_met {d : Disk} {bound : Nat} {wanted : List Wanted}
    {seen : List (String × String)} {parts : List (String × Json)} (h : ∀ w ∈ wanted, w.key ∈ seen) :
    register d bound seen wanted parts = .ok parts := by
  induction wanted with
  | nil => rw [register]
  | cons w rest ih =>
    rw [register_again (h w List.mem_cons_self)]
    exact ih fun w hw => h w (List.mem_cons_of_mem _ hw)

/-- The only item wants one component, and the file of that wants no other. -/
theorem load_shelf {item item' v : Json} {w : Wanted} {more : List Wanted}
    (hroot : Json.parse? (withItem item).compact = some (withItem item))
    (hitem : resolveEntry (shelf name (withItem item) schema) ⟨""⟩ item = .ok (item', [w]))
    (hfile : loadFile (shelf name (withItem item) schema) w.file = .ok (v, more))
    (hmore : ∀ m ∈ more, m.key = w.key) :
    load (shelf name (withItem item) schema) ⟨"api.json"⟩
      = .ok (assembled [("paths", .obj [("/x", item)])] [("/x", item')]
          [(w.kind, .obj [(w.name, v)])]) := by
  have hitems : resolveEntries (shelf name (withItem item) schema) ⟨""⟩ [("/x", item)]
      = .ok ([("/x", item')], [w]) := by
    rw [resolveEntries, hitem]
    rfl
  have hbound : registerBound (shelf name (withItem item) schema) = 29 + 1 := rfl
  have hregister : register (shelf name (withItem item) schema)
      (registerBound (shelf name (withItem item) schema)) [] [w] []
      = .ok [(w.kind, .obj [(w.name, v)])] := by
    rw [hbound, register_new List.not_mem_nil, hfile]
    -- all that is wanted next is the component that has just been loaded
    apply register_of_met
    intro m hm
    rw [List.append_nil, List.mem_reverse] at hm
    rw [hmore m hm]
    exact List.mem_cons_self
  have hpaths : part [("paths", .obj [("/x", item)])] "paths" = .ok [("/x", item)] := rfl
  have hparts : part [("paths", .obj [("/x", item)])] "components" = .ok [] := rfl
  unfold load
  rw [directoryOf_api, read_shelf_api hroot]
  simp only [withItem, bind, Except.bind, hpaths, hparts] at hitems hregister ⊢
  simp only [hitems, discover, resolveParts, pure, Except.pure, pathFiles_shelf, List.append_nil,
    List.reverse_singleton, hregister, assembled]

end

theorem body?_item {d : Disk} {item : Json} (h : fileReference? item = none) :
    (Source.entry item).body? d (directoryOf ⟨"api.json"⟩) = some ⟨⟨""⟩, item⟩ := by
  rw [directoryOf_api]
  simp only [Source.body?, h]

/-- The reference that the only item of a document makes. -/
theorem refers_of_item {d : Disk} {item : Json} {fields : List (String × Json)} {reference : String}
    (hread : read d ⟨"api.json"⟩ = .ok (withItem item)) (hitem : fileReference? item = none)
    (href : references item = [(fields, reference)]) :
    Refers d ⟨"api.json"⟩ (.ofReference ⟨""⟩ reference) := by
  have hstart : Starts d ⟨"api.json"⟩ (.entry item) :=
    .item hread (List.mem_singleton_self ("/x", item))
  have hmem : (fields, reference) ∈ references item := by
    rw [href]
    exact List.mem_singleton_self _
  exact ⟨_, _, 0, _, .start hstart, body?_item hitem, .here _, _, hmem, rfl⟩

def refersTo (reference : String) : Json := .obj [("$ref", .str reference)]

end ApiScaffold.Document
