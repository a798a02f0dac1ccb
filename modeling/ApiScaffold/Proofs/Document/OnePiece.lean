import ApiScaffold.Proofs.Document.Ending
import ApiScaffold.Proofs.Document.Leftover

/-!
# When a document is in one piece

No entry of a document in one piece refers to a file.  A document that was loaded is in one piece
exactly when no body that its paths and components are made of leaves a reference to a file.
-/

namespace ApiScaffold.Document

/-- No path and no component of the document refers to a file. -/
def InOnePiece (doc : Json) : Prop :=
  (∀ path v, item? doc path = some v → ¬RefersOut v) ∧
    ∀ kind name v, component? doc kind name = some v → ¬RefersOut v

section

variable {d : Disk} {file : Path}

theorem Starts.sorted {v : Json} (h : Starts d file (.entry v)) : v.Sorted := by
  cases h with
  | item hread hp => exact (sorted_of_read hread).of_mem_parts (Json.fields_mem_parts hp)
  | declared hread hkind hp =>
    exact (sorted_of_read hread).of_mem_parts
      (Json.parts_trans (Json.fields_mem_parts hkind) (Json.field_mem_parts hp))

theorem Entered.sorted {s : Source} {b : Body} (h : Entered d file s)
    (hb : s.body? d (directoryOf file) = some b) : b.value.Sorted := by
  cases s with
  | file f => exact Body.sorted_of_target hb
  | entry v =>
    dsimp only [Source.body?] at hb
    split at hb
    · exact Body.sorted_of_target hb
    · cases hb
      cases h with
      | start hs => exact hs.sorted

theorem Entered.accounts {s : Source} {b : Body} {out : Bundled Json} (h : Entered d file s)
    (hb : s.body? d (directoryOf file) = some b) (hout : s.bundle d (directoryOf file) = .ok out) :
    b.Accounts d out.1 := by
  obtain ⟨b', hb', hbundle⟩ := Source.bundle_eq_ok_iff.mp hout
  cases hb.symm.trans hb'
  exact Body.accounts_of_bundle (h.sorted hb) hbundle

/-- **When a loaded document is in one piece.** -/
theorem inOnePiece_iff {doc : Json} (h : load d file = .ok doc) : InOnePiece doc ↔
    (∀ path s b, ItemSource d file path s → s.body? d (directoryOf file) = some b →
      ¬b.Leaves d isKnownKey) ∧
    (∀ kind name s b, ComponentSource d file kind name s → s.body? d (directoryOf file) = some b →
      ¬b.Leaves d everyKey) := by
  obtain ⟨a⟩ := exists_loaded h
  -- stripping an item drops keys, but never a reference
  have hknown : isKnownKey "$ref" = true := by
    simp only [isKnownKey, toLowerAscii_eq]
    decide
  have hsound : ∀ s, Entered d file s → ∃ out, s.bundle d (directoryOf file) = .ok out :=
    fun s hs => Source.bundle_isOk_iff.mpr (a.sound hs)
  constructor
  · rintro ⟨hitems, hcomponents⟩
    constructor
    · intro path s b hs hb hleaves
      obtain ⟨out, hout⟩ := hsound s hs.entered
      refine hitems path _ (a.item?_eq_some_iff.mpr ⟨s, out, hs, hout, rfl⟩) ?_
      rw [← kept_isKnownKey]
      exact ((hs.entered.accounts hb hout).leaves _ hknown).mpr hleaves
    · intro kind name s b hs hb hleaves
      obtain ⟨out, hout⟩ := hsound s hs.entered
      refine hcomponents kind name _ (a.component?_eq_some_iff.mpr ⟨s, out, hs, hout, rfl⟩) ?_
      exact (hs.entered.accounts hb hout).refersOut_iff.mpr hleaves
  · rintro ⟨hitems, hcomponents⟩
    constructor
    · intro path v hv hout
      obtain ⟨s, out, hs, hbundle, rfl⟩ := a.item?_eq_some_iff.mp hv
      obtain ⟨b, hb, -⟩ := Source.bundle_eq_ok_iff.mp hbundle
      rw [← kept_isKnownKey] at hout
      exact hitems path s b hs hb (((hs.entered.accounts hb hbundle).leaves _ hknown).mp hout)
    · intro kind name v hv hout
      obtain ⟨s, out, hs, hbundle, rfl⟩ := a.component?_eq_some_iff.mp hv
      obtain ⟨b, hb, -⟩ := Source.bundle_eq_ok_iff.mp hbundle
      exact hcomponents kind name s b hs hb ((hs.entered.accounts hb hbundle).refersOut_iff.mp hout)

end

/-! ### What is left beside a reference -/

theorem not_refersOut_field {key : String} {v : Json} (hkey : key ≠ "$ref") (hv : ¬RefersOut v) :
    ¬RefersOut (.obj [(key, v)]) := by
  have hlookup : [(key, v)].lookup "$ref" = none := by
    rw [List.lookup_cons, beq_eq_false_iff_ne.mpr hkey.symm]
    rfl
  rw [refersOut_obj_iff]
  rintro (hself | ⟨p, hp, hout⟩)
  · obtain ⟨s, hs⟩ := Option.isSome_iff_exists.mp hself
    rw [fileReference?_obj_iff, hlookup] at hs
    cases hs.1
  · cases List.mem_singleton.mp hp
    exact hv hout

theorem not_refersOut_reference (w : Wanted) : ¬RefersOut (refersTo w.reference) := by
  rw [refersTo, refersOut_obj_iff]
  rintro (hself | ⟨p, hp, hout⟩)
  · obtain ⟨s, hs⟩ := Option.isSome_iff_exists.mp hself
    obtain ⟨hlookup, hnames⟩ := fileReference?_obj_iff.mp hs
    cases hlookup
    rw [namesFile_reference] at hnames
    cases hnames
  · cases List.mem_singleton.mp hp
    exact not_refersOut_leaf rfl rfl hout

theorem stripItem_get (v : Json) : stripItem (.obj [("get", v)]) = .obj [("get", v)] := by
  have hget : isKnownKey "get" = true := by
    simp only [isKnownKey, toLowerAscii_eq]
    decide
  show Json.obj ([("get", v)].filter fun f => isKnownKey f.1) = _
  rw [List.filter_cons_of_pos (p := fun f : String × Json => isKnownKey f.1) hget]
  rfl

/-- A document that refers to a schema is in one piece, so its path leaves no reference. -/
theorem inOnePiece_linked : load linked ⟨"api.json"⟩ = .ok linkedDocument
    ∧ InOnePiece linkedDocument ∧ ¬Body.Leaves linked isKnownKey ⟨⟨""⟩, linkedItem⟩ := by
  have hone : InOnePiece linkedDocument := by
    constructor
    · intro path v hv
      rw [linkedDocument, item?_assembled] at hv
      obtain ⟨u, hu, rfl⟩ := Option.map_eq_some_iff.mp hv
      cases List.mem_singleton.mp (Keyed.mem_of_lookup hu)
      rw [stripItem_get]
      exact not_refersOut_field (by decide) (not_refersOut_reference schemaA)
    · intro kind name v hv
      rw [linkedDocument, component?_assembled] at hv
      obtain ⟨u, hu, hv⟩ := Option.bind_eq_some_iff.mp hv
      cases List.mem_singleton.mp (Keyed.mem_of_lookup hu)
      have hentry : [("A", Json.obj [("items", refersTo schemaA.reference)])].lookup name = some v := hv
      cases List.mem_singleton.mp (Keyed.mem_of_lookup hentry)
      exact not_refersOut_field (by decide) (not_refersOut_reference schemaA)
  refine ⟨load_linked, hone, ?_⟩
  obtain ⟨hitems, -⟩ := (inOnePiece_iff load_linked).mp hone
  exact hitems "/x" (.entry linkedItem) _ (.declared read_linked rfl) (body?_item (by decide))

def besideFields : List (String × Json) :=
  [("$ref", .str "schemas/A.json"), ("y", refersTo "schemas/A.json")]

/-- An item that refers to a schema twice, the second time beside the first. -/
def besideItem : Json := .obj [("get", .obj besideFields)]

theorem parse?_besideItem : Json.parse? (withItem besideItem).compact = some (withItem besideItem) := by
  cbv

def beside : Disk := shelf "A.json" (withItem besideItem) linkedSchema

/-- **Not every document that is loaded is in one piece**: what stands beside a reference to a
component is not walked. -/
theorem not_forall_inOnePiece :
    ¬ ∀ (d : Disk) (file : Path) (doc : Json), load d file = .ok doc → InOnePiece doc := by
  intro h
  have hitem : resolveEntry beside ⟨""⟩ besideItem
      = .ok (.obj [("get", .obj (Keyed.insert "$ref" (.str schemaA.reference) besideFields))], [schemaA]) := by
    have href : fileReference? besideItem = none := by decide
    rw [resolveEntry, href]
    exact internalize_single (by decide) (by decide)
      (redirect_of_kind _ target_schemaA kindOf?_schemaA ofFile_schemaA)
  have hload := load_shelf parse?_besideItem hitem loadFile_schemaA fun m hm => by rw [List.mem_singleton.mp hm]
  have hone := (h _ _ _ hload).1 "/x" _ (item?_assembled _ _ _ _)
  refine hone ?_
  rw [stripItem_get]
  refine refersOut_obj_iff.mpr (.inr ⟨_, List.mem_singleton_self _, ?_⟩)
  have hmem : ("y", refersTo "schemas/A.json")
      ∈ Keyed.insert "$ref" (.str schemaA.reference) besideFields := List.mem_cons_of_mem _ List.mem_cons_self
  exact refersOut_obj_iff.mpr (.inr ⟨_, hmem, _, Json.self_mem_parts _, by decide⟩)

end ApiScaffold.Document
