import ApiScaffold.Proofs.Document.Shelf

/-!
# What is registered, and how loading ends

The components of a loaded document are those that its root declares and those that are asked for,
no others: nothing that is declared is replaced, nothing that is asked for is missing, and nothing
else is added.

Loading a document comes to an end whatever the files refer to.  Files that are to stand one inside
the other may not come back to themselves, since only so many of them are allowed; components may
refer to each other as they like, since each of them is loaded once.
-/

namespace ApiScaffold.Document

/-! ### What is registered -/

/-- **Declared components stay, those asked for are there, and there are no others.**  A component
that the root does not declare is the whole of its file, which is entered in turn. -/
theorem components_declared_or_asked {d : Disk} {file : Path} {doc : Json}
    (h : load d file = .ok doc) :
    (∀ root kind name entry, read d file = .ok root → component? root kind name = some entry →
      ∃ out, resolveEntry d (directoryOf file) entry = .ok out
        ∧ component? doc kind name = some out.1) ∧
    (∀ w, Asked d file w → (component? doc w.kind w.name).isSome) ∧
    (∀ root kind name v, read d file = .ok root → component? root kind name = none →
      component? doc kind name = some v →
      ∃ w more, Asked d file w ∧ w.key = (kind, name) ∧ Entered d file (.file w.file)
        ∧ loadFile d w.file = .ok (v, more)) := by
  obtain ⟨a⟩ := exists_loaded h
  refine ⟨?_, fun w hw => a.component?_isSome_of_asked hw, ?_⟩
  · intro root kind name entry hread hentry
    have hs := ComponentSource.declared hread hentry
    obtain ⟨out, hout⟩ := Source.bundle_isOk_iff.mpr (a.sound hs.entered)
    exact ⟨out, hout, a.component?_eq_some_iff.mpr ⟨_, out, hs, hout, rfl⟩⟩
  · intro root kind name v hread hnone hv
    obtain ⟨s, out, hs, hout, rfl⟩ := a.component?_eq_some_iff.mp hv
    cases hs with
    | declared hread' hentry =>
      cases hread.symm.trans hread'
      cases hnone.symm.trans hentry
    | @registered _ w _ _ hw hkey => exact ⟨w, out.2, hw.asked, hkey, hw.entered, hout⟩

/-! ### A schema that refers to itself -/

def linkedItem : Json := .obj [("get", refersTo "schemas/A.json")]

def linkedSchema : Json := .obj [("items", refersTo "A.json")]

theorem parse?_linked : Json.parse? (withItem linkedItem).compact = some (withItem linkedItem)
    ∧ Json.parse? linkedSchema.compact = some linkedSchema := by
  constructor
  all_goals cbv

def schemaA : Wanted := ⟨"schemas", "A", ⟨"schemas/A.json"⟩⟩

def linked : Disk := shelf "A.json" (withItem linkedItem) linkedSchema

theorem target_schemaA : Target.ofReference ⟨""⟩ "schemas/A.json" = ⟨schemaA.file, ""⟩ :=
  ofReference_of_plain (by decide) (by decide)

theorem target_sibling : Target.ofReference ⟨"schemas"⟩ "A.json" = ⟨schemaA.file, ""⟩ :=
  ofReference_of_plain (by decide) (by decide)

theorem kindOf?_schemaA : kindOf? schemaA.file = some schemaA.kind := by
  simp only [kindOf?, toLowerAscii_eq]
  decide

theorem ofFile_schemaA : Wanted.ofFile schemaA.kind schemaA.file = schemaA := by
  rw [Wanted.ofFile, show schemaA.file.stem? = some "A" by decide]
  rfl

theorem read_linked : read linked ⟨"api.json"⟩ = .ok (withItem linkedItem) :=
  read_shelf_api parse?_linked.1

theorem read_schemaA {root : Json} : read (shelf "A.json" root linkedSchema) schemaA.file = .ok linkedSchema :=
  read_shelf_schema (by decide) (by decide) (by decide) (by decide) parse?_linked.2

theorem directoryOf_schemaA : directoryOf schemaA.file = ⟨"schemas"⟩ := by decide

theorem loadFile_schemaA {root : Json} : loadFile (shelf "A.json" root linkedSchema) schemaA.file
    = .ok (.obj [("items", refersTo schemaA.reference)], [schemaA]) := by
  refine loadFile_of_read read_schemaA directoryOf_schemaA ?_
  exact internalize_single (by decide) (by decide)
    (redirect_of_kind _ target_sibling kindOf?_schemaA ofFile_schemaA)

def linkedDocument : Json :=
  assembled [("paths", .obj [("/x", linkedItem)])]
    [("/x", .obj [("get", refersTo schemaA.reference)])]
    [("schemas", .obj [("A", .obj [("items", refersTo schemaA.reference)])])]

theorem load_linked : load linked ⟨"api.json"⟩ = .ok linkedDocument := by
  have hitem : resolveEntry linked ⟨""⟩ linkedItem
      = .ok (.obj [("get", refersTo schemaA.reference)], [schemaA]) := by
    have href : fileReference? linkedItem = none := by decide
    rw [resolveEntry, href]
    exact internalize_single (by decide) (by decide)
      (redirect_of_kind _ target_schemaA kindOf?_schemaA ofFile_schemaA)
  exact load_shelf parse?_linked.1 hitem loadFile_schemaA fun m hm => by rw [List.mem_singleton.mp hm]

theorem references_linkedItem :
    references linkedItem = [([("$ref", .str "schemas/A.json")], "schemas/A.json")] :=
  (references_field (by decide)).trans (references_reference (by decide))

theorem asked_schemaA : Asked linked ⟨"api.json"⟩ schemaA := by
  have hrefers := refers_of_item read_linked (by decide) references_linkedItem
  rw [target_schemaA] at hrefers
  exact asked_iff.mpr ⟨_, _, hrefers, kindOf?_schemaA, ofFile_schemaA.symm⟩

theorem schemaA_registered : load linked ⟨"api.json"⟩ = .ok linkedDocument
    ∧ Asked linked ⟨"api.json"⟩ schemaA ∧ (component? linkedDocument "schemas" "A").isSome :=
  ⟨load_linked, asked_schemaA, (components_declared_or_asked load_linked).2.1 schemaA asked_schemaA⟩

/-! ### How loading ends -/

section

variable {d : Disk} {file : Path}

/-- **Loading runs to its end**: what is there before components are registered cannot be had, or the
loop ends and loads no component twice. -/
theorem exists_run_of_load (d : Disk) (file : Path) :
    (∃ e, gather d file = .error e ∧ load d file = .error e) ∨
      ∃ root paths parts wanted loaded r, gather d file = .ok (root, paths, parts, wanted)
        ∧ Runs d [] wanted.reverse parts loaded r ∧ (loaded.map Wanted.key).Nodup
        ∧ load d file = r.map (assembled root paths) := by
  cases hgather : gather d file with
  | error e =>
    refine .inl ⟨e, rfl, ?_⟩
    rw [load_eq, hgather]
    rfl
  | ok out =>
    obtain ⟨g, rfl⟩ := gather_eq_ok_iff.mp hgather
    obtain ⟨loaded, hruns⟩ := exists_runs g.named g.declared.1
    exact .inr ⟨_, _, _, _, loaded, _, rfl, hruns, hruns.nodup.1, g.load_eq⟩

/-- A source whose body needs more files one inside the other than are allowed. -/
theorem load_eq_error_of_nests {s : Source} {b c : Body} {n : Nat} (hs : Entered d file s)
    (hb : s.body? d (directoryOf file) = some b) (hn : Nests d n b c)
    (hlimit : nestingLimit < s.files + n) : ∃ e, load d file = .error e := by
  cases hload : load d file with
  | error e => exact ⟨e, rfl⟩
  | ok doc =>
    obtain ⟨b', hb', hsound⟩ := (load_isOk_iff.mp ⟨doc, hload⟩).sound s hs
    cases hb.symm.trans hb'
    have hdepth := hsound.depth n c hn
    have hfiles : s.files ≤ 1 := s.files_le
    have hone : 1 ≤ nestingLimit := by decide
    omega

/-- **How loading ends.**  The loop ends and loads no component twice; too long a chain of files one
inside the other, and so each that comes back to itself, makes loading fail; and whether loading fails
depends on each source on its own, not on how components refer to each other. -/
theorem load_ends (d : Disk) (file : Path) :
    ((∃ e, gather d file = .error e ∧ load d file = .error e) ∨
      ∃ root paths parts wanted loaded r, gather d file = .ok (root, paths, parts, wanted)
        ∧ Runs d [] wanted.reverse parts loaded r ∧ (loaded.map Wanted.key).Nodup
        ∧ load d file = r.map (assembled root paths)) ∧
    (∀ s b c n, Entered d file s → s.body? d (directoryOf file) = some b → Nests d n b c →
      nestingLimit < s.files + n → ∃ e, load d file = .error e) ∧
    (∀ s b c n k, Entered d file s → s.body? d (directoryOf file) = some b → Nests d n b c →
      Nests d (k + 1) c c → ∃ e, load d file = .error e) ∧
    ((∃ doc, load d file = .ok doc) ↔ Loadable d file) := by
  refine ⟨exists_run_of_load d file, ?_, ?_, load_isOk_iff⟩
  · intro s b c n hs hb hn hlimit
    exact load_eq_error_of_nests hs hb hn hlimit
  · intro s b c n k hs hb hn hcycle
    -- going round once more than the limit allows
    obtain ⟨l, hl, hlong⟩ := hn.repeat hcycle (nestingLimit + 1)
    exact load_eq_error_of_nests hs hb hlong (by omega)

end

/-! ### The two kinds of cycles -/

/-- An item that is to hold the document it is in. -/
def loopItem : Json := .obj [("get", refersTo "api.json")]

theorem parse?_loopItem : Json.parse? (withItem loopItem).compact = some (withItem loopItem) := by cbv

def loopBody : Body := ⟨⟨""⟩, withItem loopItem⟩

def looped : Disk := shelf "A.json" (withItem loopItem) linkedSchema

theorem target_api : Target.ofReference ⟨""⟩ "api.json" = ⟨⟨"api.json"⟩, ""⟩ :=
  ofReference_of_plain (by decide) (by decide)

theorem read_looped : read looped ⟨"api.json"⟩ = .ok (withItem loopItem) :=
  read_shelf_api parse?_loopItem

theorem body?_api : Target.body? looped ⟨⟨"api.json"⟩, ""⟩ = some loopBody :=
  body?_of_read read_looped directoryOf_api

theorem references_loopItem :
    references loopItem = [([("$ref", .str "api.json")], "api.json")] :=
  (references_field (by decide)).trans (references_reference (by decide))

/-- Whatever refers to the document is to hold it. -/
theorem inlines_api {v : Json}
    (h : references v = [([("$ref", .str "api.json")], "api.json")]) :
    Body.Inlines ⟨⟨""⟩, v⟩ ⟨⟨"api.json"⟩, ""⟩ := by
  have hmem : (([("$ref", .str "api.json")], "api.json") : List (String × Json) × String)
      ∈ references v := by
    rw [h]
    exact List.mem_singleton_self _
  have hkind : kindOf? ⟨"api.json"⟩ = none := by
    simp only [kindOf?, toLowerAscii_eq]
    decide
  exact ⟨⟨_, hmem, target_api.symm⟩, hkind⟩

/-- A document that holds itself cannot be loaded, one with a schema that refers to itself can. -/
theorem cycles_end_differently :
    (∃ e, load looped ⟨"api.json"⟩ = .error e) ∧ load linked ⟨"api.json"⟩ = .ok linkedDocument
      ∧ Loadable linked ⟨"api.json"⟩ := by
  have hstart : Starts looped ⟨"api.json"⟩ (.entry loopItem) :=
    .item read_looped (List.mem_singleton_self ("/x", loopItem))
  have hreferences : references (withItem loopItem)
      = [([("$ref", .str "api.json")], "api.json")] :=
    (references_field (by decide)).trans ((references_field (by decide)).trans references_loopItem)
  have hnests : Nests looped 1 ⟨⟨""⟩, loopItem⟩ loopBody :=
    .inside (inlines_api references_loopItem) body?_api (.here _)
  have hcycle : Nests looped 1 loopBody loopBody :=
    .inside (inlines_api hreferences) body?_api (.here _)
  obtain ⟨-, -, hcycles, -⟩ := load_ends looped ⟨"api.json"⟩
  refine ⟨hcycles _ _ _ 1 0 (.start hstart) (body?_item (by decide)) hnests hcycle, load_linked, ?_⟩
  exact (load_ends linked ⟨"api.json"⟩).2.2.2.mp ⟨_, load_linked⟩

end ApiScaffold.Document
