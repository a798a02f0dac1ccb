import ApiScaffold.Proofs.Document.Ending

/-!
# What a reference to a component finds

A reference to the file of a component becomes a reference to the component, which is looked up by its
kind and by the name that the last segment of the reference stands for.  What is found is the whole of
a file of that kind and name; the pointer of the reference is not followed, and a name with an escape
is looked up as another.
-/

namespace ApiScaffold

namespace Reference

/-- The name that a segment of a reference stands for. -/
def unescaped (segment : String) : String := String.ofList (unescape segment.toList)

theorem lastSegment_append {s name : List Char} (h : '/' ∉ name) :
    lastSegment (s ++ '/' :: name) = name := by
  have hname : ∀ c ∈ name.reverse, (c != '/') = true := by
    intro c hc
    rw [bne_iff_ne]
    rintro rfl
    exact h (List.mem_reverse.mp hc)
  unfold lastSegment
  rw [List.reverse_append, List.reverse_cons, List.append_assoc, List.takeWhile_append_of_pos hname]
  simp

theorem lookup_components (doc : Json) (kind name : String) :
    (components doc kind).lookup name = Document.component? doc kind name := by
  unfold components Document.component? Json.fields Json.getObj?
  cases doc.get? "components" with
  | none => rfl
  | some parts =>
    cases parts with
    | obj parts =>
      show ((((Json.obj parts).get? kind).bind Json.obj?).getD []).lookup name
        = Document.componentAt? parts kind name
      unfold Document.componentAt? Json.get?
      dsimp only
      cases parts.lookup kind with
      | none => rfl
      | some part =>
        cases part with
        | obj entries => rfl
        | _ => rfl
    | _ => rfl

end Reference

namespace Document

/-- The component that is found behind the reference to it. -/
def found? (doc : Json) (w : Wanted) : Option Json :=
  (Reference.components doc w.kind).lookup (Reference.target w.reference)

theorem target_reference {w : Wanted} (h : '/' ∉ w.name.toList) :
    Reference.target w.reference = Reference.unescaped w.name := by
  rw [Reference.target, w.toList_reference, Reference.lastSegment_append h]
  rfl

theorem found?_eq (doc : Json) (kind : String) (file : Path) :
    found? doc (.ofFile kind file)
      = component? doc kind (Reference.unescaped (file.stem?.getD "")) := by
  have hslash : '/' ∉ (Wanted.ofFile kind file).name.toList := file.slash_not_mem_stem
  rw [found?, target_reference hslash, Reference.lookup_components]
  rfl

section

variable {d : Disk} {file : Path}

/-- **What a reference finds**, if the root does not declare its component: the name in it is looked
up as what it stands for, and under the name itself is the whole of a file that has this name.  That
is what the reference points at if the name has no escape, the reference no pointer, and no other
file of its kind the same name. -/
theorem found?_of_refers {doc root : Json} {t : Target} {kind : String} (h : load d file = .ok doc)
    (hread : read d file = .ok root) (ht : Refers d file t) (hkind : kindOf? t.file = some kind)
    (hroot : component? root kind (t.file.stem?.getD "") = none) :
    found? doc (.ofFile kind t.file)
        = component? doc kind (Reference.unescaped (t.file.stem?.getD "")) ∧
    (∃ t' out, Refers d file t' ∧ kindOf? t'.file = some kind ∧ t'.file.stem?.getD "" = t.file.stem?.getD ""
      ∧ loadFile d t'.file = .ok out ∧ component? doc kind (t.file.stem?.getD "") = some out.1) ∧
    (Reference.unescaped (t.file.stem?.getD "") = t.file.stem?.getD "" → t.pointer = "" →
      (∀ t', Refers d file t' → kindOf? t'.file = some kind →
        t'.file.stem?.getD "" = t.file.stem?.getD "" → t'.file = t.file) →
      ∃ out, loadTarget d nestingLimit t = .ok out
        ∧ found? doc (.ofFile kind t.file) = some out.1) := by
  have hfound := found?_eq doc kind t.file
  have hasked : Asked d file (.ofFile kind t.file) := asked_iff.mpr ⟨t, kind, ht, hkind, rfl⟩
  obtain ⟨a⟩ := exists_loaded h
  obtain ⟨v, hv⟩ := Option.isSome_iff_exists.mp (a.component?_isSome_of_asked hasked)
  obtain ⟨s, out, hs, hout, rfl⟩ := a.component?_eq_some_iff.mp hv
  cases hs with
  | declared hread' hentry =>
    cases hread.symm.trans hread'
    cases hroot.symm.trans hentry
  | @registered _ w _ _ hw hkey =>
  -- the component was asked for through some reference `t'`, not always through `t`
  obtain ⟨t', kind', ht', hkind', rfl⟩ := asked_iff.mp hw.asked
  obtain ⟨rfl, hname⟩ := Prod.mk.inj hkey
  refine ⟨hfound, ⟨t', out, ht', hkind', hname, hout, hv⟩, ?_⟩
  intro hescape hpointer hsame
  obtain ⟨f, pointer⟩ := t
  cases hpointer
  have hfile : t'.file = f := hsame t' ht' hkind' hname
  refine ⟨out, ?_, ?_⟩
  · rw [← hfile]
    exact hout
  · rw [hfound, hescape]
    exact hv

end

/-! ### A name that one file has -/

/-- A body whose references are all to the schema holds no other body. -/
theorem Nests.eq_of_schemaA {d : Disk} {n : Nat} {b c : Body} (h : Nests d n b c)
    (hb : ∀ t, b.Mentions t → t.file = schemaA.file) : c = b := by
  cases h with
  | here => rfl
  | inside ht =>
    have hkind := ht.2
    rw [hb _ ht.1, kindOf?_schemaA] at hkind
    cases hkind

theorem mentions_linkedItem {t : Target} (h : Body.Mentions ⟨⟨""⟩, linkedItem⟩ t) :
    t.file = schemaA.file := by
  obtain ⟨m, hm, rfl⟩ := h
  dsimp only at hm
  rw [references_linkedItem, List.mem_singleton] at hm
  rw [hm, target_schemaA]

theorem mentions_linkedSchema {t : Target} (h : Body.Mentions ⟨⟨"schemas"⟩, linkedSchema⟩ t) :
    t.file = schemaA.file := by
  have href : references linkedSchema = [([("$ref", .str "A.json")], "A.json")] :=
    (references_field (by decide)).trans (references_reference (by decide))
  obtain ⟨m, hm, rfl⟩ := h
  dsimp only at hm
  rw [href, List.mem_singleton] at hm
  rw [hm, target_sibling]

/-- All that is entered refers to the schema only. -/
theorem mentions_of_entered {s : Source} (h : Entered linked ⟨"api.json"⟩ s) {b : Body}
    (hb : s.body? linked (directoryOf ⟨"api.json"⟩) = some b) :
    ∀ t, b.Mentions t → t.file = schemaA.file := by
  -- on how a source is entered: while bodies refer to the schema only, only its file comes next
  induction h generalizing b with
  | start hs =>
    cases hs with
    | item hread hp =>
      cases hread.symm.trans read_linked
      cases List.mem_singleton.mp hp
      cases hb.symm.trans (body?_item (by decide))
      exact fun t ht => mentions_linkedItem ht
    | declared hread hkind =>
      cases hread.symm.trans read_linked
      cases hkind
    | discovered _ _ hfiles hf =>
      rw [directoryOf_api] at hfiles
      cases hfiles.symm.trans pathFiles_shelf
      cases hf
  | @registered s w hs hwants _ ih =>
    obtain ⟨b', n, c, hb', hn, hasks⟩ := hwants
    cases hn.eq_of_schemaA (ih hb')
    obtain ⟨t, kind, ht, -, rfl⟩ := Body.asks_iff.mp hasks
    have hfile : (Wanted.ofFile kind t.file).file = schemaA.file := ih hb' t ht
    rw [Source.body?, hfile] at hb
    cases hb.symm.trans (body?_of_read read_schemaA directoryOf_schemaA)
    exact fun t ht => mentions_linkedSchema ht

theorem found?_schemaA : load linked ⟨"api.json"⟩ = .ok linkedDocument
    ∧ ∃ out, loadTarget linked nestingLimit ⟨schemaA.file, ""⟩ = .ok out
      ∧ found? linkedDocument schemaA = some out.1 := by
  have hrefers := refers_of_item read_linked (by decide) references_linkedItem
  rw [target_schemaA] at hrefers
  have hstem : schemaA.file.stem? = some "A" := by decide
  have hescape : Reference.unescaped (schemaA.file.stem?.getD "") = schemaA.file.stem?.getD "" := by
    rw [hstem]
    decide
  have hundeclared : component? (withItem linkedItem) "schemas" (schemaA.file.stem?.getD "") = none :=
    rfl
  have hsame : ∀ t', Refers linked ⟨"api.json"⟩ t' → t'.file = schemaA.file := by
    rintro t' ⟨s, b, n, c, hs, hb, hn, ht⟩
    have hmentions := mentions_of_entered hs hb
    cases hn.eq_of_schemaA hmentions
    exact hmentions t' ht
  have hfound := found?_of_refers load_linked read_linked hrefers kindOf?_schemaA hundeclared
  obtain ⟨out, hout, hsome⟩ := hfound.2.2 hescape rfl fun t' ht' _ _ => hsame t' ht'
  dsimp only at hsome
  rw [ofFile_schemaA] at hsome
  exact ⟨load_linked, out, hout, hsome⟩

/-! ### A name with an escape -/

/-- An item that refers to a file whose name has a tilde and a one. -/
def tildeItem : Json := .obj [("get", refersTo "schemas/a~1b.json")]

def tildeSchema : Json := .obj [("type", .str "string")]

theorem parse?_tilde : Json.parse? (withItem tildeItem).compact = some (withItem tildeItem)
    ∧ Json.parse? tildeSchema.compact = some tildeSchema := by
  constructor
  all_goals cbv

def schemaTilde : Wanted := ⟨"schemas", "a~1b", ⟨"schemas/a~1b.json"⟩⟩

def tilde : Disk := shelf "a~1b.json" (withItem tildeItem) tildeSchema

theorem target_tilde : Target.ofReference ⟨""⟩ "schemas/a~1b.json" = ⟨schemaTilde.file, ""⟩ :=
  ofReference_of_plain (by decide) (by decide)

theorem kindOf?_tilde : kindOf? schemaTilde.file = some schemaTilde.kind := by
  simp only [kindOf?, toLowerAscii_eq]
  decide

theorem ofFile_tilde : Wanted.ofFile schemaTilde.kind schemaTilde.file = schemaTilde := by
  rw [Wanted.ofFile, show schemaTilde.file.stem? = some "a~1b" by decide]
  rfl

theorem loadFile_tilde : loadFile tilde schemaTilde.file = .ok (tildeSchema, []) := by
  have hread : read tilde schemaTilde.file = .ok tildeSchema :=
    read_shelf_schema (by decide) (by decide) (by decide) (by decide) parse?_tilde.2
  have hbase : directoryOf schemaTilde.file = ⟨"schemas"⟩ := by decide
  exact loadFile_of_read hread hbase rfl

/-- **Not every reference finds what it points at**: `~1` in the name of a file stays as it is in the
reference, where it is read as a slash. -/
theorem not_forall_found : ¬ ∀ (d : Disk) (file : Path) (doc root : Json) (t : Target) (kind : String),
    load d file = .ok doc → read d file = .ok root → Refers d file t → kindOf? t.file = some kind →
    component? root kind (t.file.stem?.getD "") = none →
    ∃ out, loadTarget d nestingLimit t = .ok out ∧ found? doc (.ofFile kind t.file) = some out.1 := by
  intro h
  have hread : read tilde ⟨"api.json"⟩ = .ok (withItem tildeItem) := read_shelf_api parse?_tilde.1
  have hitem : resolveEntry tilde ⟨""⟩ tildeItem
      = .ok (.obj [("get", refersTo schemaTilde.reference)], [schemaTilde]) := by
    have href : fileReference? tildeItem = none := by decide
    rw [resolveEntry, href]
    exact internalize_single (by decide) (by decide)
      (redirect_of_kind _ target_tilde kindOf?_tilde ofFile_tilde)
  have hload := load_shelf parse?_tilde.1 hitem loadFile_tilde fun m hm => absurd hm List.not_mem_nil
  have hreferences : references tildeItem
      = [([("$ref", .str "schemas/a~1b.json")], "schemas/a~1b.json")] :=
    (references_field (by decide)).trans (references_reference (by decide))
  have hrefers := refers_of_item hread (by decide) hreferences
  rw [target_tilde] at hrefers
  obtain ⟨out, -, hfound⟩ := h _ _ _ _ _ _ hload hread hrefers kindOf?_tilde rfl
  have hname : Reference.unescaped (schemaTilde.file.stem?.getD "") = "a/b" := by decide
  rw [found?_eq, hname, component?_assembled] at hfound
  cases hfound

end Document
end ApiScaffold
