import ApiScaffold.Proofs.Include.Frame
import ApiScaffold.Proofs.Include.Registry
import ApiScaffold.Proofs.Include.Security
import ApiScaffold.Proofs.Yaml.Same

/-!
# A merge is a union that keeps what is there in front

Paths, components of each kind, tags and security requirements of a merged root document are unions
(`Arrival.LeftUnion`) of what the document has and what the included fragments have, in the order in
which they were registered.  `Unites` says this with what is left alone; `mergedRoot_leftUnion` is
the main result, with what it means for markers and for a second merge.
-/

namespace ApiScaffold.Include

open Arrival (LeftUnion Latest leftUnion_foldl)
open Yaml (Node Mapping)

/-! ### Entries by key -/

def hasKey (a b : Node × Node) : Bool := b.1.same a.1

theorem hasKey_trans (a b c : Node × Node) (h : hasKey a b = true) (h' : hasKey b c = true) :
    hasKey a c = true := Node.same_trans h' h

/-- **The union of entries takes each key from the first that declares it.** -/
theorem leftUnion_union (own : Mapping) (sources : List Mapping) :
    LeftUnion hasKey own sources (union own sources.flatten) := by
  have hfold : union own sources.flatten = sources.flatten.foldl
      (fun own e => if own.any (hasKey · e) then own else own ++ [e]) own := by
    rw [union_eq_foldl]
    refine List.foldl_ext _ _ own fun m e _ => ?_
    have hfind : (Mapping.find? m e.1).isSome = m.any (hasKey · e) := by
      rw [Mapping.find?, Option.isSome_map, List.isSome_find?]
      rfl
    rw [hfind]
  rw [hfold]
  exact leftUnion_foldl hasKey_trans own sources

/-! ### Items by name -/

/-- The lists of a root document whose items have names. -/
def namedSections : List (String × (Node → Option String)) :=
  [("tags", tagName?), ("security", requirementName?)]

def hasName (name? : Node → Option String) (a b : Node) : Bool := name? a == name? b

theorem hasName_trans (name? : Node → Option String) (a b c : Node) (h : hasName name? a b = true)
    (h' : hasName name? b c = true) : hasName name? a c = true := by
  rw [hasName, beq_iff_eq] at *
  exact h.trans h'

def named (name? : Node → Option String) (items : List Node) : List Node :=
  items.filter fun item => (name? item).isSome

section Named

variable (name? : Node → Option String)

theorem addNamed_append (own items more : List Node) :
    addNamed name? own (items ++ more) = addNamed name? (addNamed name? own items) more := by
  unfold addNamed
  exact List.foldl_append

theorem addNamed_eq_foldl (own items : List Node) :
    addNamed name? own items = (named name? items).foldl
      (fun own item => if own.any (hasName name? · item) then own else own ++ [item]) own := by
  induction items generalizing own with
  | nil => rfl
  | cons item rest ih =>
    rw [addNamed_cons, ih, addNamed_singleton]
    cases hname : name? item with
    | none =>
      have hdrop : named name? (item :: rest) = named name? rest :=
        List.filter_cons_of_neg (by simp [hname])
      rw [hdrop]
    | some name =>
      have hkeep : named name? (item :: rest) = item :: named name? rest :=
        List.filter_cons_of_pos (by simp [hname])
      rw [hkeep, List.foldl_cons]
      simp only [hasName, hname]

/-- **Adding named items takes each name from the first that has it.** -/
theorem leftUnion_addNamed (own : List Node) (sources : List (List Node)) :
    LeftUnion (hasName name?) own (sources.map (named name?)) (addNamed name? own sources.flatten) := by
  have hflatten : named name? sources.flatten = (sources.map (named name?)).flatten := by
    unfold named
    rw [List.filter_flatten]
  rw [addNamed_eq_foldl, hflatten]
  exact leftUnion_foldl (hasName_trans name?) own _

end Named

/-- The items in an entry of the root of a fragment that belong to the list under a key. -/
def listEntries (key : String) (e : Node × Node) : List Node :=
  match e.1.str?, e.2 with
  | some k, .seq items => if k = key then items else []
  | _, _ => []

theorem get?_addPart_of_ne {key : String} {k : Node} (h : k.str? ≠ some key) (fragment : String)
    (m : Mapping) (v : Node) : (addPart fragment m k v).1.get? key = m.get? key := by
  unfold addPart
  split
  · rename_i hk
    exact Mapping.get?_updateMap_of_ne m _ fun heq => h (heq ▸ hk)
  · rename_i hk
    exact Mapping.get?_updateMap_of_ne m _ fun heq => h (heq ▸ hk)
  · rename_i hk
    exact Mapping.get?_updateSeq_of_ne m _ fun heq => h (heq ▸ hk)
  · rename_i hk
    exact Mapping.get?_updateSeq_of_ne m _ fun heq => h (heq ▸ hk)
  · rfl

theorem addPart_of_named {key : String} {name? : Node → Option String}
    (h : (key, name?) ∈ namedSections) {k : Node} (hk : k.str? = some key) (fragment : String)
    (m : Mapping) (v : Node) : (addPart fragment m k v).1 = match v with
      | .seq items => m.updateSeq key (addNamed name? · items)
      | _ => m := by
  simp only [namedSections, List.mem_cons, Prod.mk.injEq, List.not_mem_nil, or_false] at h
  unfold addPart
  rw [hk]
  obtain ⟨rfl, rfl⟩ | ⟨rfl, rfl⟩ := h
  · cases v <;> rfl
  · cases v <;> rfl

/-- Only items change a list, by what has a new name. -/
theorem listPart?_addPart {key : String} {name? : Node → Option String}
    (h : (key, name?) ∈ namedSections) (fragment : String) (m : Mapping) (e : Node × Node) :
    (addPart fragment m e.1 e.2).1.listPart? key
      = (m.listPart? key).map (addNamed name? · (listEntries key e)) := by
  -- another key, or what is no list, adds nothing
  have hnil : m.listPart? key = (m.listPart? key).map (addNamed name? · []) := by
    cases m.listPart? key with
    | none => rfl
    | some own => rfl
  obtain ⟨k, v⟩ := e
  by_cases hk : k.str? = some key
  · rw [addPart_of_named h hk, listEntries, hk]
    cases v with
    | seq items =>
      simp only [if_true]
      exact Mapping.listPart?_updateSeq_self m key _
    | _ => exact hnil
  · have hentries : listEntries key (k, v) = [] := by
      unfold listEntries
      split
      · rename_i k' items hk' hv
        refine if_neg fun heq => hk ?_
        rw [hk', heq]
      · rfl
    rw [hentries]
    exact (Mapping.listPart?_congr (get?_addPart_of_ne hk fragment m v)).trans hnil

/-- **The items of a list after all fragments.** -/
theorem listPart?_addRoots {key : String} {name? : Node → Option String}
    (h : (key, name?) ∈ namedSections) (root : Mapping) (fragments : List (String × Mapping)) :
    (addRoots root fragments).listPart? key = (root.listPart? key).map
      (addNamed name? · (fragments.flatMap fun f => f.2.flatMap (listEntries key))) :=
  view_addRoots (·.listPart? key) (fun _ => rfl) (addNamed_append name?)
    (listPart?_addPart h) root fragments

/-! ### Components -/

/-- The components of a fragment keep the kinds that are there, in their order. -/
theorem keys_addComponents (fragment : String) (own source : Mapping) :
    own.map Prod.fst <+: (addComponents fragment own source).1.map Prod.fst := by
  rw [addComponents_fst]
  refine List.foldlRecOn (motive := fun m : Mapping => own.map Prod.fst <+: m.map Prod.fst) source _
    (List.prefix_refl _) fun m hm e _ => hm.trans ?_
  unfold addKind
  split
  · exact keys_updateMap m _ _
  · exact List.prefix_refl _

/-- A root document whose components have certain kinds in front. -/
def KindsBegin (keys : List Node) (m : Mapping) : Prop :=
  ∃ components, m.part? "components" = some components ∧ keys <+: components.map Prod.fst

theorem KindsBegin.updateMap {ω : Type} {keys : List Node} {m : Mapping} (h : KindsBegin keys m)
    (change : Mapping → Mapping × List ω)
    (hchange : ∀ own, own.map Prod.fst <+: (change own).1.map Prod.fst) :
    KindsBegin keys (m.updateMap "components" change).1 := by
  obtain ⟨components, hpart, hkeys⟩ := h
  refine ⟨(change components).1, ?_, hkeys.trans (hchange components)⟩
  rw [Mapping.part?_updateMap_self, hpart]
  rfl

theorem KindsBegin.congr {keys : List Node} {m m' : Mapping} (h : KindsBegin keys m)
    (heq : m'.get? "components" = m.get? "components") : KindsBegin keys m' := by
  obtain ⟨components, hpart, hkeys⟩ := h
  exact ⟨components, (Mapping.part?_congr heq).trans hpart, hkeys⟩

theorem KindsBegin.addPart {keys : List Node} {m : Mapping} (h : KindsBegin keys m)
    (fragment : String) (k v : Node) : KindsBegin keys (addPart fragment m k v).1 := by
  by_cases hk : k.str? = some "components"
  · unfold Include.addPart
    rw [hk]
    cases v with
    | map components => exact h.updateMap _ fun own => keys_addComponents fragment own components
    | _ => exact h
  · exact h.congr (get?_addPart_of_ne hk fragment m v)

theorem KindsBegin.declareFiles {keys : List Node} {m : Mapping} (h : KindsBegin keys m)
    (kind : String) (files : List String) : KindsBegin keys (declareFiles m kind files) := by
  unfold Include.declareFiles
  split
  · exact h
  · exact h.updateMap _ fun own => keys_updateMap own kind _

/-- The components of a kind that are declared because they lie in files. -/
def filed (d : Disk) (scratch : Path) (kind : String) (entries : Mapping) : Mapping :=
  if kind ∈ Document.kinds then lacking kind entries (componentFiles d scratch kind) else []

theorem kindPart?_declareAll_filed (d : Disk) (scratch : Path) (root : Mapping) (kind : String) :
    kindPart? (declareAll d scratch root) kind
      = (kindPart? root kind).map fun entries => entries ++ filed d scratch kind entries := by
  unfold filed
  by_cases hkind : kind ∈ Document.kinds
  · simp only [hkind, if_true]
    rw [kindPart?_declareAll d scratch root hkind]
    congr 1
    funext entries
    exact foldl_declare kind entries _
  · simp only [hkind, if_false, List.append_nil, Option.map_id_fun', id_eq]
    refine List.foldlRecOn (motive := fun m : Mapping => kindPart? m kind = kindPart? root kind) _ _
      rfl fun m hm k hk => ?_
    have hne : kind ≠ k := fun heq => hkind (heq ▸ hk)
    rw [kindPart?_declareFiles, hm]
    simp only [hne, if_false, Option.map_id_fun', id_eq]

theorem get?_declareAll_of_ne {key : String} (h : key ≠ "components") (d : Disk) (scratch : Path)
    (root : Mapping) : (declareAll d scratch root).get? key = root.get? key := by
  refine List.foldlRecOn (motive := fun m : Mapping => m.get? key = root.get? key) _ _ rfl
    fun m hm kind _ => ?_
  unfold declareFiles
  split
  · exact hm
  · exact (Mapping.get?_updateMap_of_ne m _ h).trans hm

/-! ### The main result -/

/-- The path items that the root of a fragment declares. -/
def pathItems (source : Mapping) : Mapping := source.flatMap fun e => pathEntries e.1 e.2

/-- The components of a kind that it declares. -/
def componentItems (kind : String) (source : Mapping) : Mapping :=
  source.flatMap fun e => componentEntries kind e.1 e.2

def namedItems (key : String) (name? : Node → Option String) (source : Mapping) : List Node :=
  named name? (source.flatMap (listEntries key))

/-- **A root document united with the roots of fragments.**  Each part that is a mapping or a list, null
or absent, is a union; components that lie in files come behind it.  Nothing else changes, but for
markers. -/
structure Unites (d : Disk) (scratch : Path) (root : Mapping) (sources : List Mapping)
    (whole : Mapping) : Prop where
  paths : ∀ own, root.part? "paths" = some own → ∃ united,
    whole.part? "paths" = some united ∧ LeftUnion hasKey own (sources.map pathItems) united
  components : ∀ own, root.part? "components" = some own → ∃ united,
    whole.part? "components" = some united ∧ own.map Prod.fst <+: united.map Prod.fst
  kinds : ∀ kind own, kindPart? root kind = some own → ∃ united,
    kindPart? whole kind = some (united ++ filed d scratch kind united) ∧
      LeftUnion hasKey own (sources.map (componentItems kind)) united
  tags : ∀ own, root.listPart? "tags" = some own → ∃ united,
    whole.listPart? "tags" = some united ∧
      LeftUnion (hasName tagName?) own (sources.map (namedItems "tags" tagName?)) united
  security : ∀ own, root.listPart? "security" = some own → ∃ united,
    whole.listPart? "security" = some united ∧
      LeftUnion (hasName requirementName?) own
        (sources.map (namedItems "security" requirementName?)) united
  others : others whole = withoutMarkers (others root)
  keys : (withoutMarkers root).map Prod.fst <+: whole.map Prod.fst
  unmarked : ∀ e ∈ whole, marked? e.1 = none

section Sections

variable (d : Disk) (scratch : Path) (root : Mapping) (fragments : List (String × Mapping))

theorem part?_paths_united {own : Mapping} (hown : root.part? "paths" = some own) :
    ∃ united, (declareAll d scratch (addRoots root fragments)).part? "paths" = some united ∧
      LeftUnion hasKey own (fragments.map fun f => pathItems f.2) united := by
  refine ⟨_, ?_, leftUnion_union own _⟩
  rw [part?_declareAll_paths, part?_addRoots_paths, hown]
  rfl

theorem part?_components_united {own : Mapping} (hown : root.part? "components" = some own) :
    KindsBegin (own.map Prod.fst) (declareAll d scratch (addRoots root fragments)) := by
  have hbegin : KindsBegin (own.map Prod.fst) root := ⟨own, hown, List.prefix_refl _⟩
  have hroots : KindsBegin (own.map Prod.fst) (addRoots root fragments) :=
    addRoots_induction fragments hbegin fun fragment m k v hm => hm.addPart fragment k v
  exact List.foldlRecOn _ _ hroots fun m hm kind _ => hm.declareFiles kind _

theorem kindPart?_united {kind : String} {own : Mapping} (hown : kindPart? root kind = some own) :
    ∃ united, kindPart? (declareAll d scratch (addRoots root fragments)) kind
        = some (united ++ filed d scratch kind united) ∧
      LeftUnion hasKey own (fragments.map fun f => componentItems kind f.2) united := by
  refine ⟨_, ?_, leftUnion_union own _⟩
  rw [kindPart?_declareAll_filed, kindPart?_addRoots, hown]
  rfl

theorem listPart?_united {key : String} {name? : Node → Option String}
    (h : (key, name?) ∈ namedSections) (hkey : key ≠ "components") {own : List Node}
    (hown : root.listPart? key = some own) :
    ∃ united, (declareAll d scratch (addRoots root fragments)).listPart? key = some united ∧
      LeftUnion (hasName name?) own (fragments.map fun f => namedItems key name? f.2) united := by
  have hunion := leftUnion_addNamed name? own (fragments.map fun f => f.2.flatMap (listEntries key))
  rw [List.map_map] at hunion
  refine ⟨_, ?_, hunion⟩
  rw [Mapping.listPart?_congr (get?_declareAll_of_ne hkey d scratch _), listPart?_addRoots h, hown]
  rfl

end Sections

/-- **A merged root document unites the root and the fragments.** -/
theorem unites_mergedRoot (d : Disk) (scratch : Path) (root : Mapping) (fragments : List Fragment) :
    Unites d scratch root ((fragments.filterMap fragmentRoot?).map Prod.snd)
      (mergedRoot d scratch root fragments) := by
  -- markers are dropped beforehand, and no section is under a marker
  have hget : ∀ s ∈ sections, (withoutMarkers root).get? s = root.get? s :=
    fun s hs => get?_withoutMarkers root (marked?_of_mem_sections hs)
  have hothers : others (withoutMarkers root) = withoutMarkers (others root) :=
    List.filter_comm _ _ _
  have hunmarked : ∀ e ∈ mergedRoot d scratch root fragments, marked? e.1 = none :=
    fun e he => marked?_of_mem_mergedRoot he
  rw [mergedRoot_eq] at hunmarked ⊢
  constructor
  case paths =>
    intro own hown
    rw [← Mapping.part?_congr (hget "paths" (by decide))] at hown
    rw [List.map_map]
    exact part?_paths_united d scratch _ _ hown
  case components =>
    intro own hown
    rw [← Mapping.part?_congr (hget "components" (by decide))] at hown
    exact part?_components_united d scratch _ _ hown
  case kinds =>
    intro kind own hown
    rw [← kindPart?_congr (Mapping.part?_congr (hget "components" (by decide)))] at hown
    rw [List.map_map]
    exact kindPart?_united d scratch _ _ hown
  case tags =>
    intro own hown
    rw [← Mapping.listPart?_congr (hget "tags" (by decide))] at hown
    rw [List.map_map]
    exact listPart?_united d scratch _ _ (by simp [namedSections]) (by decide) hown
  case security =>
    intro own hown
    rw [← Mapping.listPart?_congr (hget "security" (by decide))] at hown
    rw [List.map_map]
    exact listPart?_united d scratch _ _ (by simp [namedSections]) (by decide) hown
  case others => rw [others_declareAll_addRoots, hothers]
  case keys => exact keys_declareAll_addRoots d scratch _ _
  case unmarked => exact hunmarked

/-- **The order of the markers does not count.** -/
theorem mergedRoot_perm {root root' : Mapping} (h : root.Perm root')
    (hrest : withoutMarkers root' = withoutMarkers root) (fs : Fragments) (d : Disk)
    (scratch : Path) : mergedRoot d scratch root' (enabled fs root').1
      = mergedRoot d scratch root (enabled fs root).1 := by
  have hasked : ∀ name, asks root' name = asks root name := fun name => (asks_perm h name).symm
  have henabled : (enabled fs root').1 = (enabled fs root).1 := by
    rw [enabled_fst, enabled_fst]
    simp only [hasked]
  rw [mergedRoot_eq, mergedRoot_eq, hrest, henabled]

/-- What is written is the merged root of the document at `spec`. -/
def WritesMerged (fs : Fragments) (d : Disk) (spec : Path) (m : Merged) : Prop :=
  ∃ text root, d.readText spec = .ok text ∧ Yaml.parse? text = some (.map root) ∧
    ∃ filled : Disk, filled.writeText m.file
      (rootText m.file (mergedRoot filled (freshScratch d) root (enabled fs root).1)) = .ok m.disk

theorem writesMerged_of_merge {fs : Fragments} {d : Disk} {spec : Path} {m : Merged}
    (h : merge fs d spec = .ok m) (hcopied : m.scratch.isSome) : WritesMerged fs d spec m := by
  rcases merge_eq_ok h with ⟨hnone, -⟩ | ⟨-, ⟨g⟩⟩
  · rw [hnone] at hcopied
    cases hcopied
  · exact ⟨g.text, g.root, g.readText_eq, g.parse_eq, g.filled, g.disk_eq⟩

/-- **A merge of a root document with the fragments that it asks for.**  Fragments that were registered
are included in the order in which their names came first, each as it was registered last; the merged
document unites them, does not depend on the order of the markers, and asks for nothing.  This is the
document that `merge` writes. -/
theorem mergedRoot_leftUnion (given : List Fragment) (d : Disk) (scratch : Path) (root : Mapping) :
    let fs := Fragments.ofRegistrations given
    let included := (enabled fs root).1
    let whole := mergedRoot d scratch root included
    Latest (·.name) given fs.list ∧
      included = fs.list.filter (fun f => asks root f.name) ∧
      Unites d scratch root ((included.filterMap fragmentRoot?).map Prod.snd) whole ∧
      (∀ root', root.Perm root' → withoutMarkers root' = withoutMarkers root →
        mergedRoot d scratch root' (enabled fs root').1 = whole) ∧
      (∀ fs' : Fragments, (enabled fs' whole).1 = []) ∧
      ∀ start spec m, merge fs start spec = .ok m → m.scratch.isSome →
        WritesMerged fs start spec m := by
  intro fs included whole
  have hunites := unites_mergedRoot d scratch root included
  refine ⟨Fragments.latest_ofRegistrations given, enabled_fst fs root, hunites, ?_, ?_, ?_⟩
  · exact fun root' hperm hrest => mergedRoot_perm hperm hrest fs d scratch
  · exact fun fs' => enabled_of_unmarked hunites.unmarked
  · exact fun start spec m h hcopied => writesMerged_of_merge h hcopied

end ApiScaffold.Include
