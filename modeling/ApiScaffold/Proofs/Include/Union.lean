import ApiScaffold.Include.Merge
import ApiScaffold.Proofs.Yaml.Part

/-!
# The entries of a merged root document

What the paths and the components of a root document are after the roots of fragments are added and
the components that lie in files are declared: its own entries first, then those whose keys are new
(`fresh`), in their order.
-/

namespace ApiScaffold.Include

open Yaml (Node Mapping IsWord)

def addRoots (root : Mapping) (fragments : List (String × Mapping)) : Mapping :=
  fragments.foldl (fun root f => (addRoot f.1 root f.2).1) root

/-- The entries of `source` whose keys neither `own` nor an earlier entry has. -/
def fresh (own : Mapping) : Mapping → Mapping
  | [] => []
  | e :: rest =>
    if (Mapping.find? own e.1).isSome then fresh own rest else e :: fresh (own ++ [e]) rest

/-- The entries of a mapping, and behind them those of `source` that are new. -/
def union (own source : Mapping) : Mapping := own ++ fresh own source

/-- The path items in an entry of the root of a fragment. -/
def pathEntries (key value : Node) : Mapping :=
  match key.str?, value with
  | some "paths", .map paths => paths
  | _, _ => []

/-- The components of a kind in an entry of the components of a fragment. -/
def kindEntries (kind : String) (key value : Node) : Mapping :=
  match key.str?, value with
  | some k, .map entries => if k = kind then entries else []
  | _, _ => []

/-- The components of a kind in an entry of the root of a fragment. -/
def componentEntries (kind : String) (key value : Node) : Mapping :=
  match key.str?, value with
  | some "components", .map components => components.flatMap fun e => kindEntries kind e.1 e.2
  | _, _ => []

/-! ### One part after the other -/

theorem addRoot_eq_foldl (fragment : String) (root source : Mapping) :
    (addRoot fragment root source).1
      = source.foldl (fun root e => (addPart fragment root e.1 e.2).1) root := by
  unfold addRoot
  refine (List.foldl_hom Prod.fst ?_).symm
  intro acc e
  rfl

theorem addRoots_eq_foldl (root : Mapping) (fragments : List (String × Mapping)) :
    addRoots root fragments = (fragments.flatMap fun f => f.2.map fun e => (f.1, e)).foldl
      (fun root e => (addPart e.1 root e.2.1 e.2.2).1) root := by
  unfold addRoots
  rw [List.foldl_flatMap]
  congr 1
  funext root f
  rw [addRoot_eq_foldl, List.foldl_map]

/-- What each part of a fragment keeps holds after all fragments. -/
theorem addRoots_induction {P : Mapping → Prop} {root : Mapping}
    (fragments : List (String × Mapping)) (h : P root)
    (hpart : ∀ fragment root key value, P root → P (addPart fragment root key value).1) :
    P (addRoots root fragments) := by
  rw [addRoots_eq_foldl]
  refine List.foldlRecOn _ _ h ?_
  intro root h e _
  exact hpart e.1 root e.2.1 e.2.2 h

/-! ### Unions of entries -/

theorem union_cons (own : Mapping) (e : Node × Node) (source : Mapping) :
    union own (e :: source)
      = union (if (Mapping.find? own e.1).isSome then own else own ++ [e]) source := by
  unfold union
  rw [fresh]
  split
  · rfl
  · rw [List.append_assoc]
    rfl

theorem union_nil (own : Mapping) : union own [] = own := List.append_nil own

theorem union_eq_foldl (own source : Mapping) :
    union own source = source.foldl
      (fun own e => if (Mapping.find? own e.1).isSome then own else own ++ [e]) own := by
  induction source generalizing own with
  | nil => exact union_nil own
  | cons e rest ih => rw [union_cons, ih, List.foldl_cons]

theorem union_append (own source more : Mapping) :
    union own (source ++ more) = union (union own source) more := by
  rw [union_eq_foldl, List.foldl_append, ← union_eq_foldl, ← union_eq_foldl]

theorem addEntries_fst (fragment part : String) (own source : Mapping) :
    (addEntries fragment part own source).1 = union own source := by
  rw [union_eq_foldl]
  unfold addEntries
  refine (List.foldl_hom Prod.fst ?_).symm
  intro acc e
  cases hfind : Mapping.find? acc.1 e.1 with
  | none => simp only [hfind, Option.isSome_none, Bool.false_eq_true, if_false]
  | some own =>
    simp only [hfind, Option.isSome_some, if_true]
    split
    · rfl
    · rfl

theorem field?_union (own source : Mapping) (text : String) :
    (union own source).field? text = ((fresh own source).field? text).or (own.field? text) :=
  Mapping.field?_append _ _ _

/-! ### Paths -/

theorem map_union_nil (own : Option Mapping) : own.map (union · []) = own := by
  cases own with
  | none => rfl
  | some own => rw [Option.map_some, union_nil]

theorem part?_addPart_paths (fragment : String) (m : Mapping) (key value : Node) :
    (addPart fragment m key value).1.part? "paths"
      = (m.part? "paths").map (union · (pathEntries key value)) := by
  unfold addPart pathEntries
  -- the cases are those of `addPart`, and only the first concerns paths
  split
  · rename_i paths hkey
    simp only [hkey]
    rw [Mapping.part?_updateMap_self]
    simp only [addEntries_fst]
  · rename_i hkey
    simp only [hkey]
    rw [Mapping.part?_updateMap_of_ne m _ (by decide)]
    exact (map_union_nil _).symm
  · rename_i hkey
    simp only [hkey]
    rw [Mapping.part?_updateSeq_of_ne m (by decide)]
    exact (map_union_nil _).symm
  · rename_i hkey
    simp only [hkey]
    rw [Mapping.part?_updateSeq_of_ne m (by decide)]
    exact (map_union_nil _).symm
  · split
    · rename_i paths hkey hpaths _ _ _
      exact (hpaths paths hkey rfl).elim
    · exact (map_union_nil _).symm

def fragmentPaths (fragments : List (String × Mapping)) : Mapping :=
  fragments.flatMap fun f => f.2.flatMap fun e => pathEntries e.1 e.2

/-- What each part adds to what is seen of a root document, all parts of all fragments add. -/
theorem view_addRoots {σ β : Type} (view : Mapping → Option σ) {add : σ → List β → σ}
    (hnil : ∀ own, add own [] = own)
    (happend : ∀ own source more, add own (source ++ more) = add (add own source) more)
    {entries : Node × Node → List β}
    (hpart : ∀ fragment m e, view (addPart fragment m e.1 e.2).1 = (view m).map (add · (entries e)))
    (root : Mapping) (fragments : List (String × Mapping)) :
    view (addRoots root fragments)
      = (view root).map (add · (fragments.flatMap fun f => f.2.flatMap entries)) := by
  have hnone : ∀ own : Option σ, own = own.map (add · []) := by
    intro own
    cases own with
    | none => rfl
    | some own => rw [Option.map_some, hnil]
  -- first over the entries of one fragment, then over the fragments
  have hroot : ∀ (fragment : String) (source m : Mapping),
      view (addRoot fragment m source).1 = (view m).map (add · (source.flatMap entries)) := by
    intro fragment source m
    rw [addRoot_eq_foldl]
    induction source generalizing m with
    | nil => exact hnone _
    | cons e rest ih =>
      rw [List.foldl_cons, ih, hpart, List.flatMap_cons, Option.map_map]
      congr 1
      funext own
      exact (happend _ _ _).symm
  unfold addRoots
  induction fragments generalizing root with
  | nil => exact hnone _
  | cons f rest ih =>
    rw [List.foldl_cons, ih, hroot, List.flatMap_cons, Option.map_map]
    congr 1
    funext own
    exact (happend _ _ _).symm

/-- **The paths after all fragments.** -/
theorem part?_addRoots_paths (root : Mapping) (fragments : List (String × Mapping)) :
    (addRoots root fragments).part? "paths"
      = (root.part? "paths").map (union · (fragmentPaths fragments)) :=
  view_addRoots (·.part? "paths") union_nil union_append
    (fun fragment m e => part?_addPart_paths fragment m e.1 e.2) root fragments

/-! ### Components -/

def kindPart? (root : Mapping) (kind : String) : Option Mapping :=
  (root.part? "components").bind (·.part? kind)

def fragmentComponents (kind : String) (fragments : List (String × Mapping)) : Mapping :=
  fragments.flatMap fun f => f.2.flatMap fun e => componentEntries kind e.1 e.2

def addKind (fragment : String) (own : Mapping) (key value : Node) : Mapping :=
  match key.str?, value with
  | some kind, .map entries => (own.updateMap kind (addEntries fragment kind · entries)).1
  | _, _ => own

theorem addComponents_fst (fragment : String) (own source : Mapping) :
    (addComponents fragment own source).1
      = source.foldl (fun own e => addKind fragment own e.1 e.2) own := by
  unfold addComponents
  refine (List.foldl_hom Prod.fst ?_).symm
  intro acc e
  obtain ⟨own, ws⟩ := acc
  obtain ⟨key, value⟩ := e
  cases hkey : key.str? with
  | none => simp only [addKind, hkey]
  | some kind =>
    cases value with
    | map entries => simp only [addKind, hkey]
    | _ => simp only [addKind, hkey]

theorem part?_addKind (fragment kind : String) (own : Mapping) (key value : Node) :
    (addKind fragment own key value).part? kind
      = (own.part? kind).map (union · (kindEntries kind key value)) := by
  unfold addKind kindEntries
  split
  · rename_i k entries hkey
    by_cases hk : k = kind
    · subst hk
      rw [Mapping.part?_updateMap_self, if_pos rfl]
      simp only [addEntries_fst]
    · rw [Mapping.part?_updateMap_of_ne own _ (Ne.symm hk), if_neg hk, map_union_nil]
  · exact (map_union_nil _).symm

theorem part?_addComponents (fragment kind : String) (own source : Mapping) :
    (addComponents fragment own source).1.part? kind
      = (own.part? kind).map (union · (source.flatMap fun e => kindEntries kind e.1 e.2)) := by
  rw [addComponents_fst]
  induction source generalizing own with
  | nil => exact (map_union_nil _).symm
  | cons e rest ih =>
    rw [List.foldl_cons, ih, part?_addKind, List.flatMap_cons, Option.map_map]
    congr 1
    funext m
    exact (union_append _ _ _).symm

theorem kindPart?_congr {m m' : Mapping} {kind : String}
    (h : m'.part? "components" = m.part? "components") : kindPart? m' kind = kindPart? m kind := by
  unfold kindPart?
  rw [h]

/-- Only components of a kind change it. -/
theorem kindPart?_addPart (fragment kind : String) (m : Mapping) (key value : Node) :
    kindPart? (addPart fragment m key value).1 kind
      = (kindPart? m kind).map (union · (componentEntries kind key value)) := by
  unfold addPart componentEntries
  -- the cases are those of `addPart`, and only the second concerns components
  split
  · rename_i hkey
    simp only [hkey]
    rw [kindPart?_congr (Mapping.part?_updateMap_of_ne m _ (by decide))]
    exact (map_union_nil _).symm
  · rename_i components hkey
    simp only [hkey]
    unfold kindPart?
    rw [Mapping.part?_updateMap_self]
    cases m.part? "components" with
    | none => rfl
    | some own => exact part?_addComponents fragment kind own components
  · rename_i hkey
    simp only [hkey]
    rw [kindPart?_congr (Mapping.part?_updateSeq_of_ne m (by decide) _)]
    exact (map_union_nil _).symm
  · rename_i hkey
    simp only [hkey]
    rw [kindPart?_congr (Mapping.part?_updateSeq_of_ne m (by decide) _)]
    exact (map_union_nil _).symm
  · split
    · rename_i components hkey _ hcomponents _ _
      exact (hcomponents components hkey rfl).elim
    · exact (map_union_nil _).symm

/-- **The components of a kind after all fragments.** -/
theorem kindPart?_addRoots (kind : String) (root : Mapping) (fragments : List (String × Mapping)) :
    kindPart? (addRoots root fragments) kind
      = (kindPart? root kind).map (union · (fragmentComponents kind fragments)) :=
  view_addRoots (kindPart? · kind) union_nil union_append
    (fun fragment m e => kindPart?_addPart fragment kind m e.1 e.2) root fragments

/-! ### Declared files and markers -/

theorem part?_declareFiles_paths (root : Mapping) (kind : String) (files : List String) :
    (declareFiles root kind files).part? "paths" = root.part? "paths" := by
  unfold declareFiles
  split
  · rfl
  · exact Mapping.part?_updateMap_of_ne root _ (by decide)

/-- The part of a kind after the files of a kind are declared. -/
theorem kindPart?_declareFiles (root : Mapping) (kind other : String) (files : List String) :
    kindPart? (declareFiles root kind files) other
      = (kindPart? root other).map fun entries =>
          if other = kind then files.foldl (declare kind) entries else entries := by
  unfold declareFiles
  cases files with
  | nil =>
    rw [List.isEmpty_nil, if_pos rfl]
    by_cases hkind : other = kind
    · simp [hkind]
    · simp [hkind]
  | cons file rest =>
    rw [List.isEmpty_cons, if_neg Bool.false_ne_true]
    unfold kindPart?
    rw [Mapping.part?_updateMap_self]
    cases root.part? "components" with
    | none => rfl
    | some own =>
      by_cases hkind : other = kind
      · subst hkind
        simp only [if_true]
        exact Mapping.part?_updateMap_self own _ _
      · simp only [hkind, if_false, Option.map_id_fun', id_eq]
        exact Mapping.part?_updateMap_of_ne own _ hkind

theorem part?_declareAll_paths (d : Disk) (scratch : Path) (root : Mapping) :
    (declareAll d scratch root).part? "paths" = root.part? "paths" := by
  unfold declareAll
  refine List.foldlRecOn (motive := fun m : Mapping => m.part? "paths" = root.part? "paths") _ _ rfl ?_
  intro m hm kind _
  rw [part?_declareFiles_paths, hm]

theorem declareAll_of_no_files {d : Disk} {scratch : Path} (root : Mapping)
    (h : ∀ kind ∈ Document.kinds, componentFiles d scratch kind = []) :
    declareAll d scratch root = root := by
  refine List.foldlRecOn (motive := fun m : Mapping => m = root) _ _ rfl ?_
  rintro m rfl kind hkind
  rw [h kind hkind]
  rfl

/-- **The components of a kind after all files are declared.** -/
theorem kindPart?_declareAll (d : Disk) (scratch : Path) (root : Mapping) {kind : String}
    (hkind : kind ∈ Document.kinds) :
    kindPart? (declareAll d scratch root) kind
      = (kindPart? root kind).map ((componentFiles d scratch kind).foldl (declare kind)) := by
  -- of all kinds that are declared, each one once, only `kind` itself counts
  have hfold : ∀ (ks : List String) (m : Mapping), ks.Nodup →
      kindPart? (ks.foldl (fun m k => declareFiles m k (componentFiles d scratch k)) m) kind
        = (kindPart? m kind).map fun entries => if kind ∈ ks
            then (componentFiles d scratch kind).foldl (declare kind) entries else entries := by
    intro ks
    induction ks with
    | nil =>
      intro m _
      simp
    | cons k rest ih =>
      intro m hnodup
      obtain ⟨hk, hrest⟩ := List.nodup_cons.mp hnodup
      rw [List.foldl_cons, ih _ hrest, kindPart?_declareFiles, Option.map_map]
      congr 1
      funext own
      by_cases h : kind = k
      · subst h
        simp [hk]
      · simp [h]
  have := hfold Document.kinds root (by decide)
  simp only [hkind, if_true] at this
  exact this

theorem get?_withoutMarkers (root : Mapping) {key : String} (h : marked? (.str key) = none) :
    (withoutMarkers root).get? key = root.get? key := by
  unfold withoutMarkers
  induction root with
  | nil => rfl
  | cons e rest ih =>
    obtain ⟨k, v⟩ := e
    by_cases hk : k = .str key
    · subst hk
      rw [List.filter_cons_of_pos (by rw [h]; rfl), Mapping.get?_cons_self, Mapping.get?_cons_self]
    · rw [Mapping.get?_cons_of_ne hk, ← ih]
      by_cases hmark : (marked? k).isNone = true
      · rw [List.filter_cons_of_pos (by simpa using hmark), Mapping.get?_cons_of_ne hk]
      · rw [List.filter_cons_of_neg (by simpa using hmark)]

/-- The components of a kind that lie in files and are neither declared by name nor by their file. -/
def lacking (kind : String) (own : Mapping) : List String → Mapping
  | [] => []
  | file :: rest =>
    let name := (Path.splitEnding file).1
    let reference := componentReference kind file
    if isDeclared own name reference then lacking kind own rest
    else
      let e := (.str name, .map [(.str "$ref", .str reference)])
      e :: lacking kind (own ++ [e]) rest

theorem foldl_declare (kind : String) (own : Mapping) (files : List String) :
    files.foldl (declare kind) own = own ++ lacking kind own files := by
  induction files generalizing own with
  | nil => exact (List.append_nil own).symm
  | cons file rest ih =>
    rw [List.foldl_cons, ih, lacking, declare]
    split
    · rfl
    · rw [List.append_assoc]
      rfl

/-! ### Keys that can be told apart -/

theorem paths_isWord : IsWord "paths" := ⟨by decide, by decide, by decide, by decide⟩

theorem components_isWord : IsWord "components" := ⟨by decide, by decide, by decide, by decide⟩

/-- A root document whose own keys and those of its components can be told apart. -/
structure RootLegible (root : Mapping) : Prop where
  keys : root.Legible
  components : ∀ m, root.part? "components" = some m → m.Legible

theorem RootLegible.of_sound {root : Mapping} (h : (Node.map root).Sound) : RootLegible root := by
  cases h with
  | map distinct keys values =>
    refine ⟨⟨distinct, keys⟩, fun m hm => ?_⟩
    cases hc : root.get? "components" with
    | none =>
      rw [Mapping.part?_of_none hc] at hm
      cases hm
      exact Mapping.legible_nil
    | some c =>
      rcases Mapping.part?_of_some hc with ⟨-, hpart⟩ | hpart
      · rw [hpart] at hm
        cases hm
        exact Mapping.legible_nil
      · rw [hpart] at hm
        have hu := (values _ (Mapping.mem_of_get? hc)).untagged
        unfold Node.map? at hm
        split at hm
        · rename_i entries heq
          cases hm
          rw [heq] at hu
          cases hu with
          | map distinct keys values => exact ⟨distinct, keys⟩
        · cases hm

/-- A change of the components keeps them legible, if it keeps their keys so. -/
theorem RootLegible.updateMap {ω : Type} {root : Mapping} (h : RootLegible root) (key : String)
    (change : Mapping → Mapping × List ω)
    (hchange : key = "components" → ∀ m : Mapping, m.Legible → (change m).1.Legible) :
    RootLegible (root.updateMap key change).1 := by
  refine ⟨h.keys.updateMap change, fun m hm => ?_⟩
  by_cases hkey : "components" = key
  · subst hkey
    rw [Mapping.part?_updateMap_self] at hm
    obtain ⟨own, hown, rfl⟩ := Option.map_eq_some_iff.mp hm
    exact hchange rfl own (h.components own hown)
  · rw [Mapping.part?_updateMap_of_ne root change hkey] at hm
    exact h.components m hm

theorem RootLegible.updateSeq {root : Mapping} (h : RootLegible root) {key : String}
    (hkey : "components" ≠ key) (change : List Node → List Node) :
    RootLegible (root.updateSeq key change) := by
  refine ⟨h.keys.updateSeq change, fun m hm => ?_⟩
  rw [Mapping.part?_updateSeq_of_ne root hkey] at hm
  exact h.components m hm

theorem legible_addComponents (fragment : String) {own : Mapping} (source : Mapping)
    (h : own.Legible) : (addComponents fragment own source).1.Legible := by
  rw [addComponents_fst]
  refine List.foldlRecOn source _ h ?_
  intro own h e _
  unfold addKind
  split
  · exact h.updateMap _
  · exact h

theorem RootLegible.addPart (fragment : String) {root : Mapping} (key value : Node)
    (h : RootLegible root) : RootLegible (addPart fragment root key value).1 := by
  unfold Include.addPart
  split
  · exact h.updateMap _ _ fun hkey => absurd hkey (by decide)
  · exact h.updateMap _ _ fun _ m hm => legible_addComponents fragment _ hm
  · exact h.updateSeq (by decide) _
  · exact h.updateSeq (by decide) _
  · exact h

theorem RootLegible.addRoots {root : Mapping} (h : RootLegible root)
    (fragments : List (String × Mapping)) : RootLegible (addRoots root fragments) :=
  addRoots_induction fragments h fun fragment _ key value h => h.addPart fragment key value

theorem RootLegible.declareAll {root : Mapping} (h : RootLegible root) (d : Disk) (scratch : Path) :
    RootLegible (declareAll d scratch root) := by
  refine List.foldlRecOn _ _ h ?_
  intro root h kind _
  unfold declareFiles
  split
  · exact h
  · exact h.updateMap _ _ fun _ m hm => hm.updateMap _

theorem RootLegible.withoutMarkers {root : Mapping} (h : RootLegible root) :
    RootLegible (withoutMarkers root) := by
  refine ⟨⟨h.keys.distinct.filter _, fun e he => h.keys.sound e (List.mem_filter.mp he).1⟩, ?_⟩
  intro m hm
  rw [Mapping.part?_congr (get?_withoutMarkers root (by rfl))] at hm
  exact h.components m hm

end ApiScaffold.Include
