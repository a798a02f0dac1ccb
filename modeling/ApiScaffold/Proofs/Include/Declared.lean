import ApiScaffold.Proofs.Disk.Listing
import ApiScaffold.Proofs.Include.LeftUnion
import ApiScaffold.Proofs.Path.Ending

/-!
# Components that lie in files

A file in the directory of a kind of components is declared if there is an entry of its name, or one
that refers to it (`Declares`).  Those that are not get an entry, in the order of the files and one
for each name (`Completes`), and nothing else changes: `declareAll_declared` is the main result.
-/

namespace ApiScaffold.Include

open Yaml (Node Mapping)

/-! ### Declared files -/

/-- A reference to a file: before it may stand, any number of times, that it is seen from here. -/
def RefersTo (v : Node) (file : String) : Prop :=
  ∃ text n, v.getStr? "$ref" = some text ∧
    text.toList = (List.replicate n ['.', '/']).flatten ++ file.toList

/-- A file is declared by the name of its component, or under any name by a reference to it. -/
def Declares (entries : Mapping) (kind name file : String) : Prop :=
  ∃ e ∈ entries, e.1 = .str name ∨ RefersTo e.2 (componentReference kind file)

/-- The entry that declares a file, given with the name of its component. -/
def fileEntry (kind : String) (p : String × String) : Node × Node :=
  (.str p.1, .map [(.str "$ref", .str (componentReference kind p.2))])

theorem withoutLeadingDots_eq_iff {s file : String} (h : file.toList.head? ≠ some '.') :
    withoutLeadingDots s = file
      ↔ ∃ n, s.toList = (List.replicate n ['.', '/']).flatten ++ file.toList := by
  have hgo : ∀ cs : List Char, withoutLeadingDots.go cs = file.toList
      ↔ ∃ n, cs = (List.replicate n ['.', '/']).flatten ++ file.toList := by
    intro cs
    constructor
    · intro heq
      induction cs using withoutLeadingDots.go.induct with
      | case1 rest ih =>
        obtain ⟨n, hn⟩ := ih heq
        refine ⟨n + 1, ?_⟩
        rw [List.replicate_succ, List.flatten_cons, List.append_assoc, ← hn]
        rfl
      | case2 cs hcs =>
        refine ⟨0, ?_⟩
        rw [← heq, withoutLeadingDots.go]
        · rfl
        · exact hcs
    · rintro ⟨n, rfl⟩
      induction n with
      | zero =>
        -- the name itself begins with no dot, so nothing more is dropped
        rw [List.replicate_zero, List.flatten_nil, List.nil_append, withoutLeadingDots.go]
        rintro rest hrest
        exact h (by rw [hrest]; rfl)
      | succ n ih =>
        rw [List.replicate_succ, List.flatten_cons, List.append_assoc]
        exact ih
  rw [← hgo, withoutLeadingDots, ← String.toList_inj, String.toList_ofList]

theorem toList_componentReference (kind file : String) : (componentReference kind file).toList
    = "components/".toList ++ kind.toList ++ ['/'] ++ file.toList := by
  show ("components/" ++ kind ++ "/" ++ file).toList = _
  rw [String.toList_append, String.toList_append, String.toList_append]
  rfl

theorem componentReference_inj {kind file file' : String} :
    componentReference kind file = componentReference kind file' ↔ file = file' := by
  rw [← String.toList_inj, toList_componentReference, toList_componentReference,
    List.append_cancel_left_eq, String.toList_inj]

theorem refersTo_iff {v : Node} {kind file : String} : RefersTo v (componentReference kind file)
    ↔ (v.getStr? "$ref").any (withoutLeadingDots · == componentReference kind file) = true := by
  have hhead : (componentReference kind file).toList.head? ≠ some '.' := by
    rw [toList_componentReference]
    exact fun h => absurd (Option.some.inj h) (by decide)
  unfold RefersTo
  cases v.getStr? "$ref" with
  | none => exact iff_of_false (by rintro ⟨text, n, h, -⟩; cases h) Bool.false_ne_true
  | some text =>
    rw [Option.any_some, beq_iff_eq, withoutLeadingDots_eq_iff hhead]
    constructor
    · rintro ⟨text', n, h, htext⟩
      rw [Option.some.inj h]
      exact ⟨n, htext⟩
    · rintro ⟨n, htext⟩
      exact ⟨text, n, rfl, htext⟩

theorem isDeclared_iff {entries : Mapping} {kind name file : String} :
    isDeclared entries name (componentReference kind file) = true
      ↔ Declares entries kind name file := by
  have hname : (Mapping.get? entries name).isSome = true ↔ ∃ e ∈ entries, e.1 = .str name := by
    unfold Mapping.get? Mapping.find?
    rw [Option.isSome_map, List.find?_isSome]
    simp only [Node.same_str_iff]
  unfold isDeclared Declares
  rw [Bool.or_eq_true, hname, List.any_eq_true]
  simp only [← refersTo_iff, and_or_left, exists_or]

theorem refersTo_fileEntry {kind file : String} {p : String × String} :
    RefersTo (fileEntry kind p).2 (componentReference kind file) ↔ p.2 = file := by
  have hself : RefersTo (fileEntry kind p).2 (componentReference kind p.2) := ⟨_, 0, rfl, rfl⟩
  rw [refersTo_iff] at hself ⊢
  have hvalue : (fileEntry kind p).2.getStr? "$ref" = some (componentReference kind p.2) := rfl
  rw [hvalue, Option.any_some, beq_iff_eq] at hself ⊢
  rw [hself, componentReference_inj]

theorem declares_fileEntries {kind name file : String} {added : List (String × String)} :
    Declares (added.map (fileEntry kind)) kind name file
      ↔ ∃ p ∈ added, p.1 = name ∨ p.2 = file := by
  unfold Declares
  constructor
  · rintro ⟨e, he, h⟩
    obtain ⟨p, hp, rfl⟩ := List.mem_map.mp he
    exact ⟨p, hp, h.imp (fun h => Node.str.inj h) refersTo_fileEntry.mp⟩
  · rintro ⟨p, hp, h⟩
    exact ⟨_, List.mem_map_of_mem hp, h.imp (congrArg Node.str) refersTo_fileEntry.mpr⟩

theorem declares_append {entries more : Mapping} {kind name file : String} :
    Declares (entries ++ more) kind name file
      ↔ Declares entries kind name file ∨ Declares more kind name file := by
  unfold Declares
  simp only [List.mem_append, or_and_right, exists_or]

/-! ### One file after the other -/

/-- **The files that are not declared get entries**: `added` has their names and the files, in the
order of the files; of several files with one name the first that is not declared. -/
structure Completes (kind : String) (isFile : String → String → Prop) (own : Mapping)
    (added : List (String × String)) : Prop where
  declared : ∀ name file, isFile name file →
    Declares (own ++ added.map (fileEntry kind)) kind name file
  missing : ∀ p ∈ added, isFile p.1 p.2 ∧ ¬Declares own kind p.1 p.2
  order : (added.map Prod.snd).Pairwise (· < ·)
  once : (added.map Prod.fst).Nodup
  first : ∀ p ∈ added, ∀ file, isFile p.1 file → ¬Declares own kind p.1 file → p.2 ≤ file

/-- The files of a list, each with what stands before the ending of its name. -/
def Lists (files : List String) (name file : String) : Prop :=
  file ∈ files ∧ name = (Path.splitEnding file).1

theorem declare_eq (kind : String) (entries : Mapping) (file : String) :
    declare kind entries file
      = if isDeclared entries (Path.splitEnding file).1 (componentReference kind file) then entries
        else entries ++ [fileEntry kind ((Path.splitEnding file).1, file)] := rfl

theorem Completes.nil (kind : String) (own : Mapping) : Completes kind (Lists []) own [] :=
  ⟨fun _ _ h => (List.not_mem_nil h.1).elim, nofun, .nil, .nil, nofun⟩

section Step

variable {kind : String} {own : Mapping} {files : List String} {added : List (String × String)}

theorem lists_concat {files : List String} {file name file' : String} :
    Lists (files ++ [file]) name file'
      ↔ Lists files name file' ∨ file' = file ∧ name = (Path.splitEnding file').1 := by
  unfold Lists
  rw [List.mem_append, List.mem_singleton, or_and_right]

theorem Completes.skip (h : Completes kind (Lists files) own added) {file : String}
    (hle : ∀ other ∈ files, other ≤ file)
    (hdeclared : Declares (own ++ added.map (fileEntry kind)) kind (Path.splitEnding file).1 file) :
    Completes kind (Lists (files ++ [file])) own added := by
  refine ⟨?_, ?_, h.order, h.once, ?_⟩
  · intro name file' hfile
    rcases lists_concat.mp hfile with hfile | ⟨rfl, rfl⟩
    · exact h.declared name file' hfile
    · exact hdeclared
  · exact fun p hp => (h.missing p hp).imp_left fun hfile => lists_concat.mpr (.inl hfile)
  · intro p hp file' hfile hmissing
    rcases lists_concat.mp hfile with hfile | ⟨rfl, -⟩
    · exact h.first p hp file' hfile hmissing
    · exact hle _ (h.missing p hp).1.1

/-- **A file that is not declared gets an entry**, behind those of the files before it. -/
theorem Completes.add (h : Completes kind (Lists files) own added) {file : String}
    (hle : ∀ other ∈ files, other ≤ file)
    (hmissing : ¬Declares (own ++ added.map (fileEntry kind)) kind (Path.splitEnding file).1 file) :
    Completes kind (Lists (files ++ [file])) own (added ++ [((Path.splitEnding file).1, file)]) := by
  -- none of the entries before has the name or the file
  rw [declares_append, declares_fileEntries, not_or] at hmissing
  obtain ⟨hown, hadded⟩ := hmissing
  have hname : ∀ p ∈ added, p.1 ≠ (Path.splitEnding file).1 := fun p hp heq =>
    hadded ⟨p, hp, .inl heq⟩
  have hfile : ∀ p ∈ added, p.2 < file := by
    intro p hp
    refine (String.not_le).mp fun hge => hadded ⟨p, hp, .inr ?_⟩
    exact String.le_antisymm (hle _ (h.missing p hp).1.1) hge
  constructor
  case declared =>
    intro name file' hlists
    rw [List.map_append, ← List.append_assoc, declares_append]
    rcases lists_concat.mp hlists with hlists | ⟨rfl, rfl⟩
    · exact .inl (h.declared name file' hlists)
    · exact .inr (declares_fileEntries.mpr ⟨_, List.mem_singleton_self _, .inl rfl⟩)
  case missing =>
    intro p hp
    rcases List.mem_append.mp hp with hp | hp
    · exact (h.missing p hp).imp_left fun hlists => lists_concat.mpr (.inl hlists)
    · rw [List.mem_singleton.mp hp]
      exact ⟨lists_concat.mpr (.inr ⟨rfl, rfl⟩), hown⟩
  case order =>
    rw [List.map_append, List.pairwise_append]
    refine ⟨h.order, List.pairwise_singleton _ _, ?_⟩
    intro f hf f' hf'
    obtain ⟨p, hp, rfl⟩ := List.mem_map.mp hf
    rw [List.mem_singleton.mp hf']
    exact hfile p hp
  case once =>
    rw [List.map_append, List.nodup_append]
    refine ⟨h.once, List.pairwise_singleton _ _, ?_⟩
    intro n hn n' hn'
    obtain ⟨p, hp, rfl⟩ := List.mem_map.mp hn
    rw [List.mem_singleton.mp hn']
    exact hname p hp
  case first =>
    intro p hp file' hlists hnot
    rcases List.mem_append.mp hp with hold | hnew
    · rcases lists_concat.mp hlists with hlists | ⟨rfl, -⟩
      · exact h.first p hold file' hlists hnot
      · exact Std.le_of_lt (hfile p hold)
    · rw [List.mem_singleton.mp hnew] at hlists hnot ⊢
      rcases lists_concat.mp hlists with hlists | ⟨rfl, -⟩
      · -- an earlier file of this name would have been declared under it
        rcases declares_append.mp (h.declared _ _ hlists) with hdeclared | hdeclared
        · exact absurd hdeclared hnot
        · obtain ⟨q, hq, heq | heq⟩ := declares_fileEntries.mp hdeclared
          · exact absurd heq (hname q hq)
          · refine absurd ?_ (hname q hq)
            rw [(h.missing q hq).1.2, heq, hlists.2]
      · exact String.le_refl _

end Step

/-- **Declaring files in the order of their names completes the components of a kind.** -/
theorem exists_completes (kind : String) (own : Mapping) {files : List String}
    (hfiles : files.Pairwise (· ≤ ·)) :
    ∃ added, files.foldl (declare kind) own = own ++ added.map (fileEntry kind) ∧
      Completes kind (Lists files) own added := by
  induction files using List.reverseRecOn with
  | nil => exact ⟨[], (List.append_nil own).symm, Completes.nil kind own⟩
  | append_singleton files file ih =>
    obtain ⟨hfiles, -, hle⟩ := List.pairwise_append.mp hfiles
    obtain ⟨added, hfold, h⟩ := ih hfiles
    replace hle := fun other hother => hle other hother file (List.mem_singleton_self _)
    rw [List.foldl_append, List.foldl_cons, List.foldl_nil, hfold, declare_eq]
    by_cases hdeclared :
        Declares (own ++ added.map (fileEntry kind)) kind (Path.splitEnding file).1 file
    · rw [if_pos (isDeclared_iff.mpr hdeclared)]
      exact ⟨added, rfl, h.skip hle hdeclared⟩
    · rw [if_neg fun hd => hdeclared (isDeclared_iff.mp hd)]
      refine ⟨_, ?_, h.add hle hdeclared⟩
      rw [List.map_append, List.append_assoc]
      rfl

example : ["Account.yaml", "User.yaml"].foldl (declare "schemas")
      [(.str "Member", .map [(.str "$ref", .str "./components/schemas/User.yaml")])]
    = [(.str "Member", .map [(.str "$ref", .str "./components/schemas/User.yaml")]),
      (.str "Account", .map [(.str "$ref", .str "components/schemas/Account.yaml")])] := by
  rfl

theorem foldl_declare_of_declares {kind : String} {entries : Mapping} {files : List String}
    (h : ∀ name file, Lists files name file → Declares entries kind name file) :
    files.foldl (declare kind) entries = entries := by
  refine List.foldlRecOn (motive := fun m => m = entries) files (declare kind) rfl ?_
  rintro m rfl file hfile
  rw [declare_eq, if_pos (isDeclared_iff.mpr (h _ file ⟨hfile, rfl⟩))]

theorem foldl_declare_twice (kind : String) (own : Mapping) {files : List String}
    (hfiles : files.Pairwise (· ≤ ·)) : files.foldl (declare kind) (files.foldl (declare kind) own)
      = files.foldl (declare kind) own := by
  obtain ⟨added, hfold, h⟩ := exists_completes kind own hfiles
  rw [hfold]
  exact foldl_declare_of_declares h.declared

/-! ### Files of components -/

/-- A file for a component of a kind: it lies in the directory of the kind, and before the ending of
its name stands the name of the component. -/
structure IsComponentFile (d : Disk) (scratch : Path) (kind name file : String) : Prop where
  held : d.HoldsFile ((scratch.joinName "components").joinName kind) file
  named : name ≠ ""
  ending : file = name ++ ".yaml" ∨ file = name ++ ".yml"

/-- The name of a YAML file. -/
theorem splitEnding_yaml_iff {name file : String} :
    ((Path.splitEnding file).2.any (fun ending => ending == "yaml" || ending == "yml") = true ∧
        name = (Path.splitEnding file).1)
      ↔ name ≠ "" ∧ (file = name ++ ".yaml" ∨ file = name ++ ".yml") := by
  have hsplit : ∀ ending : String, '.' ∉ ending.toList →
      (Path.splitEnding file = (name, some ending) ↔ name ≠ "" ∧ file = name ++ ("." ++ ending)) := by
    intro ending hdot
    rw [Path.splitEnding_eq_some_iff, String.append_assoc]
    exact and_congr_right fun _ => and_iff_right hdot
  constructor
  · rintro ⟨hending, rfl⟩
    obtain ⟨ending, hsome, heq⟩ := Option.any_eq_true _ _ |>.mp hending
    have hpair : Path.splitEnding file = ((Path.splitEnding file).1, some ending) :=
      Prod.ext rfl hsome
    rw [Bool.or_eq_true, beq_iff_eq, beq_iff_eq] at heq
    rcases heq with rfl | rfl
    · exact ((hsplit "yaml" (by decide)).mp hpair).imp_right fun h => .inl h
    · exact ((hsplit "yml" (by decide)).mp hpair).imp_right fun h => .inr h
  · rintro ⟨hname, hfile | hfile⟩
    · rw [(hsplit "yaml" (by decide)).mpr ⟨hname, hfile⟩]
      exact ⟨rfl, rfl⟩
    · rw [(hsplit "yml" (by decide)).mpr ⟨hname, hfile⟩]
      exact ⟨rfl, rfl⟩

/-- **The files that are declared are those of the components of a kind.** -/
theorem lists_componentFiles (d : Disk) (scratch : Path) (kind : String) :
    Lists (componentFiles d scratch kind) = IsComponentFile d scratch kind := by
  funext name file
  apply propext
  unfold Lists componentFiles
  rw [List.mem_filter, Bool.and_eq_true, Disk.isFile_iff, and_assoc, and_assoc,
    splitEnding_yaml_iff]
  have hlisted : file ∈ (d.list ((scratch.joinName "components").joinName kind)).toOption.getD []
      ↔ ∃ names, d.list ((scratch.joinName "components").joinName kind) = .ok names ∧ file ∈ names := by
    cases d.list ((scratch.joinName "components").joinName kind) with
    | error failure => exact iff_of_false List.not_mem_nil (by rintro ⟨names, h, -⟩; cases h)
    | ok names =>
      exact ⟨fun h => ⟨names, rfl, h⟩, by rintro ⟨names', h, hmem⟩; cases h; exact hmem⟩
  rw [hlisted]
  exact ⟨fun ⟨hlisted, hfile, hname, hending⟩ => ⟨⟨hlisted, hfile⟩, hname, hending⟩,
    fun h => ⟨h.held.listed, h.held.file, h.named, h.ending⟩⟩

theorem pairwise_componentFiles (d : Disk) (scratch : Path) (kind : String) :
    (componentFiles d scratch kind).Pairwise (· ≤ ·) := by
  unfold componentFiles
  refine List.Pairwise.filter _ ?_
  cases h : d.list ((scratch.joinName "components").joinName kind) with
  | error failure => exact .nil
  | ok names => exact Disk.pairwise_list h

/-! ### All kinds -/

/-- Steps that reach a state which they leave alone, and which the others keep: a second run of all of
them changes nothing. -/
theorem foldl_foldl {σ α : Type} {step : σ → α → σ} (hself : ∀ m a, step (step m a) a = step m a)
    (hkeep : ∀ m a b, step m a = m → step (step m b) a = step m b) (as : List α) (m : σ) :
    as.foldl step (as.foldl step m) = as.foldl step m := by
  have hsettled : ∀ a ∈ as, step (as.foldl step m) a = as.foldl step m := by
    induction as using List.reverseRecOn with
    | nil => nofun
    | append_singleton as b ih =>
      intro a ha
      rw [List.foldl_append, List.foldl_cons, List.foldl_nil]
      rcases List.mem_append.mp ha with ha | ha
      · exact hkeep _ a b (ih a ha)
      · rw [List.mem_singleton.mp ha]
        exact hself _ b
  refine List.foldlRecOn (motive := fun m' => m' = as.foldl step m) as step rfl ?_
  rintro m' rfl a ha
  exact hsettled a ha

theorem declareFiles_declareFiles (root : Mapping) (kind : String) {files : List String}
    (hfiles : files.Pairwise (· ≤ ·)) :
    declareFiles (declareFiles root kind files) kind files = declareFiles root kind files := by
  cases files with
  | nil => rfl
  | cons file rest =>
    refine Mapping.updateMap_updateMap_self fun components _ => ?_
    refine Mapping.updateMap_updateMap_self fun own _ => ?_
    exact foldl_declare_twice kind own hfiles

theorem declareFiles_declareFiles_of_ne {root : Mapping} {kind other : String} (hne : kind ≠ other)
    {files : List String} (files' : List String) (h : declareFiles root kind files = root) :
    declareFiles (declareFiles root other files') kind files = declareFiles root other files' := by
  cases files with
  | nil => rfl
  | cons file rest =>
    cases files' with
    | nil => exact h
    | cons file' rest' =>
      refine Mapping.updateMap_updateMap h fun components hcomponents => ?_
      exact Mapping.updateMap_updateMap_of_ne hne _ hcomponents

/-- **What is declared once is not declared again.** -/
theorem declareAll_declareAll (d : Disk) (scratch : Path) (root : Mapping) :
    declareAll d scratch (declareAll d scratch root) = declareAll d scratch root := by
  have hself : ∀ (m : Mapping) (kind : String),
      declareFiles (declareFiles m kind (componentFiles d scratch kind)) kind
        (componentFiles d scratch kind) = declareFiles m kind (componentFiles d scratch kind) :=
    fun m kind => declareFiles_declareFiles m kind (pairwise_componentFiles d scratch kind)
  refine foldl_foldl hself (fun m kind other h => ?_) Document.kinds root
  by_cases hkind : kind = other
  · subst hkind
    exact hself m kind
  · exact declareFiles_declareFiles_of_ne hkind _ h

/-! ### What stays -/

def besides (keys : List String) (m : Mapping) : Mapping :=
  m.filter fun e => !keys.any fun key => (Node.str key).same e.1

theorem besides_updateMap {ω : Type} {keys : List String} {key : String} (h : key ∈ keys)
    (m : Mapping) (change : Mapping → Mapping × List ω) :
    besides keys (m.updateMap key change).1 = besides keys m := by
  rcases updateMap_eq_put m key change with heq | ⟨v, heq⟩
  · rw [heq]
  · rw [heq]
    refine filter_put (fun _ => ?_) m v
    rw [Bool.not_eq_false']
    exact List.any_eq_true.mpr ⟨key, h, Node.same_str_iff.mpr rfl⟩

/-- One mapping has all that another one has, in the same places but for certain keys: those are where
they were or behind all others. -/
structure Extends (keys : List String) (m m' : Mapping) : Prop where
  besides : besides keys m' = besides keys m
  order : m.map Prod.fst <+: m'.map Prod.fst

theorem Extends.refl (keys : List String) (m : Mapping) : Extends keys m m :=
  ⟨rfl, List.prefix_refl _⟩

theorem Extends.trans {keys : List String} {m m' m'' : Mapping} (h : Extends keys m m')
    (h' : Extends keys m' m'') : Extends keys m m'' :=
  ⟨h'.besides.trans h.besides, h.order.trans h'.order⟩

theorem extends_updateMap {ω : Type} {keys : List String} {key : String} (h : key ∈ keys)
    (m : Mapping) (change : Mapping → Mapping × List ω) :
    Extends keys m (m.updateMap key change).1 :=
  ⟨besides_updateMap h m change, keys_updateMap m key change⟩

theorem extends_declareFiles (root : Mapping) (kind : String) (files : List String) :
    Extends ["components"] root (declareFiles root kind files) := by
  cases files with
  | nil => exact Extends.refl _ root
  | cons file rest => exact extends_updateMap (List.mem_singleton_self _) root _

/-- Of the components only those of kinds change. -/
theorem extends_components_declareFiles {root components : Mapping} {kind : String}
    (hkind : kind ∈ Document.kinds) (files : List String)
    (h : root.part? "components" = some components) :
    ∃ components', (declareFiles root kind files).part? "components" = some components' ∧
      Extends Document.kinds components components' := by
  cases files with
  | nil => exact ⟨components, h, Extends.refl _ components⟩
  | cons file rest =>
    let change : Mapping → Mapping × List Unit := fun entries =>
      ((file :: rest).foldl (declare kind) entries, [])
    refine ⟨(components.updateMap kind change).1, ?_, extends_updateMap hkind components change⟩
    show (root.updateMap "components" (·.updateMap kind change)).1.part? "components" = _
    rw [Mapping.part?_updateMap_self, h, Option.map_some]

/-- **What a root document is when the components that lie in files are declared.**  Each kind that is a
mapping, null or absent is completed, and nothing else changes. -/
structure Declared (d : Disk) (scratch : Path) (root whole : Mapping) : Prop where
  kinds : ∀ kind ∈ Document.kinds, ∀ own, kindPart? root kind = some own →
    ∃ added, kindPart? whole kind = some (own ++ added.map (fileEntry kind)) ∧
      Completes kind (IsComponentFile d scratch kind) own added
  components : ∀ components, root.part? "components" = some components →
    ∃ components', whole.part? "components" = some components' ∧
      Extends Document.kinds components components'
  rest : Extends ["components"] root whole

/-- **Components are declared exactly where that is missing**, and a second time nothing is. -/
theorem declareAll_declared (d : Disk) (scratch : Path) (root : Mapping) :
    Declared d scratch root (declareAll d scratch root) ∧
      declareAll d scratch (declareAll d scratch root) = declareAll d scratch root := by
  refine ⟨⟨?_, ?_, ?_⟩, declareAll_declareAll d scratch root⟩
  · intro kind hkind own hown
    obtain ⟨added, hfold, h⟩ := exists_completes kind own (pairwise_componentFiles d scratch kind)
    rw [lists_componentFiles] at h
    rw [kindPart?_declareAll d scratch root hkind, hown, Option.map_some, hfold]
    exact ⟨added, rfl, h⟩
  · intro components hcomponents
    refine List.foldlRecOn (motive := fun m : Mapping => ∃ components',
      m.part? "components" = some components' ∧ Extends Document.kinds components components') _ _
      ⟨components, hcomponents, Extends.refl _ components⟩ ?_
    rintro m ⟨before, hbefore, h⟩ kind hkind
    obtain ⟨after, hafter, h'⟩ := extends_components_declareFiles hkind
      (componentFiles d scratch kind) hbefore
    exact ⟨after, hafter, h.trans h'⟩
  · refine List.foldlRecOn (motive := Extends ["components"] root) _ _ (Extends.refl _ root) ?_
    intro m h kind _
    exact h.trans (extends_declareFiles m kind _)

end ApiScaffold.Include
