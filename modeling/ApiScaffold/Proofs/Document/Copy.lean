import ApiScaffold.Proofs.Document.Site

/-!
# Values in a copy

When what lies below a site lies below another one as well, but for one file, and no reference leaves
the site or names that file, then what succeeds at the site succeeds in the copy with the same value.
-/

namespace ApiScaffold.Document

open ApiScaffold.Path (Component)
open Disk (Leads asksDirectory)

/-- Where one computation succeeds, the other gives the same value. -/
def Follows {α : Type} (r r' : Except Failure (Bundled α)) : Prop :=
  ∀ v wanted, r = .ok (v, wanted) → ∃ wanted', r' = .ok (v, wanted')

section

variable {load load' : Target → Except Failure (Bundled Json)} {base base' : Path}

/-- Every reference to a file in a value is redirected to the same value. -/
def Redirects (load load' : Target → Except Failure (Bundled Json)) (base base' : Path) (v : Json) :
    Prop :=
  ∀ fields reference, .obj fields ∈ v.parts → fileReference? (.obj fields) = some reference →
    Follows (redirect load base fields reference) (redirect load' base' fields reference)

mutual

theorem internalize_follows : ∀ {v : Json}, Redirects load load' base base' v →
    Follows (internalize load base v) (internalize load' base' v)
  | .obj fields, h => by
    intro v wanted hv
    unfold internalize at hv ⊢
    cases href : fileReference? (.obj fields) with
    | some reference =>
      simp only [href] at hv ⊢
      exact h fields reference (Json.self_mem_parts _) href v wanted hv
    | none =>
      simp only [href] at hv ⊢
      obtain ⟨⟨fields', wanted'⟩, hfields, hout⟩ := bind_eq_ok.mp hv
      cases hout
      -- what a field refers to, the object refers to
      obtain ⟨more, hmore⟩ := fields_follow
        (fun p hp f r hf hr => h f r (Json.parts_trans (Json.field_mem_parts hp) hf) hr) _ _ hfields
      exact ⟨more, bind_eq_ok.mpr ⟨_, hmore, rfl⟩⟩
  | .arr items, h => by
    intro v wanted hv
    unfold internalize at hv ⊢
    obtain ⟨⟨items', wanted'⟩, hitems, hout⟩ := bind_eq_ok.mp hv
    cases hout
    obtain ⟨more, hmore⟩ := items_follow
      (fun w hw f r hf hr => h f r (Json.parts_trans (Json.item_mem_parts hw) hf) hr) _ _ hitems
    exact ⟨more, bind_eq_ok.mpr ⟨_, hmore, rfl⟩⟩
  | .null, _ | .bool _, _ | .num _, _ | .str _, _ => by
    intro v wanted hv
    cases hv
    exact ⟨[], rfl⟩

theorem items_follow : ∀ {items : List Json}, (∀ v ∈ items, Redirects load load' base base' v) →
    Follows (internalizeItems load base items) (internalizeItems load' base' items)
  | [], _ => by
    intro v wanted hv
    cases hv
    exact ⟨[], rfl⟩
  | item :: rest, h => by
    intro v wanted hv
    unfold internalizeItems at hv ⊢
    obtain ⟨⟨item', wanted'⟩, hitem, hv⟩ := bind_eq_ok.mp hv
    obtain ⟨⟨rest', more⟩, hrest, hout⟩ := bind_eq_ok.mp hv
    cases hout
    obtain ⟨_, hitem'⟩ := internalize_follows (h item List.mem_cons_self) _ _ hitem
    obtain ⟨_, hrest'⟩ := items_follow (fun w hw => h w (List.mem_cons_of_mem _ hw)) _ _ hrest
    exact ⟨_, bind_eq_ok.mpr ⟨_, hitem', bind_eq_ok.mpr ⟨_, hrest', rfl⟩⟩⟩

theorem fields_follow : ∀ {fields : List (String × Json)},
    (∀ p ∈ fields, Redirects load load' base base' p.2) →
    Follows (internalizeFields load base fields) (internalizeFields load' base' fields)
  | [], _ => by
    intro v wanted hv
    cases hv
    exact ⟨[], rfl⟩
  | (key, field) :: rest, h => by
    intro v wanted hv
    unfold internalizeFields at hv ⊢
    obtain ⟨⟨field', wanted'⟩, hfield, hv⟩ := bind_eq_ok.mp hv
    obtain ⟨⟨rest', more⟩, hrest, hout⟩ := bind_eq_ok.mp hv
    cases hout
    obtain ⟨_, hfield'⟩ := internalize_follows (h (key, field) List.mem_cons_self) _ _ hfield
    obtain ⟨_, hrest'⟩ := fields_follow (fun p hp => h p (List.mem_cons_of_mem _ hp)) _ _ hrest
    exact ⟨_, bind_eq_ok.mpr ⟨_, hfield', bind_eq_ok.mpr ⟨_, hrest', rfl⟩⟩⟩

end

end

/-! ### What a pointer selects -/

theorem step?_mem_parts {v w : Json} {name : String} (h : step? v name = some w) : w ∈ v.parts := by
  cases v with
  | obj fields => exact Json.field_mem_parts (Keyed.mem_of_lookup h)
  | arr items =>
    obtain ⟨i, -, hi⟩ := Option.bind_eq_some_iff.mp h
    exact Json.item_mem_parts (List.mem_of_getElem? hi)
  | _ => cases h

theorem foldlM_step?_mem_parts {names : List String} {v w : Json}
    (h : names.foldlM step? v = some w) : w ∈ v.parts := by
  induction names generalizing v with
  | nil =>
    cases h
    exact Json.self_mem_parts _
  | cons name rest ih =>
    rw [List.foldlM_cons] at h
    obtain ⟨u, hu, hrest⟩ := Option.bind_eq_some_iff.mp h
    exact Json.parts_trans (step?_mem_parts hu) (ih hrest)

theorem select?_mem_parts {v w : Json} {pointer : String} (h : select? v pointer = some w) :
    w ∈ v.parts := by
  unfold select? at h
  split at h
  · cases h
    exact Json.self_mem_parts v
  · split at h
    · exact foldlM_step?_mem_parts h
    · cases h

/-! ### Files of a site and of its copy -/

section

variable {d d' : Disk}

/-- What lies below one site lies below the other as well, but for the file `name`. -/
def Site.Copied (s : Site d) (s' : Site d') (name : String) : Prop :=
  ∀ names node, names ≠ [] → names ≠ [name] →
    Leads d s.place names node → Leads d' s'.place names node

/-- A reference in a file at `names` stays below the site and does not name the file `name`. -/
def StaysInside (names : List String) (name reference : String) : Prop :=
  ∃ more, inside? names.dropLast (filePath reference).components = some more
    ∧ more ≠ [] ∧ more ≠ [name]

/-- No reference in a file below a site leaves it or names the file `name`. -/
def Site.Closed (s : Site d) (name : String) : Prop :=
  ∀ f names v, names ≠ [] → s.Below f names → read d f = .ok v →
    ∀ w ∈ v.parts, ∀ reference, fileReference? w = some reference → StaysInside names name reference

/-- The same names lead to a file below each of two sites, and they are not `name`. -/
def Twin (s : Site d) (s' : Site d') (name : String) (f f' : Path) : Prop :=
  ∃ names, names ≠ [] ∧ names ≠ [name] ∧ s.Below f names ∧ s'.Below f' names
    ∧ asksDirectory f' = false

variable {s : Site d} {s' : Site d'} {name : String}

theorem read_eq_of_copied (hcopied : s.Copied s' name) {f f' : Path} {names : List String}
    (hnames : names ≠ []) (hname : names ≠ [name]) (hf : s.Below f names) (hf' : s'.Below f' names)
    (hfile : asksDirectory f' = false) {v : Json} (h : read d f = .ok v) : read d' f' = .ok v := by
  unfold read at h ⊢
  obtain ⟨text, htext, h⟩ := bind_eq_ok.mp h
  obtain ⟨bytes, hleads, hutf⟩ := hf.leads (Disk.during_eq_ok.mp htext)
  have htext' := hf'.readText_eq hnames hfile (hcopied names _ hnames hname hleads) hutf
  -- the twins have one name, so that both are read as JSON or both as YAML
  have hending : f'.ending? = f.ending? := by
    unfold Path.ending?
    rw [hf.fileName?_eq hnames, hf'.fileName?_eq hnames]
  refine bind_eq_ok.mpr ⟨text, Disk.during_eq_ok.mpr htext', ?_⟩
  rw [hending]
  by_cases hjson : (f.ending? == some "json") = true
  · simp only [hjson, if_true] at h ⊢
    cases hv : Json.parse? text with
    | none =>
      simp only [hv] at h
      cases h
    | some u =>
      simp only [hv] at h ⊢
      exact h
  · simp only [hjson, if_false, Bool.false_eq_true] at h ⊢
    cases hv : Yaml.parseJson? text with
    | none =>
      simp only [hv] at h
      cases h
    | some u =>
      simp only [hv] at h ⊢
      exact h

/-- A reference that stays inside names twins from a file and from the one of its names. -/
theorem twin_ofReference {f f' : Path} {names : List String} (hnames : names ≠ [])
    (hf : s.Below f names) (hf' : s'.Below f' names) {reference : String}
    (hinside : StaysInside names name reference) :
    ∃ more, more ≠ [] ∧ more ≠ [name]
      ∧ (Target.ofReference (directoryOf f) reference).file.components
          = s.components ++ more.map .normal
      ∧ (Target.ofReference (directoryOf f') reference).file.components
          = s'.components ++ more.map .normal := by
  obtain ⟨more, hinside, hmore, hname⟩ := hinside
  exact ⟨more, hmore, hname, hf.file_ofReference hnames hinside, hf'.file_ofReference hnames hinside⟩

theorem asksDirectory_target {f : Path} {reference : String} {names : List String}
    (h : (Target.ofReference (directoryOf f) reference).file.components
      = s.components ++ names.map .normal) (hnames : names ≠ []) :
    asksDirectory (Target.ofReference (directoryOf f) reference).file = false := by
  obtain ⟨before, last, rfl⟩ := (List.eq_nil_or_concat' names).resolve_left hnames
  rw [List.map_append, List.map_singleton, ← List.append_assoc, Target.file_ofReference] at h
  rw [Target.file_ofReference]
  exact asksDirectory_normalize h

theorem pointer_ofReference (base base' : Path) (reference : String) :
    (Target.ofReference base' reference).pointer = (Target.ofReference base reference).pointer := rfl

/-- A reference becomes a reference to the same component, or is replaced by the same value. -/
theorem redirect_follows {load load' : Target → Except Failure (Bundled Json)}
    (hload : ∀ t t' : Target, Twin s s' name t.file t'.file → t'.pointer = t.pointer →
      Follows (load t) (load' t'))
    {f f' : Path} {names : List String} (hnames : names ≠ []) (hf : s.Below f names)
    (hf' : s'.Below f' names) {reference : String} (hinside : StaysInside names name reference)
    (fields : List (String × Json)) :
    Follows (redirect load (directoryOf f) fields reference)
      (redirect load' (directoryOf f') fields reference) := by
  obtain ⟨more, hmore, hname, htarget, htarget'⟩ := twin_ofReference hnames hf hf' hinside
  have hbelow := Site.below_of_components htarget
  have hbelow' := Site.below_of_components htarget'
  -- the kind and the name of a component depend only on the names below the site
  have hkind := (Site.kindOf?_eq htarget' hmore).trans (Site.kindOf?_eq htarget hmore).symm
  have hfile := (hbelow'.fileName?_eq hmore).trans (hbelow.fileName?_eq hmore).symm
  intro v wanted h
  dsimp only [redirect] at h ⊢
  rw [hkind]
  cases hk : kindOf? (Target.ofReference (directoryOf f) reference).file with
  | some kind =>
    rw [hk] at h
    cases h
    refine ⟨[.ofFile kind (Target.ofReference (directoryOf f') reference).file], ?_⟩
    unfold Wanted.reference Wanted.ofFile Path.stem?
    rw [hfile]
  | none =>
    rw [hk] at h
    have hpointer := pointer_ofReference (directoryOf f) (directoryOf f') reference
    refine hload _ _ ⟨more, hmore, hname, hbelow, hbelow', ?_⟩ hpointer v wanted h
    exact asksDirectory_target htarget' hmore

variable (hcopied : s.Copied s' name) (hclosed : s.Closed name)

include hcopied hclosed

/-- **What a file of a closed site gives, its twin gives as well.** -/
theorem loadTarget_follows {left : Nat} {t t' : Target} (htwin : Twin s s' name t.file t'.file)
    (hpointer : t'.pointer = t.pointer) : Follows (loadTarget d left t) (loadTarget d' left t') := by
  -- on the files that may still be nested, for all twins at once
  induction left generalizing t t' with
  | zero =>
    intro v wanted h
    cases h
  | succ left ih =>
    obtain ⟨names, hnames, hname, hf, hf', hfile⟩ := htwin
    intro v wanted h
    unfold loadTarget at h ⊢
    obtain ⟨whole, hread, h⟩ := bind_eq_ok.mp h
    have hread' := read_eq_of_copied hcopied hnames hname hf hf' hfile hread
    refine (exists_congr fun wanted' => bind_eq_ok).mpr ?_
    cases hselect : select? whole t.pointer with
    | none =>
      rw [hselect] at h
      cases h
    | some part =>
      rw [hselect] at h
      have hredirects : Redirects (loadTarget d left) (loadTarget d' left) (directoryOf t.file)
          (directoryOf t'.file) part := by
        intro fields reference hmem href
        refine redirect_follows (fun _ _ => ih) hnames hf hf' ?_ fields
        exact hclosed _ names whole hnames hf hread _
          (Json.parts_trans (select?_mem_parts hselect) hmem) reference href
      obtain ⟨wanted', h'⟩ := internalize_follows hredirects v wanted h
      refine ⟨wanted', whole, hread', ?_⟩
      rw [hpointer, hselect]
      exact h'

theorem loadFile_follows {f f' : Path} (htwin : Twin s s' name f f') :
    Follows (loadFile d f) (loadFile d' f') :=
  loadTarget_follows hcopied hclosed htwin rfl

/-- **An entry of the root of a closed site is resolved to the same value in the copy.** -/
theorem resolveEntry_follows {f f' : Path} {names : List String} (hnames : names ≠ [])
    (hf : s.Below f names) (hf' : s'.Below f' names) {root entry : Json}
    (hread : read d f = .ok root) (hentry : entry ∈ root.parts) :
    Follows (resolveEntry d (directoryOf f) entry) (resolveEntry d' (directoryOf f') entry) := by
  have hload : ∀ t t' : Target, Twin s s' name t.file t'.file → t'.pointer = t.pointer →
      Follows (loadTarget d nestingLimit t) (loadTarget d' nestingLimit t') :=
    fun _ _ => loadTarget_follows hcopied hclosed
  have hinside := hclosed f names root hnames hf hread
  unfold resolveEntry
  cases href : fileReference? entry with
  | some reference =>
    obtain ⟨more, hmore, hname, htarget, htarget'⟩ :=
      twin_ofReference hnames hf hf' (hinside entry hentry reference href)
    refine hload _ _ ⟨more, hmore, hname, Site.below_of_components htarget,
      Site.below_of_components htarget', ?_⟩ (pointer_ofReference _ _ _)
    exact asksDirectory_target htarget' hmore
  | none =>
    apply internalize_follows
    intro fields reference hmem hfields
    refine redirect_follows hload hnames hf hf' ?_ fields
    exact hinside _ (Json.parts_trans hentry hmem) reference hfields

end

/-! ### Files that announce paths -/

theorem find?_le {names : List String} (h : names.Pairwise (· ≤ ·)) {p : String → Bool}
    {first name : String} (hfirst : names.find? p = some first) (hmem : name ∈ names)
    (hname : p name = true) : first ≤ name := by
  obtain ⟨-, before, after, rfl, hbefore⟩ := List.find?_eq_some_iff_append.mp hfirst
  rcases List.mem_append.mp hmem with hmem | hmem
  · have := hbefore name hmem
    rw [hname] at this
    cases this
  · rcases List.mem_cons.mp hmem with rfl | hmem
    · exact String.le_refl _
    · exact (List.pairwise_cons.mp (List.pairwise_append.mp h).2.1).1 name hmem

section

variable {d d' : Disk} {s : Site d} {s' : Site d'} {name : String}

theorem Twin.ending?_eq {f f' : Path} (h : Twin s s' name f f') : f'.ending? = f.ending? := by
  obtain ⟨names, hnames, -, hf, hf', -⟩ := h
  unfold Path.ending?
  rw [hf.fileName?_eq hnames, hf'.fileName?_eq hnames]

variable {root root' : Path} {n n' : String} (hroot : s.Below root [n]) (hroot' : s'.Below root' [n'])

include hroot hroot'

theorem twin_pathFile {entry : String} (hentry : (Component.normal entry).IsSegment) :
    Twin s s' name (pathFile (directoryOf root) entry) (pathFile (directoryOf root') entry) := by
  have hpaths : (Component.normal "paths").IsSegment := ⟨rfl, by decide⟩
  refine ⟨["paths", entry], List.cons_ne_nil _ _, ?_, ?_, ?_, ?_⟩
  · intro h
    cases h
  · exact (hroot.directory_root.joinName hpaths).joinName hentry
  · exact (hroot'.directory_root.joinName hpaths).joinName hentry
  · exact Disk.asksDirectory_joinName (c := .normal entry) _ hentry

variable (hcopied : s.Copied s' name)

include hcopied

theorem announces_copied {entry : String} (hentry : (Component.normal entry).IsSegment)
    (hread : isPathFile (pathFile (directoryOf root) entry) = true →
      ∃ v, read d (pathFile (directoryOf root) entry) = .ok v) (path : String) :
    announces d' (directoryOf root') path entry = announces d (directoryOf root) path entry := by
  have htwin : Twin s s' name _ _ := twin_pathFile hroot hroot' hentry
  have hfile : isPathFile (pathFile (directoryOf root') entry)
      = isPathFile (pathFile (directoryOf root) entry) := by
    unfold isPathFile
    rw [htwin.ending?_eq]
  unfold announces
  rw [hfile]
  cases hown : isPathFile (pathFile (directoryOf root) entry) with
  | false => rw [Bool.false_and, Bool.false_and]
  | true =>
    obtain ⟨v, hv⟩ := hread hown
    obtain ⟨names, hnames, hname, hf, hf', hasks⟩ := htwin
    have hv' := read_eq_of_copied hcopied hnames hname hf hf' hasks hv
    rw [announced?, announced?, hv, hv']

/-- **The first file that announces a path** does so in the copy, too, unless a file that is not from
the site announces it as well. -/
theorem announcer?_copied (hnamed : s.Named) (hname : ¬Leads d s.place [name] .directory)
    {files files' : List Path}
    (hfiles : pathFiles d (directoryOf root) = .ok files) (hreads : ∀ f ∈ files, ∃ v, read d f = .ok v)
    (hfiles' : pathFiles d' (directoryOf root') = .ok files') {path : String} {f : Path}
    (hf : announcer? d files path = some f)
    (hown : ∀ entry, (∃ node, Leads d' s'.place ["paths", entry] node) →
      announces d' (directoryOf root') path entry = true → ∃ node, Leads d s.place ["paths", entry] node) :
    ∃ f', announcer? d' files' path = some f' ∧ Twin s s' name f f' := by
  obtain ⟨-, rfl⟩ | ⟨hpaths, rfl⟩ := hroot.pathFiles_eq_ok.mp hfiles
  · cases hf
  have hpaths' : Leads d' s'.place ["paths"] .directory :=
    hcopied _ _ (List.cons_ne_nil _ _) (fun h => hname (h ▸ hpaths)) hpaths
  obtain ⟨hno, -⟩ | ⟨-, rfl⟩ := hroot'.pathFiles_eq_ok.mp hfiles'
  · exact absurd hpaths' hno
  have hsame : ∀ {entry node}, Leads d s.place ["paths", entry] node →
      announces d' (directoryOf root') path entry = announces d (directoryOf root) path entry := by
    intro entry node hleads
    have hsegment := hnamed _ _ hleads entry (List.mem_cons_of_mem _ (List.mem_singleton_self _))
    refine announces_copied hroot hroot' hcopied hsegment (fun hfile => ?_) path
    exact hreads _ (List.mem_filter.mpr
      ⟨List.mem_map_of_mem (hpaths.mem_namesIn_iff.mpr ⟨node, hleads⟩), hfile⟩)
  rw [announcer?_pathFiles] at hf ⊢
  obtain ⟨entry, hentry, rfl⟩ := Option.map_eq_some_iff.mp hf
  obtain ⟨node, hleads⟩ := hpaths.mem_namesIn_iff.mp (List.mem_of_find?_eq_some hentry)
  have hentry' := (hsame hleads).trans (List.find?_some hentry)
  have hmem' : entry ∈ d'.namesIn (s'.place ++ ["paths"]) :=
    hpaths'.mem_namesIn_iff.mpr ⟨node, hcopied _ _ (List.cons_ne_nil _ _) nofun hleads⟩
  -- the first that announces it in the copy is one of the site, so neither comes before the other
  obtain ⟨first, hfirst⟩ := Option.isSome_iff_exists.mp
    (List.find?_isSome.mpr ⟨entry, hmem', hentry'⟩)
  obtain ⟨other, hother⟩ := hown first
    (hpaths'.mem_namesIn_iff.mp (List.mem_of_find?_eq_some hfirst)) (List.find?_some hfirst)
  have hle : first ≤ entry := find?_le (Disk.pairwise_namesIn _ _) hfirst hmem' hentry'
  have hge : entry ≤ first := find?_le (Disk.pairwise_namesIn _ _) hentry
    (hpaths.mem_namesIn_iff.mpr ⟨other, hother⟩) ((hsame hother).symm.trans (List.find?_some hfirst))
  rw [hfirst, String.le_antisymm hle hge]
  refine ⟨_, rfl, twin_pathFile hroot hroot' ?_⟩
  exact hnamed _ _ hleads entry (List.mem_cons_of_mem _ (List.mem_singleton_self _))

end

end ApiScaffold.Document
