import Mathlib.Data.List.ProdSigma
import Mathlib.Data.List.Perm.Subperm
import ApiScaffold.Proofs.Document.Wanted

/-!
# How components are registered

`Runs` is a run of `register` with the components that it loads: one that was met before is passed
over, one that is there already stays, any other is loaded, and what its file wants comes next.
`Registers` is a run that does not fail, with the log of what the files give.  `register` always runs
to its end (`exists_runs`): its bound counts the components that files of the disk can be, and no
component is loaded twice.
-/

namespace ApiScaffold.Document

open ApiScaffold.Path (Component)

/-- The entry for a component among the parts of a document. -/
def componentAt? (components : List (String × Json)) (kind name : String) : Option Json :=
  (components.lookup kind).bind (·.get? name)

def Wanted.key (w : Wanted) : String × String := (w.kind, w.name)

def withEntry (components entries : List (String × Json)) (w : Wanted) (v : Json) :
    List (String × Json) :=
  Keyed.insert w.kind (.obj (Keyed.insert w.name v entries)) components

/-- A run of `register` from the components it has met (`seen`), those it still wants, and the parts
as they are; `log` has what it loads, in order, and the last list is the result. -/
inductive Registers (d : Disk) : List (String × String) → List Wanted → List (String × Json) →
    List (Wanted × Bundled Json) → List (String × Json) → Prop
  | done {seen : List (String × String)} {components : List (String × Json)} :
    Registers d seen [] components [] components
  | again {seen : List (String × String)} {w : Wanted} {rest : List Wanted}
    {components result : List (String × Json)} {log : List (Wanted × Bundled Json)} :
    w.key ∈ seen → Registers d seen rest components log result →
    Registers d seen (w :: rest) components log result
  | present {seen : List (String × String)} {w : Wanted} {rest : List Wanted}
    {components entries result : List (String × Json)} {log : List (Wanted × Bundled Json)} :
    w.key ∉ seen → part components w.kind = .ok entries → (entries.lookup w.name).isSome →
    Registers d (w.key :: seen) rest components log result →
    Registers d seen (w :: rest) components log result
  | load {seen : List (String × String)} {w : Wanted} {rest more : List Wanted} {v : Json}
    {components entries result : List (String × Json)} {log : List (Wanted × Bundled Json)} :
    w.key ∉ seen → part components w.kind = .ok entries → entries.lookup w.name = none →
    loadFile d w.file = .ok (v, more) →
    Registers d (w.key :: seen) (more.reverse ++ rest) (withEntry components entries w v) log result →
    Registers d seen (w :: rest) components ((w, v, more) :: log) result

/-- A run of `register` to its end, which may be a failure: `loaded` are the components whose files
it loads, in order, and the last argument is what it gives. -/
inductive Runs (d : Disk) : List (String × String) → List Wanted → List (String × Json) →
    List Wanted → Except Failure (List (String × Json)) → Prop
  | done {seen : List (String × String)} {parts : List (String × Json)} :
    Runs d seen [] parts [] (.ok parts)
  | again {seen : List (String × String)} {w : Wanted} {rest loaded : List Wanted}
    {parts : List (String × Json)} {r : Except Failure (List (String × Json))} :
    w.key ∈ seen → Runs d seen rest parts loaded r → Runs d seen (w :: rest) parts loaded r
  | noMapping {seen : List (String × String)} {w : Wanted} {rest : List Wanted}
    {parts : List (String × Json)} {e : Failure} :
    w.key ∉ seen → part parts w.kind = .error e → Runs d seen (w :: rest) parts [] (.error e)
  | present {seen : List (String × String)} {w : Wanted} {rest loaded : List Wanted}
    {parts entries : List (String × Json)} {r : Except Failure (List (String × Json))} :
    w.key ∉ seen → part parts w.kind = .ok entries → (entries.lookup w.name).isSome →
    Runs d (w.key :: seen) rest parts loaded r → Runs d seen (w :: rest) parts loaded r
  | fails {seen : List (String × String)} {w : Wanted} {rest : List Wanted}
    {parts entries : List (String × Json)} {e : Failure} :
    w.key ∉ seen → part parts w.kind = .ok entries → entries.lookup w.name = none →
    loadFile d w.file = .error e → Runs d seen (w :: rest) parts [w] (.error e)
  | load {seen : List (String × String)} {w : Wanted} {rest loaded : List Wanted}
    {parts entries : List (String × Json)} {out : Bundled Json}
    {r : Except Failure (List (String × Json))} :
    w.key ∉ seen → part parts w.kind = .ok entries → entries.lookup w.name = none →
    loadFile d w.file = .ok out →
    Runs d (w.key :: seen) (out.2.reverse ++ rest) (withEntry parts entries w out.1) loaded r →
    Runs d seen (w :: rest) parts (w :: loaded) r

/-! ### The bound -/

/-- The components that files of a disk can be. -/
def components (d : Disk) : List (String × String) :=
  kinds ×ˢ d.nodes.map fun node => (Path.splitEnding (node.1.getLast?.getD "")).1

theorem length_components (d : Disk) : (components d).length = registerBound d := by
  unfold components registerBound
  rw [List.length_product, List.length_map]

theorem Wanted.Named.key_mem {d : Disk} {w : Wanted} {out : Bundled Json} (hw : w.Named)
    (h : loadFile d w.file = .ok out) : w.key ∈ components d := by
  obtain ⟨p, kind, hkind, rfl⟩ := hw
  obtain ⟨before, directory, name, hcs⟩ := exists_fileName?_of_kindOf? hkind
  have hfile : (normalize p).fileName? = some name := by
    rw [Path.fileName?_eq, hcs]
    simp [Component.name?]
  obtain ⟨s, hs⟩ : ∃ s, d.readText (normalize p) = .ok s := by
    unfold loadFile nestingLimit loadTarget read at h
    obtain ⟨v, hread, -⟩ := bind_eq_ok.mp h
    obtain ⟨s, hs, -⟩ := bind_eq_ok.mp hread
    exact ⟨s, Disk.during_eq_ok.mp hs⟩
  have hlast : (normalize p).components = (before ++ [.normal directory]) ++ [.normal name] := by
    rw [hcs, List.append_assoc]
    rfl
  obtain ⟨l, bytes, hmem⟩ := Disk.exists_node_of_readText hs hlast
  have hmemKind : kind ∈ kinds := by
    obtain ⟨_, directory', _, _, hnamed⟩ := kindOf?_eq_some_iff.mp hkind
    exact List.mem_of_find?_eq_some hnamed
  refine List.mem_product.mpr ⟨hmemKind, List.mem_map.mpr ⟨_, hmem, ?_⟩⟩
  show (Path.splitEnding ((l ++ [name]).getLast?.getD "")).1 = (normalize p).stem?.getD ""
  rw [List.getLast?_concat, Path.stem?, hfile]
  rfl

theorem register_again {d : Disk} {bound : Nat} {w : Wanted} {rest : List Wanted}
    {seen : List (String × String)} {parts : List (String × Json)} (hw : w.key ∈ seen) :
    register d bound seen (w :: rest) parts = register d bound seen rest parts := by
  rw [register, show (w.kind, w.name) = w.key from rfl, if_pos (List.contains_iff_mem.mpr hw)]

/-- The turn of `register` for a component that it meets for the first time. -/
theorem register_new {d : Disk} {bound : Nat} {w : Wanted} {rest : List Wanted}
    {seen : List (String × String)} {parts : List (String × Json)} (hw : w.key ∉ seen) :
    register d bound seen (w :: rest) parts = (do
      let entries ← part parts w.kind
      if (entries.lookup w.name).isSome then register d bound (w.key :: seen) rest parts
      else
        let out ← loadFile d w.file
        match bound with
        | 0 => return parts
        | left + 1 =>
          register d left (w.key :: seen) (out.2.reverse ++ rest)
            (withEntry parts entries w out.1)) := by
  rw [register, show (w.kind, w.name) = w.key from rfl,
    if_neg fun hcontains => hw (List.contains_iff_mem.mp hcontains)]
  cases bound with
  | zero => rfl
  | succ left => rfl

/-- **`register` runs to its end**, and what it gives is the outcome of the run.  `done` are the
components loaded before. -/
theorem exists_runs_of_bound {d : Disk} {bound : Nat} {wanted : List Wanted}
    {seen done : List (String × String)} {parts : List (String × Json)}
    (hnamed : ∀ w ∈ wanted, w.Named) (hnodup : done.Nodup) (hseen : done ⊆ seen)
    (hfiles : done ⊆ components d) (hbound : done.length + bound = registerBound d) :
    ∃ loaded, Runs d seen wanted parts loaded (register d bound seen wanted parts) := by
  induction bound using Nat.strongRecOn generalizing wanted seen done parts with
  | ind bound ihBound =>
    induction wanted generalizing seen parts with
    | nil =>
      rw [register]
      exact ⟨[], .done⟩
    | cons w rest ih =>
      have hrest : ∀ w ∈ rest, w.Named := fun w hw => hnamed w (List.mem_cons_of_mem _ hw)
      by_cases hw : w.key ∈ seen
      · rw [register_again hw]
        obtain ⟨loaded, hruns⟩ := ih hrest hseen
        exact ⟨loaded, .again hw hruns⟩
      rw [register_new hw]
      cases hpart : part parts w.kind with
      | error e => exact ⟨[], .noMapping hw hpart⟩
      | ok entries =>
        by_cases hentry : (entries.lookup w.name).isSome = true
        · obtain ⟨loaded, hruns⟩ := ih hrest fun k hk => List.mem_cons_of_mem _ (hseen hk)
          refine ⟨loaded, .present hw hpart hentry ?_⟩
          simp only [bind, Except.bind, hentry, if_true]
          exact hruns
        have hnone := Option.not_isSome_iff_eq_none.mp hentry
        simp only [bind, Except.bind, hentry, if_false, Bool.false_eq_true]
        cases hload : loadFile d w.file with
        | error e => exact ⟨[w], .fails hw hpart hnone hload⟩
        | ok out =>
          have hkey := (hnamed w List.mem_cons_self).key_mem hload
          have hnodup' : (w.key :: done).Nodup := List.nodup_cons.mpr ⟨fun hk => hw (hseen hk), hnodup⟩
          have hfiles' : w.key :: done ⊆ components d := List.cons_subset.mpr ⟨hkey, hfiles⟩
          -- a component that can be loaded leaves room in the bound
          have hlength := (hnodup'.subperm hfiles').length_le
          rw [length_components, List.length_cons] at hlength
          obtain ⟨left, rfl⟩ : ∃ left, bound = left + 1 := ⟨bound - 1, by omega⟩
          have hmore : ∀ w ∈ out.2.reverse ++ rest, w.Named := by
            intro w' hw'
            rcases List.mem_append.mp hw' with hw' | hw'
            · exact named_of_loadTarget hload w' (List.mem_reverse.mp hw')
            · exact hrest w' hw'
          obtain ⟨loaded, hruns⟩ := ihBound left (Nat.lt_succ_self left) hmore hnodup'
            (List.cons_subset.mpr
              ⟨List.mem_cons_self, fun k hk => List.mem_cons_of_mem _ (hseen hk)⟩)
            hfiles' (by rw [List.length_cons]; omega)
          exact ⟨w :: loaded, .load hw hpart hnone hload hruns⟩

theorem exists_runs {d : Disk} {wanted : List Wanted} (hnamed : ∀ w ∈ wanted, w.Named)
    (parts : List (String × Json)) :
    ∃ loaded, Runs d [] wanted parts loaded (register d (registerBound d) [] wanted parts) :=
  exists_runs_of_bound hnamed (List.nodup_nil : ([] : List (String × String)).Nodup)
    (List.nil_subset _) (List.nil_subset _) (Nat.zero_add _)

/-- A run that does not fail, with what the files of its components give. -/
theorem Runs.exists_registers {d : Disk} {seen : List (String × String)} {wanted loaded : List Wanted}
    {parts result : List (String × Json)} (h : Runs d seen wanted parts loaded (.ok result)) :
    ∃ log, Registers d seen wanted parts log result ∧ loaded = log.map Prod.fst := by
  generalize hr : Except.ok result = r at h
  induction h with
  | done =>
    cases hr
    exact ⟨[], .done, rfl⟩
  | again hw _ ih =>
    obtain ⟨log, hlog, hloaded⟩ := ih hr
    exact ⟨log, .again hw hlog, hloaded⟩
  | noMapping => cases hr
  | present hw hpart hentry _ ih =>
    obtain ⟨log, hlog, hloaded⟩ := ih hr
    exact ⟨log, .present hw hpart hentry hlog, hloaded⟩
  | fails => cases hr
  | load hw hpart hentry hload _ ih =>
    obtain ⟨log, hlog, rfl⟩ := ih hr
    exact ⟨_, .load hw hpart hentry hload hlog, rfl⟩

/-! ### What a run of `register` leaves -/

theorem componentAt?_of_part {parts entries : List (String × Json)} {kind : String}
    (h : part parts kind = .ok entries) (name : String) :
    componentAt? parts kind name = entries.lookup name := by
  unfold part at h
  unfold componentAt?
  split at h
  · rename_i hnone
    cases h
    rw [hnone]
    rfl
  · rename_i hsome
    cases h
    rw [hsome]
    rfl
  · cases h

theorem componentAt?_withEntry_self {parts entries : List (String × Json)} (w : Wanted) (v : Json) :
    componentAt? (withEntry parts entries w v) w.kind w.name = some v := by
  unfold componentAt? withEntry
  rw [Keyed.lookup_insert_self]
  exact Keyed.lookup_insert_self _ _ _

theorem componentAt?_withEntry_of_ne {parts entries : List (String × Json)} {w : Wanted}
    (h : part parts w.kind = .ok entries) (v : Json) {kind name : String}
    (hne : (kind, name) ≠ w.key) :
    componentAt? (withEntry parts entries w v) kind name = componentAt? parts kind name := by
  by_cases hkind : kind = w.kind
  · subst hkind
    have hname : name ≠ w.name := by
      rintro rfl
      exact hne rfl
    rw [componentAt?_of_part h, componentAt?, withEntry, Keyed.lookup_insert_self]
    exact Keyed.lookup_insert_of_ne hname _ _
  · unfold componentAt? withEntry
    rw [Keyed.lookup_insert_of_ne hkind]

def logged? (log : List (Wanted × Bundled Json)) (key : String × String) : Option Json :=
  (log.find? (·.1.key == key)).map fun l => l.2.1

/-- **What is registered is loaded, and what is there stays.** -/
theorem Registers.componentAt?_eq {d : Disk} {seen : List (String × String)} {wanted : List Wanted}
    {parts result : List (String × Json)} {log : List (Wanted × Bundled Json)}
    (h : Registers d seen wanted parts log result) (kind name : String) :
    componentAt? result kind name = (componentAt? parts kind name).or (logged? log (kind, name)) := by
  induction h with
  | done => exact (Option.or_none).symm
  | again _ _ ih => exact ih
  | present _ _ _ _ ih => exact ih
  | load hw hpart hentry hload h ih =>
    rename_i seen w rest more v parts entries result log
    rw [ih]
    by_cases hkey : (kind, name) = w.key
    · cases hkey
      rw [componentAt?_withEntry_self, componentAt?_of_part hpart, hentry]
      simp [logged?, Wanted.key]
    · rw [componentAt?_withEntry_of_ne hpart v hkey, logged?, logged?, List.find?_cons_of_neg]
      simpa using fun h => hkey h.symm

theorem Registers.loadFile_eq {d : Disk} {seen : List (String × String)} {wanted : List Wanted}
    {parts result : List (String × Json)} {log : List (Wanted × Bundled Json)}
    (h : Registers d seen wanted parts log result) : ∀ l ∈ log, loadFile d l.1.file = .ok l.2 := by
  induction h with
  | done => exact fun l hl => by cases hl
  | again _ _ ih => exact ih
  | present _ _ _ _ ih => exact ih
  | load _ _ _ hload _ ih =>
    intro l hl
    rcases List.mem_cons.mp hl with rfl | hl
    · exact hload
    · exact ih l hl

end ApiScaffold.Document
