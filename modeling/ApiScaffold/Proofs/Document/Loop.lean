import ApiScaffold.Proofs.Document.Register

/-!
# The loop that registers components

There is one run of the loop from what is wanted, and it loads no component twice.  What it loads was
wanted at the start or by a file that it loaded before (`Comes`).  A run that does not fail has an
entry for all of these at its end; one that fails could not load a file, or met a part of the
document that is no mapping.
-/

namespace ApiScaffold.Document

/-- A component that is wanted at the start, or by the file of a component that is loaded. -/
def Comes (d : Disk) (wanted loaded : List Wanted) (w : Wanted) : Prop :=
  w ∈ wanted ∨ ∃ l ∈ loaded, ∃ out, loadFile d l.file = .ok out ∧ w ∈ out.2

section

variable {d : Disk} {seen : List (String × String)} {wanted loaded loaded' : List Wanted}
  {parts result : List (String × Json)} {r r' : Except Failure (List (String × Json))}

/-- **The loop has one run.** -/
theorem Runs.unique (h : Runs d seen wanted parts loaded r) (h' : Runs d seen wanted parts loaded' r') :
    loaded = loaded' ∧ r = r' := by
  -- on one run: the guards of its steps exclude each other
  induction h generalizing loaded' r' with
  | done =>
    cases h'
    exact ⟨rfl, rfl⟩
  | again hw _ ih =>
    cases h' with
    | again _ h' => exact ih h'
    | noMapping => contradiction
    | present => contradiction
    | fails => contradiction
    | load => contradiction
  | noMapping hw hpart =>
    cases h' with
    | again => contradiction
    | noMapping _ hpart' =>
      cases hpart.symm.trans hpart'
      exact ⟨rfl, rfl⟩
    | present _ hpart' => cases hpart.symm.trans hpart'
    | fails _ hpart' => cases hpart.symm.trans hpart'
    | load _ hpart' => cases hpart.symm.trans hpart'
  | present hw hpart hentry _ ih =>
    cases h' with
    | again => contradiction
    | noMapping _ hpart' => cases hpart.symm.trans hpart'
    | present _ _ _ h' => exact ih h'
    | fails _ hpart' hnone =>
      cases hpart.symm.trans hpart'
      rw [hnone] at hentry
      cases hentry
    | load _ hpart' hnone =>
      cases hpart.symm.trans hpart'
      rw [hnone] at hentry
      cases hentry
  | fails hw hpart hnone hload =>
    cases h' with
    | again => contradiction
    | noMapping _ hpart' => cases hpart.symm.trans hpart'
    | present _ hpart' hentry =>
      cases hpart.symm.trans hpart'
      rw [hnone] at hentry
      cases hentry
    | fails _ _ _ hload' =>
      cases hload.symm.trans hload'
      exact ⟨rfl, rfl⟩
    | load _ _ _ hload' => cases hload.symm.trans hload'
  | load hw hpart hnone hload _ ih =>
    cases h' with
    | again => contradiction
    | noMapping _ hpart' => cases hpart.symm.trans hpart'
    | present _ hpart' hentry =>
      cases hpart.symm.trans hpart'
      rw [hnone] at hentry
      cases hentry
    | fails _ _ _ hload' => cases hload.symm.trans hload'
    | load _ hpart' _ hload' h' =>
      cases hpart.symm.trans hpart'
      cases hload.symm.trans hload'
      obtain ⟨rfl, rfl⟩ := ih h'
      exact ⟨rfl, rfl⟩

/-- **No component is loaded twice**, and none that was met before. -/
theorem Runs.nodup (h : Runs d seen wanted parts loaded r) :
    (loaded.map Wanted.key).Nodup ∧ ∀ w ∈ loaded, w.key ∉ seen := by
  induction h with
  | done => exact ⟨List.nodup_nil, nofun⟩
  | again _ _ ih => exact ih
  | noMapping => exact ⟨List.nodup_nil, nofun⟩
  | present _ _ _ _ ih =>
    exact ⟨ih.1, fun w hw hseen => ih.2 w hw (List.mem_cons_of_mem _ hseen)⟩
  | fails hw =>
    refine ⟨List.pairwise_singleton _ _, fun w' hw' => ?_⟩
    rw [List.mem_singleton.mp hw']
    exact hw
  | load hw _ _ _ _ ih =>
    refine ⟨List.nodup_cons.mpr ⟨fun hmem => ?_, ih.1⟩, fun w' hw' => ?_⟩
    · obtain ⟨w', hw', hkey⟩ := List.mem_map.mp hmem
      exact ih.2 w' hw' (hkey ▸ List.mem_cons_self)
    · rcases List.mem_cons.mp hw' with rfl | hw'
      · exact hw
      · exact fun hseen => ih.2 w' hw' (List.mem_cons_of_mem _ hseen)

/-! ### Where components come from -/

theorem Comes.skip {w w' : Wanted} {rest : List Wanted} (h : Comes d rest loaded w) :
    Comes d (w' :: rest) loaded w :=
  h.imp_left (List.mem_cons_of_mem _)

/-- What comes after a component was loaded came with it, or was wanted already. -/
theorem Comes.of_load {w w' : Wanted} {rest : List Wanted} {out : Bundled Json}
    (hload : loadFile d w'.file = .ok out) (h : Comes d (out.2.reverse ++ rest) loaded w) :
    Comes d (w' :: rest) (w' :: loaded) w := by
  rcases h with h | ⟨l, hl, h⟩
  · rcases List.mem_append.mp h with h | h
    · exact .inr ⟨w', List.mem_cons_self, out, hload, List.mem_reverse.mp h⟩
    · exact .inl (List.mem_cons_of_mem _ h)
  · exact .inr ⟨l, List.mem_cons_of_mem _ hl, h⟩

/-- What holds of all that is wanted at the start, and of what the file of a loaded component wants if
it holds of the component, holds of all that is loaded. -/
theorem Runs.forall_loaded {P : Wanted → Prop} (h : Runs d seen wanted parts loaded r)
    (hwanted : ∀ w ∈ wanted, P w)
    (hfile : ∀ w ∈ loaded, P w → ∀ out, loadFile d w.file = .ok out → ∀ w' ∈ out.2, P w') :
    ∀ w ∈ loaded, P w := by
  induction h with
  | done => exact nofun
  | again _ _ ih => exact ih (List.forall_mem_cons.mp hwanted).2 hfile
  | noMapping => exact nofun
  | present _ _ _ _ ih => exact ih (List.forall_mem_cons.mp hwanted).2 hfile
  | fails =>
    intro w hw
    rw [List.mem_singleton.mp hw]
    exact hwanted _ List.mem_cons_self
  | @load _ w rest _ _ _ out _ _ _ _ hload _ ih =>
    obtain ⟨hw, hrest⟩ := List.forall_mem_cons.mp hwanted
    rw [List.forall_mem_cons] at hfile ⊢
    refine ⟨hw, ih (fun w' hw' => ?_) hfile.2⟩
    rcases List.mem_append.mp hw' with hw' | hw'
    · exact hfile.1 hw out hload w' (List.mem_reverse.mp hw')
    · exact hrest w' hw'

/-! ### Entries -/

theorem exists_part_of_componentAt? {kind name : String} (h : (componentAt? parts kind name).isSome) :
    ∃ entries, part parts kind = .ok entries := by
  unfold componentAt? at h
  unfold part
  cases hlookup : parts.lookup kind with
  | none => exact ⟨[], rfl⟩
  | some v =>
    rw [hlookup] at h
    cases v with
    | obj entries => exact ⟨entries, rfl⟩
    | _ => cases h

/-- A new entry neither makes a mapping of what is none nor the other way round. -/
theorem part_withEntry_isOk_iff {entries : List (String × Json)} {w : Wanted}
    (h : part parts w.kind = .ok entries) (v : Json) (kind : String) :
    (∃ es, part (withEntry parts entries w v) kind = .ok es) ↔ ∃ es, part parts kind = .ok es := by
  by_cases hkind : kind = w.kind
  · subst hkind
    refine ⟨fun _ => ⟨entries, h⟩, fun _ => ⟨Keyed.insert w.name v entries, ?_⟩⟩
    rw [part, withEntry, Keyed.lookup_insert_self]
  · rw [part, withEntry, Keyed.lookup_insert_of_ne hkind, part]

theorem Registers.part_isOk {log : List (Wanted × Bundled Json)} {kind : String}
    (h : Registers d seen wanted parts log result) (hpart : ∃ es, part result kind = .ok es) :
    ∃ es, part parts kind = .ok es := by
  induction h with
  | done => exact hpart
  | again _ _ ih => exact ih hpart
  | present _ _ _ _ ih => exact ih hpart
  | load _ hpart' _ _ _ ih => exact (part_withEntry_isOk_iff hpart' _ kind).mp (ih hpart)

theorem Registers.isSome_componentAt? {log : List (Wanted × Bundled Json)} {kind name : String}
    (h : Registers d seen wanted parts log result) (hentry : (componentAt? parts kind name).isSome) :
    (componentAt? result kind name).isSome := by
  rw [h.componentAt?_eq]
  obtain ⟨v, hv⟩ := Option.isSome_iff_exists.mp hentry
  rw [hv]
  rfl

/-- **All that is wanted has an entry** when the loop is done.  What was met before has one at the
start. -/
theorem Registers.settled {log : List (Wanted × Bundled Json)}
    (h : Registers d seen wanted parts log result)
    (hseen : ∀ k ∈ seen, (componentAt? parts k.1 k.2).isSome) {w : Wanted}
    (hw : Comes d wanted (log.map Prod.fst) w) : (componentAt? result w.kind w.name).isSome := by
  -- on the run; what has been met is there, from the step in which it was met
  induction h with
  | done =>
    rcases hw with hw | ⟨l, hl, -⟩
    · cases hw
    · cases hl
  | again hmet h ih =>
    rcases hw with hw | hw
    · rcases List.mem_cons.mp hw with rfl | hw
      · exact h.isSome_componentAt? (hseen _ hmet)
      · exact ih hseen (.inl hw)
    · exact ih hseen (.inr hw)
  | @present seen w' rest parts entries result log _ hpart hentry h ih =>
    have hthere : (componentAt? parts w'.kind w'.name).isSome := by
      rw [componentAt?_of_part hpart]
      exact hentry
    have hseen' : ∀ k ∈ w'.key :: seen, (componentAt? parts k.1 k.2).isSome := by
      rintro k hk
      rcases List.mem_cons.mp hk with rfl | hk
      · exact hthere
      · exact hseen k hk
    rcases hw with hw | hw
    · rcases List.mem_cons.mp hw with rfl | hw
      · exact h.isSome_componentAt? hthere
      · exact ih hseen' (.inl hw)
    · exact ih hseen' (.inr hw)
  | @load seen w' rest more v parts entries result log _ hpart hnone hload h ih =>
    have hthere : (componentAt? (withEntry parts entries w' v) w'.kind w'.name).isSome := by
      rw [componentAt?_withEntry_self]
      rfl
    have hseen' : ∀ k ∈ w'.key :: seen,
        (componentAt? (withEntry parts entries w' v) k.1 k.2).isSome := by
      rintro k hk
      rcases List.mem_cons.mp hk with rfl | hk
      · exact hthere
      by_cases hkey : k = w'.key
      · rw [hkey]
        exact hthere
      · rw [componentAt?_withEntry_of_ne hpart v hkey]
        exact hseen k hk
    rcases hw with hw | ⟨l, hl, out, hout, hw⟩
    · rcases List.mem_cons.mp hw with rfl | hw
      · exact h.isSome_componentAt? hthere
      · exact ih hseen' (.inl (List.mem_append_right _ hw))
    · rcases List.mem_cons.mp hl with rfl | hl
      · cases hload.symm.trans hout
        exact ih hseen' (.inl (List.mem_append_left _ (List.mem_reverse.mpr hw)))
      · exact ih hseen' (.inr ⟨l, hl, out, hout, hw⟩)

/-- **Why the loop fails.** -/
theorem Runs.failure {e : Failure} (h : Runs d seen wanted parts loaded (.error e)) :
    (∃ w ∈ loaded, loadFile d w.file = .error e) ∨
      ∃ w, Comes d wanted loaded w ∧ ¬∃ es, part parts w.kind = .ok es := by
  generalize hr : Except.error e = r at h
  induction h with
  | done => cases hr
  | again _ _ ih => exact (ih hr).imp_right fun ⟨w, hw, hpart⟩ => ⟨w, hw.skip, hpart⟩
  | @noMapping _ w _ _ _ _ hpart =>
    refine .inr ⟨w, .inl List.mem_cons_self, ?_⟩
    rw [hpart]
    nofun
  | present _ _ _ _ ih => exact (ih hr).imp_right fun ⟨w, hw, hpart⟩ => ⟨w, hw.skip, hpart⟩
  | fails _ _ _ hload =>
    cases hr
    exact .inl ⟨_, List.mem_singleton_self _, hload⟩
  | load _ hpart _ hload _ ih =>
    rcases ih hr with ⟨w, hw, hfail⟩ | ⟨w, hw, hnone⟩
    · exact .inl ⟨w, List.mem_cons_of_mem _ hw, hfail⟩
    · exact .inr ⟨w, hw.of_load hload, (part_withEntry_isOk_iff hpart _ w.kind).not.mp hnone⟩

end

end ApiScaffold.Document
