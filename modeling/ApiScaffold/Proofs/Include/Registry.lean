import Mathlib.Data.List.Induction
import Mathlib.Data.List.Perm.Basic
import ApiScaffold.Include.Union
import ApiScaffold.Proofs.List.Arrival

/-!
# Registered fragments

There is one fragment for each name that was registered: the last one, where the first one stood
(`latest_register`).  A root document asks for those that its markers name, in this order
(`enabled_fst`), whatever the order of the markers.
-/

namespace ApiScaffold

open Arrival (Latest)

namespace Fragments

/-- What is known after fragments are registered one after the other. -/
def ofRegistrations (given : List Fragment) : Fragments := given.foldl register empty

/-- A fragment is registered under a name that is taken. -/
theorem register_of_mem {fs : Fragments} {f g : Fragment} {front back : List Fragment}
    (hlist : fs.list = front ++ g :: back) (hname : g.name = f.name)
    (hnodup : (fs.list.map (·.name)).Nodup) : (fs.register f).list = front ++ f :: back := by
  have hany : fs.list.any (·.name == f.name) = true :=
    List.any_eq_true.mpr ⟨g, by simp [hlist], beq_iff_eq.mpr hname⟩
  rw [hlist, List.map_append, List.map_cons, List.nodup_append, List.nodup_cons, hname] at hnodup
  obtain ⟨-, ⟨hback, -⟩, hfront⟩ := hnodup
  have hkeep : ∀ l : List Fragment, f.name ∉ l.map (·.name) →
      (l.map fun g => if g.name == f.name then f else g) = l := by
    intro l hl
    refine (List.map_congr_left fun g hg => ?_).trans (List.map_id l)
    have hne : ¬(g.name == f.name) = true := by
      rw [beq_iff_eq]
      intro hname
      exact hl (hname ▸ List.mem_map_of_mem hg)
    exact if_neg hne
  rw [register, if_pos hany]
  show fs.list.map _ = _
  rw [hlist, List.map_append, List.map_cons, hkeep front, hkeep back hback, hname, beq_self_eq_true,
    if_pos rfl]
  intro hmem
  exact hfront f.name hmem f.name List.mem_cons_self rfl

theorem register_of_notMem {fs : Fragments} {f : Fragment} (h : f.name ∉ fs.list.map (·.name)) :
    (fs.register f).list = fs.list ++ [f] := by
  have hany : ¬fs.list.any (·.name == f.name) = true := by simpa using h
  rw [register, if_neg hany]

theorem latest_register {given : List Fragment} {fs : Fragments}
    (h : Latest (·.name) given fs.list) (f : Fragment) :
    Latest (·.name) (given ++ [f]) (fs.register f).list := by
  by_cases hmem : f.name ∈ fs.list.map (·.name)
  · obtain ⟨g, hg, hname⟩ := List.mem_map.mp hmem
    obtain ⟨front, back, hlist⟩ := List.append_of_mem hg
    rw [register_of_mem hlist hname h.nodup]
    rw [hlist] at h
    exact h.replace hname
  · rw [register_of_notMem hmem]
    exact h.append hmem

/-- **What is known after fragments are registered**: the last of each name, where the first one stood. -/
theorem latest_ofRegistrations (given : List Fragment) :
    Latest (·.name) given (ofRegistrations given).list := by
  induction given using List.reverseRecOn with
  | nil => exact Latest.nil
  | append_singleton given f ih =>
    unfold ofRegistrations at *
    rw [List.foldl_append]
    exact latest_register ih f

end Fragments

namespace Include

open Yaml (Mapping)

/-- Whether a root document has a marker that is set and names a fragment. -/
def asks (root : Mapping) (name : String) : Bool :=
  root.any fun e => marked? e.1 == some name && e.2.bool? == some true

theorem asks_perm {root root' : Mapping} (h : root.Perm root') (name : String) :
    asks root name = asks root' name := h.any_eq

/-- **What a root document asks for**, in the order in which it was registered. -/
theorem enabled_fst (fs : Fragments) (root : Mapping) :
    (enabled fs root).1 = fs.list.filter fun f => asks root f.name := by
  unfold enabled asks
  refine List.filter_congr fun f _ => ?_
  rw [Bool.eq_iff_iff, List.contains_iff_mem, List.mem_filterMap, List.any_eq_true]
  simp only [Option.filter_eq_some_iff, Bool.and_eq_true, beq_iff_eq]

theorem enabled_of_unmarked {fs : Fragments} {root : Mapping}
    (h : ∀ e ∈ root, marked? e.1 = none) : (enabled fs root).1 = [] := by
  rw [enabled_fst, List.filter_eq_nil_iff]
  intro f _ hf
  obtain ⟨e, he, hmarked⟩ := List.any_eq_true.mp hf
  rw [h e he] at hmarked
  cases hmarked

end Include
end ApiScaffold
