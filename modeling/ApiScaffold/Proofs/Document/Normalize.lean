import Mathlib.Data.List.TakeDrop
import ApiScaffold.Proofs.Disk.Outside
import ApiScaffold.Proofs.Document.Target

/-!
# Where a normalized path leads

A path is resolved component by component, and two dots leave the last directory that is left.  A
normalized path writes down the two dots that lead above its start, but the next ones take them away
again: what is left of them is their number modulo two (`foldl_normalizeStep_eq`).  So a relative
path keeps its place from every directory exactly if it rises above its start at most once
(`normalize_keeps_place_iff`).
-/

namespace ApiScaffold

open ApiScaffold.Path (Component)
open Disk (moved)

namespace Path

/-- Where components lead from a directory, whatever is there. -/
def resolveFrom (base : Location) (cs : List Component) : Location := cs.foldl moved base

/-- Where a path leads from a directory. -/
def resolved (p : Path) (base : Location) : Location := resolveFrom base p.components

/-- How many directories above their start components lead. -/
def riseOf : List Component → Nat
  | [] => 0
  | .parent :: rest => riseOf rest + 1
  | .normal _ :: rest => riseOf rest - 1
  | _ :: rest => riseOf rest

def rise (p : Path) : Nat := riseOf p.components

/-! ### Resolving -/

theorem riseOf_normal (names : List String) : riseOf (names.map .normal) = 0 := by
  induction names with
  | nil => rfl
  | cons name rest ih =>
    rw [List.map_cons, riseOf, ih]

theorem resolveFrom_normal (names : List String) : resolveFrom [] (names.map .normal) = names :=
  Disk.foldl_moved_names [] names

theorem resolveFrom_cons (base : Location) (c : Component) (cs : List Component) :
    resolveFrom base (c :: cs) = resolveFrom (moved base c) cs :=
  rfl

/-- Two dots lead nowhere from the top. -/
theorem resolveFrom_replicate (up : Nat) (cs : List Component) :
    resolveFrom [] (List.replicate up .parent ++ cs) = resolveFrom [] cs := by
  induction up with
  | zero => rfl
  | succ up ih => exact ih

theorem riseOf_replicate (up : Nat) (names : List String) :
    riseOf (List.replicate up .parent ++ names.map .normal) = up := by
  induction up with
  | zero => exact riseOf_normal names
  | succ up ih => exact congrArg (· + 1) ih

/-- **A relative path** goes up as far as it rises, and down from there as from the top. -/
theorem resolveFrom_eq {cs : List Component} (h : .root ∉ cs) (base : Location) :
    resolveFrom base cs = base.take (base.length - riseOf cs) ++ resolveFrom [] cs := by
  -- for all directories at once, since each name moves the one that the rest is seen from
  induction cs generalizing base with
  | nil => simp [resolveFrom, riseOf]
  | cons c rest ih =>
    have hrest : .root ∉ rest := fun hmem => h (List.mem_cons_of_mem c hmem)
    rw [resolveFrom_cons, resolveFrom_cons, ih hrest]
    cases c with
    | root => exact absurd List.mem_cons_self h
    | current => rfl
    | parent =>
      have hup : base.dropLast.take (base.dropLast.length - riseOf rest)
          = base.take (base.length - (riseOf rest + 1)) := by
        rw [List.dropLast_eq_take, List.take_take, List.take_eq_take_iff, List.length_take]
        omega
      exact congrArg (· ++ resolveFrom [] rest) hup
    | normal name =>
      have hbase : base.take ((base ++ [name]).length - riseOf rest)
          = base.take (base.length - (riseOf rest - 1)) := by
        rw [List.take_eq_take_iff, List.length_append, List.length_singleton]
        omega
      have hname : (base ++ [name]).length - riseOf rest - base.length
          = [name].length - riseOf rest := by
        rw [List.length_append]
        omega
      show (base ++ [name]).take ((base ++ [name]).length - riseOf rest) ++ _
        = base.take (base.length - (riseOf rest - 1)) ++ resolveFrom [name] rest
      rw [ih hrest [name], List.take_append, hbase, hname, List.append_assoc]

end Path

namespace Document

open ApiScaffold.Path (resolveFrom riseOf resolveFrom_cons)

/-! ### Normalizing -/

/-- **What is left of components**: at most two dots, and the names that they lead to. -/
theorem foldl_normalizeStep_eq {lead cs : List Component} (hlead : lead = [] ∨ lead = [.root])
    (h : .root ∉ cs) {up : Nat} (hup : up ≤ 1) (names : List String) :
    cs.foldl normalizeStep (lead ++ List.replicate up .parent ++ names.map .normal)
      = lead ++ List.replicate ((up + (riseOf cs - names.length)) % 2) .parent
        ++ (resolveFrom names cs).map .normal := by
  induction cs generalizing up names with
  | nil =>
    have hmod : (up + (riseOf [] - names.length)) % 2 = up := by
      rw [riseOf, Nat.zero_sub, Nat.add_zero]
      omega
    rw [hmod]
    rfl
  | cons c rest ih =>
    have hrest : .root ∉ rest := fun hmem => h (List.mem_cons_of_mem c hmem)
    rw [List.foldl_cons, resolveFrom_cons]
    cases c with
    | root => exact absurd List.mem_cons_self h
    | current => exact ih hrest hup names
    | normal name =>
      have hrise : riseOf rest - (names ++ [name]).length
          = riseOf (.normal name :: rest) - names.length := by
        rw [List.length_append, riseOf, List.length_singleton]
        omega
      have hih := ih hrest hup (names ++ [name])
      rw [List.map_append, ← List.append_assoc, hrise] at hih
      exact hih
    | parent =>
      rcases List.eq_nil_or_concat' names with rfl | ⟨before, name, rfl⟩
      · rw [List.map_nil, List.append_nil]
        obtain rfl | rfl : up = 0 ∨ up = 1 := by omega
        · -- nothing is left to leave: the dots are written down
          have hstep : normalizeStep (lead ++ List.replicate 0 .parent) .parent
              = lead ++ List.replicate 1 .parent := by
            rcases hlead with rfl | rfl
            · rfl
            · rfl
          have hmod : (1 + (riseOf rest - ([] : List String).length)) % 2
              = (0 + (riseOf (.parent :: rest) - ([] : List String).length)) % 2 := by
            rw [riseOf, List.length_nil]
            omega
          have hih := ih hrest (Nat.le_refl 1) []
          rw [List.map_nil, List.append_nil, hmod] at hih
          exact (congrArg (rest.foldl normalizeStep) hstep).trans hih
        · -- dots that were written down before are taken for a directory
          have hstep : normalizeStep (lead ++ List.replicate 1 .parent) .parent
              = lead ++ List.replicate 0 .parent := by
            rcases hlead with rfl | rfl
            · rfl
            · rfl
          have hmod : (0 + (riseOf rest - ([] : List String).length)) % 2
              = (1 + (riseOf (.parent :: rest) - ([] : List String).length)) % 2 := by
            rw [riseOf, List.length_nil]
            omega
          have hih := ih hrest (Nat.zero_le 1) []
          rw [List.map_nil, List.append_nil, hmod] at hih
          exact (congrArg (rest.foldl normalizeStep) hstep).trans hih
      · have hstep : normalizeStep (lead ++ List.replicate up .parent
            ++ (before ++ [name]).map .normal) .parent
            = lead ++ List.replicate up .parent ++ before.map .normal := by
          rw [List.map_append, List.map_singleton, ← List.append_assoc]
          simp only [normalizeStep, List.getLast?_concat, List.dropLast_concat]
        have hrise : riseOf rest - before.length
            = riseOf (.parent :: rest) - (before ++ [name]).length := by
          rw [List.length_append, riseOf, List.length_singleton]
          omega
        have hmoved : moved (before ++ [name]) .parent = before := List.dropLast_concat
        rw [hstep, ih hrest hup, hrise, hmoved]

theorem root_notMem_of_relative {p : Path} (h : p.isAbsolute = false) : .root ∉ p.components := by
  intro hmem
  rw [← Path.isAbsolute_iff, h] at hmem
  cases hmem

theorem resolved_normalize_of_absolute {p : Path} (h : p.isAbsolute = true) (base : Location) :
    (normalize p).resolved base = p.resolved base := by
  have hcomponents : p.components = .root :: p.names := by
    rw [Path.components_eq, Path.lead, if_pos h]
    rfl
  have hroot : .root ∉ p.names := fun hmem => nomatch (Path.isSegment_of_mem_names hmem).isInner
  have hnormal := foldl_normalizeStep_eq (Or.inr rfl) hroot (Nat.zero_le 1) []
  have hstart : p.components.foldl normalizeStep [] = p.names.foldl normalizeStep
      ([.root] ++ List.replicate 0 .parent ++ ([] : List String).map .normal) := by
    rw [hcomponents]
    rfl
  rw [Path.resolved, components_normalize, hstart, hnormal, List.append_assoc,
    List.singleton_append, resolveFrom_cons, Path.resolved, hcomponents, resolveFrom_cons]
  show resolveFrom [] _ = resolveFrom [] _
  rw [Path.resolveFrom_replicate, Path.resolveFrom_normal]

/-- A relative path that is normalized goes up at most once. -/
theorem resolved_normalize_of_relative {p : Path} (h : p.isAbsolute = false) (base : Location) :
    (normalize p).resolved base = base.take (base.length - p.rise % 2) ++ p.resolved [] := by
  have hroot := root_notMem_of_relative h
  have hnormal : (normalize p).components
      = List.replicate (p.rise % 2) .parent ++ (p.resolved []).map .normal := by
    have heq := foldl_normalizeStep_eq (Or.inl rfl) hroot (Nat.zero_le 1) []
    rw [List.length_nil, Nat.sub_zero, Nat.zero_add] at heq
    rw [components_normalize]
    exact heq
  have hroot' : .root ∉ (normalize p).components := by
    rw [hnormal]
    simp
  rw [Path.resolved, Path.resolveFrom_eq hroot', hnormal, Path.riseOf_replicate,
    Path.resolveFrom_replicate, Path.resolveFrom_normal]

/-! ### The main result -/

/-- Normalizing keeps the place of a path seen from a directory: the path starts at the root or
rises at most once, or what else it rises above is not there. -/
def KeepsPlace (p : Path) (base : Location) : Prop :=
  p.isAbsolute = true ∨ p.rise ≤ 1 ∨ base = [] ∨ (p.rise % 2 = 1 ∧ base.length = 1)

instance (p : Path) (base : Location) : Decidable (KeepsPlace p base) :=
  inferInstanceAs (Decidable (_ ∨ _))

theorem resolved_normalize_iff (p : Path) (base : Location) :
    (normalize p).resolved base = p.resolved base ↔ KeepsPlace p base := by
  unfold KeepsPlace
  cases h : p.isAbsolute with
  | true => exact iff_of_true (resolved_normalize_of_absolute h base) (Or.inl rfl)
  | false =>
    have hpath : p.resolved base = base.take (base.length - p.rise) ++ p.resolved [] :=
      Path.resolveFrom_eq (root_notMem_of_relative h) base
    rw [resolved_normalize_of_relative h, hpath, List.append_cancel_right_eq,
      List.take_eq_take_iff, ← List.length_eq_zero_iff]
    simp only [Bool.false_eq_true, false_or]
    omega

/-- What a joined path leads to is what its end leads to from the place of its start. -/
theorem resolved_join (p q : Path) (base : Location) :
    (p.join q).resolved base = q.resolved (p.resolved base) := by
  unfold Path.resolved resolveFrom
  cases hempty : p.text.isEmpty with
  | true => rw [Path.join_of_isEmpty hempty, Path.components_of_isEmpty hempty, List.foldl_nil]
  | false =>
    cases h : q.isAbsolute with
    | true =>
      have hlead : q.lead = [.root] := if_pos h
      rw [Path.join, h, Bool.true_or, if_pos rfl, Path.components_eq q, hlead]
      rfl
    | false =>
      rw [Path.components_join hempty h, Path.components_eq q, List.foldl_append, List.foldl_append,
        Disk.foldl_moved_lead h]

/-- **When normalizing keeps the place** that a path leads to; then the file that is read for a
reference with that path is the one that it names from the directory that it stands in. -/
theorem normalize_keeps_place_iff (p : Path) (base : Location) :
    ((normalize p).resolved base = p.resolved base ↔ KeepsPlace p base) ∧
    ∀ (d : Disk) (directory : Path) (reference : String) (l : Location), d.start = base →
      directory.join (filePath reference) = p →
      d.locate (Target.ofReference directory reference).file = .ok l →
        (l = (filePath reference).resolved (directory.resolved base) ↔ KeepsPlace p base) := by
  refine ⟨resolved_normalize_iff p base, ?_⟩
  rintro d directory reference l rfl rfl hl
  rw [Target.file_ofReference] at hl
  have hplace : l = (normalize (directory.join (filePath reference))).resolved d.start :=
    Disk.eq_placeOf_of_locate hl
  rw [hplace, ← resolved_join]
  exact resolved_normalize_iff _ _

/-- A file in the directory that a program is started in. -/
def sharedDisk : Disk :=
  ⟨["home", "work"], [(["home"], .directory), (["home", "work"], .directory),
    (["home", "work", "shared.yaml"], .file "type: string".toUTF8)]⟩

/-- From a directory below, the file is read that a reference names; from the directory itself, two
directories up, it is not. -/
theorem normalize_keeps_place_shared :
    sharedDisk.locate (Target.ofReference ⟨"api"⟩ "../shared.yaml#/type").file
        = .ok ["home", "work", "shared.yaml"] ∧
      Path.resolved ⟨"../shared.yaml"⟩ (Path.resolved ⟨"api"⟩ sharedDisk.start)
        = ["home", "work", "shared.yaml"] ∧
      sharedDisk.locate (Target.ofReference ⟨""⟩ "../../shared.yaml").file
        = .ok ["home", "work", "shared.yaml"] ∧
      Path.resolved ⟨"../../shared.yaml"⟩ (Path.resolved ⟨""⟩ sharedDisk.start)
        ≠ ["home", "work", "shared.yaml"] := by
  have hbelow : sharedDisk.locate (Target.ofReference ⟨"api"⟩ "../shared.yaml#/type").file
      = .ok ["home", "work", "shared.yaml"] := by decide +kernel
  have habove : sharedDisk.locate (Target.ofReference ⟨""⟩ "../../shared.yaml").file
      = .ok ["home", "work", "shared.yaml"] := by decide +kernel
  refine ⟨hbelow, ?_, habove, fun h => ?_⟩
  · have hkeeps := (normalize_keeps_place_iff _ _).2 _ _ _ _ rfl rfl hbelow
    exact (hkeeps.mpr (by decide +kernel)).symm
  · have hkeeps := (normalize_keeps_place_iff _ _).2 _ _ _ _ rfl rfl habove
    exact absurd (hkeeps.mp h.symm) (by decide +kernel)

/-- Two directories up is taken for no way at all. -/
theorem not_forall_normalize_keeps_place :
    ¬∀ (p : Path) (base : Location), (normalize p).resolved base = p.resolved base := by
  intro h
  exact absurd (h ⟨"../../shared.yaml"⟩ ["home", "work"]) (by decide +kernel)

end Document
end ApiScaffold
