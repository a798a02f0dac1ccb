import Mathlib.Data.List.Basic
import ApiScaffold.Disk
import ApiScaffold.Proofs.Outcome
import ApiScaffold.Proofs.Path.Components

/-!
# Places that paths name

A path leads from the start of a disk through its components, each from a directory; `moved` is where
one of them leads.
-/

namespace ApiScaffold.Disk

open ApiScaffold.Path (Component)

/-- Where a component leads from a directory. -/
def moved (l : Location) : Component → Location
  | .root => []
  | .current => l
  | .parent => l.dropLast
  | .normal name => l ++ [name]

theorem step_eq_ok {d : Disk} {l l' : Location} {c : Component} :
    d.step l c = .ok l' ↔ d.node? l = some .directory ∧ l' = moved l c := by
  unfold step
  cases hnode : d.node? l with
  | none =>
    constructor
    · intro h
      cases h
    · rintro ⟨h, -⟩
      cases h
  | some node =>
    cases node with
    | file bytes =>
      constructor
      · intro h
        cases h
      · rintro ⟨h, -⟩
        cases h
    | directory =>
      cases c with
      | root => simp only [moved, Except.ok.injEq, true_and, eq_comm]
      | current => simp only [moved, Except.ok.injEq, true_and, eq_comm]
      | parent => simp only [moved, Except.ok.injEq, true_and, eq_comm]
      | normal name => simp only [moved, Except.ok.injEq, true_and, eq_comm]

/-- Behind the components of a path comes one more. -/
theorem foldlM_step_concat {d : Disk} {cs : List Component} {c : Component} {start l : Location} :
    (cs ++ [c]).foldlM d.step start = .ok l
      ↔ ∃ before, cs.foldlM d.step start = .ok before ∧ d.node? before = some .directory
        ∧ l = moved before c := by
  rw [List.foldlM_append, bind_eq_ok]
  constructor
  · rintro ⟨before, hbefore, h⟩
    rw [List.foldlM_cons, bind_eq_ok] at h
    obtain ⟨l', hstep, hl⟩ := h
    cases hl
    obtain ⟨hnode, hmoved⟩ := step_eq_ok.mp hstep
    exact ⟨before, hbefore, hnode, hmoved⟩
  · rintro ⟨before, hbefore, hnode, hmoved⟩
    refine ⟨before, hbefore, ?_⟩
    rw [List.foldlM_cons, bind_eq_ok]
    exact ⟨l, step_eq_ok.mpr ⟨hnode, hmoved⟩, rfl⟩

/-! ### Paths that end with a name -/

theorem not_isSuffixOf_slash {s name : List Char} (hne : name ≠ []) (hslash : '/' ∉ name) :
    ['/'].isSuffixOf (s ++ name) = false := by
  rw [Bool.eq_false_iff, ne_eq, List.isSuffixOf_iff_suffix]
  intro h
  obtain ⟨before, last, rfl⟩ := (List.eq_nil_or_concat' name).resolve_left hne
  obtain ⟨t, ht⟩ := h
  rw [← List.append_assoc] at ht
  have hlast := (List.append_inj' ht rfl).2
  rw [List.cons.injEq] at hlast
  exact hslash (by rw [hlast.1]; exact List.mem_append_right _ List.mem_cons_self)

theorem not_isSuffixOf_dot {s name : List Char} (hne : name ≠ []) (hslash : '/' ∉ name)
    (hdot : name ≠ ['.']) : ['/', '.'].isSuffixOf (s ++ name) = false := by
  rw [Bool.eq_false_iff, ne_eq, List.isSuffixOf_iff_suffix]
  intro h
  obtain ⟨before, last, rfl⟩ := (List.eq_nil_or_concat' name).resolve_left hne
  obtain ⟨t, ht⟩ := h
  rw [show ['/', '.'] = ['/'] ++ ['.'] from rfl, ← List.append_assoc, ← List.append_assoc] at ht
  obtain ⟨hinit, hlast⟩ := List.append_inj' ht rfl
  rw [List.cons.injEq] at hlast
  rcases List.eq_nil_or_concat' before with rfl | ⟨more, c, rfl⟩
  · exact hdot (by rw [← hlast.1]; rfl)
  · rw [← List.append_assoc] at hinit
    have hc := (List.append_inj' hinit rfl).2
    rw [List.cons.injEq] at hc
    exact hslash (by rw [hc.1]; simp)

theorem asksDirectory_of_name {p : Path} {s name : List Char} (hp : p.text.toList = s ++ name)
    (hne : name ≠ []) (hslash : '/' ∉ name) (hdot : name ≠ ['.']) : asksDirectory p = false := by
  unfold asksDirectory Text.endsWith
  rw [hp]
  show (['/'].isSuffixOf _ || ['/', '.'].isSuffixOf _) = false
  rw [not_isSuffixOf_slash hne hslash, not_isSuffixOf_dot hne hslash hdot]
  rfl

theorem asksDirectory_eq_false {p : Path} {s : List Char} {c : Component} (hc : c.IsSegment)
    (hp : p.text.toList = s ++ c.text.toList) : asksDirectory p = false := by
  have hread := hc.read
  have hne : c.text.toList ≠ [] := by
    intro h
    rw [String.toList_eq_nil_iff.mp h] at hread
    cases hread
  have hdot : c.text.toList ≠ ['.'] := by
    intro h
    have htext : c.text = "." := by rw [← String.ofList_toList (s := c.text), h]
    rw [htext] at hread
    cases hread
  exact asksDirectory_of_name hp hne hc.noSlash hdot

theorem asksDirectory_joinName (p : Path) {c : Component} (hc : c.IsSegment) :
    asksDirectory (p.joinName c.text) = false := by
  have htext : ∃ s, (p.joinName c.text).text.toList = s ++ c.text.toList := by
    unfold Path.joinName Path.join
    split
    · exact ⟨[], rfl⟩
    · split
      · exact ⟨p.text.toList, String.toList_append⟩
      · exact ⟨p.text.toList ++ ['/'], by rw [String.toList_append, String.toList_append]; rfl⟩
  obtain ⟨s, hs⟩ := htext
  exact asksDirectory_eq_false hc hs

/-! ### Places -/

/-- A path names a place that its components lead to; only a directory may be asked for as one. -/
theorem locate_eq_ok {d : Disk} {p : Path} {l : Location} :
    d.locate p = .ok l ↔ p.text.isEmpty = false ∧ p.components.foldlM d.step d.start = .ok l
      ∧ ((∃ bytes, d.node? l = some (.file bytes)) → asksDirectory p = false) := by
  unfold locate
  cases hempty : p.text.isEmpty with
  | true =>
    constructor
    · intro h
      cases h
    · rintro ⟨h, -⟩
      cases h
  | false =>
    rw [if_neg Bool.false_ne_true]
    constructor
    · intro h
      obtain ⟨l', hl', h⟩ := bind_eq_ok.mp h
      -- whatever is found, only a file can be asked for in the wrong way
      cases hnode : d.node? l' with
      | none =>
        rw [hnode] at h
        cases h
        refine ⟨rfl, hl', ?_⟩
        rintro ⟨bytes, hbytes⟩
        rw [hnode] at hbytes
        cases hbytes
      | some node =>
        rw [hnode] at h
        cases node with
        | directory =>
          cases h
          refine ⟨rfl, hl', ?_⟩
          rintro ⟨bytes, hbytes⟩
          rw [hnode] at hbytes
          cases hbytes
        | file bytes =>
          cases hasks : asksDirectory p with
          | true =>
            simp only [hasks, if_true] at h
            cases h
          | false =>
            simp only [hasks, if_false, Bool.false_eq_true] at h
            cases h
            exact ⟨rfl, hl', fun _ => rfl⟩
    · rintro ⟨-, hl, hasks⟩
      refine bind_eq_ok.mpr ⟨l, hl, ?_⟩
      cases hnode : d.node? l with
      | none => rfl
      | some node =>
        cases node with
        | directory => rfl
        | file bytes =>
          show (if asksDirectory p = true then throw DiskError.notADirectory else pure l) = Except.ok l
          rw [hasks ⟨bytes, hnode⟩]
          rfl

theorem find_eq_ok {d : Disk} {p : Path} {node : DiskNode} :
    d.find p = .ok node ↔ ∃ l, d.locate p = .ok l ∧ d.node? l = some node := by
  unfold find
  rw [bind_eq_ok]
  refine exists_congr fun l => and_congr_right fun _ => ?_
  cases d.node? l with
  | none =>
    constructor
    · intro h
      cases h
    · intro h
      cases h
  | some node' =>
    show Except.ok node' = Except.ok node ↔ some node' = some node
    rw [Except.ok.injEq, Option.some.injEq]

theorem exist_iff {d : Disk} {p : Path} :
    d.exist p = true ↔ ∃ l node, d.locate p = .ok l ∧ d.node? l = some node := by
  unfold exist
  constructor
  · intro h
    cases hfind : d.find p with
    | error e =>
      rw [hfind] at h
      cases h
    | ok node =>
      obtain ⟨l, hl, hnode⟩ := find_eq_ok.mp hfind
      exact ⟨l, node, hl, hnode⟩
  · rintro ⟨l, node, hl, hnode⟩
    rw [find_eq_ok.mpr ⟨l, hl, hnode⟩]
    rfl

theorem readText_eq_ok {d : Disk} {p : Path} {s : String} :
    d.readText p = .ok s
      ↔ ∃ bytes, d.find p = .ok (.file bytes) ∧ String.fromUTF8? bytes = some s := by
  unfold readText readBytes
  constructor
  · intro h
    obtain ⟨bytes, hbytes, htext⟩ := bind_eq_ok.mp h
    obtain ⟨node, hnode, hfile⟩ := bind_eq_ok.mp hbytes
    cases node with
    | directory => cases hfile
    | file bytes' =>
      cases hfile
      refine ⟨bytes, hnode, ?_⟩
      cases hutf : String.fromUTF8? bytes with
      | none =>
        rw [hutf] at htext
        cases htext
      | some s' =>
        rw [hutf] at htext
        cases htext
        rfl
  · rintro ⟨bytes, hfind, hutf⟩
    refine bind_eq_ok.mpr ⟨bytes, bind_eq_ok.mpr ⟨.file bytes, hfind, rfl⟩, ?_⟩
    rw [hutf]
    rfl

theorem textOfFile?_of_file {d : Disk} {p : Path} {bytes : ByteArray}
    (h : d.find p = .ok (.file bytes)) : d.textOfFile? p = match String.fromUTF8? bytes with
      | some s => .ok (some s)
      | none => .error .invalidData := by
  have hfile : d.isFile p = true := by
    unfold isFile
    rw [h]
  have hbytes : d.readBytes p = .ok bytes := by
    unfold readBytes
    rw [h]
    rfl
  unfold textOfFile? readText
  rw [if_pos hfile, hbytes]
  show ((match String.fromUTF8? bytes with
    | some s => pure s
    | none => throw DiskError.invalidData : Except DiskError String)).map some = _
  cases String.fromUTF8? bytes with
  | none => rfl
  | some s => rfl

theorem fromUTF8?_toUTF8 (s : String) : String.fromUTF8? s.toUTF8 = some s := by
  simp [String.fromUTF8?, String.fromUTF8, String.toUTF8, s.isValidUTF8]

theorem textOfFile?_of_text {d : Disk} {p : Path} {s : String}
    (h : d.find p = .ok (.file s.toUTF8)) : d.textOfFile? p = .ok (some s) := by
  rw [textOfFile?_of_file h, fromUTF8?_toUTF8]

theorem textOfFile?_of_no_file {d : Disk} {p : Path} (h : ∀ bytes, d.find p ≠ .ok (.file bytes)) :
    d.textOfFile? p = .ok none := by
  have hfile : d.isFile p = false := by
    unfold isFile
    split
    · rename_i bytes hfind
      exact absurd hfind (h bytes)
    · rfl
  unfold textOfFile?
  rw [hfile]
  rfl

theorem textOfFile?_congr {d d' : Disk} {p : Path}
    (h : ∀ bytes, d.find p = .ok (.file bytes) ↔ d'.find p = .ok (.file bytes)) :
    d.textOfFile? p = d'.textOfFile? p := by
  by_cases hfile : ∃ bytes, d.find p = .ok (.file bytes)
  · obtain ⟨bytes, hbytes⟩ := hfile
    rw [textOfFile?_of_file hbytes, textOfFile?_of_file ((h bytes).mp hbytes)]
  · rw [textOfFile?_of_no_file fun bytes hbytes => hfile ⟨bytes, hbytes⟩,
      textOfFile?_of_no_file fun bytes hbytes => hfile ⟨bytes, (h bytes).mpr hbytes⟩]

theorem mem_nodes_of_node? {d : Disk} {l : Location} {node : DiskNode} (hl : l ≠ [])
    (h : d.node? l = some node) : (l, node) ∈ d.nodes := by
  unfold node? at h
  rw [if_neg hl] at h
  obtain ⟨before, after, hnodes, -⟩ := List.lookup_eq_some_iff.mp h
  rw [hnodes]
  exact List.mem_append_right _ List.mem_cons_self

/-- A text is read from a file whose place ends with the file name of the path. -/
theorem exists_node_of_readText {d : Disk} {p : Path} {s : String} (h : d.readText p = .ok s)
    {before : List Component} {name : String} (hp : p.components = before ++ [.normal name]) :
    ∃ l bytes, (l ++ [name], DiskNode.file bytes) ∈ d.nodes := by
  obtain ⟨bytes, hfind, -⟩ := readText_eq_ok.mp h
  obtain ⟨l, hlocate, hnode⟩ := find_eq_ok.mp hfind
  obtain ⟨-, hfold, -⟩ := locate_eq_ok.mp hlocate
  rw [hp] at hfold
  obtain ⟨before', -, -, hmoved⟩ := foldlM_step_concat.mp hfold
  rw [hmoved] at hnode
  exact ⟨before', bytes, mem_nodes_of_node? (List.append_ne_nil_of_right_ne_nil _ (List.cons_ne_nil _ _)) hnode⟩

end ApiScaffold.Disk
