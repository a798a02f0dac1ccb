import ApiScaffold.Proofs.Disk.Locate
import ApiScaffold.Proofs.Document.Target

/-!
# Components that files ask for

Every component that is wanted has one of the kinds and is named for a file with a name; so there are
no more of them that can be loaded than the disk has files, for each kind.
-/

namespace ApiScaffold.Document

/-- A component as `redirect` asks for it. -/
def Wanted.Named (w : Wanted) : Prop :=
  ∃ p kind, kindOf? (normalize p) = some kind ∧ w = .ofFile kind (normalize p)

theorem Wanted.toList_reference (w : Wanted) : w.reference.toList
    = "#/components/".toList ++ w.kind.toList ++ '/' :: w.name.toList := by
  show ("#/components/" ++ w.kind ++ "/" ++ w.name).toList = _
  rw [String.toList_append, String.toList_append, String.toList_append, List.append_assoc]
  rfl

section

variable {load : Target → Except Failure (Bundled Json)} {base : Path} {P : Wanted → Prop}

mutual

/-- What holds of the components that redirecting asks for holds of all that a value asks for. -/
theorem forall_wanted_internalize
    (h : ∀ fields reference out, redirect load base fields reference = .ok out → ∀ w ∈ out.2, P w) :
    ∀ {v : Json} {out : Bundled Json}, internalize load base v = .ok out → ∀ w ∈ out.2, P w
  | .obj fields, out, hv => by
    unfold internalize at hv
    split at hv
    · exact h _ _ _ hv
    · obtain ⟨⟨fields', wanted⟩, hfields, hout⟩ := bind_eq_ok.mp hv
      cases hout
      exact forall_wanted_fields h hfields
  | .arr items, out, hv => by
    unfold internalize at hv
    obtain ⟨⟨items', wanted⟩, hitems, hout⟩ := bind_eq_ok.mp hv
    cases hout
    exact forall_wanted_items h hitems
  | .null, out, hv => by
    cases hv
    exact fun w hw => by cases hw
  | .bool b, out, hv => by
    cases hv
    exact fun w hw => by cases hw
  | .num n, out, hv => by
    cases hv
    exact fun w hw => by cases hw
  | .str s, out, hv => by
    cases hv
    exact fun w hw => by cases hw

theorem forall_wanted_items
    (h : ∀ fields reference out, redirect load base fields reference = .ok out → ∀ w ∈ out.2, P w) :
    ∀ {items : List Json} {out : Bundled (List Json)},
      internalizeItems load base items = .ok out → ∀ w ∈ out.2, P w
  | [], out, hitems => by
    cases hitems
    exact fun w hw => by cases hw
  | v :: rest, out, hitems => by
    unfold internalizeItems at hitems
    obtain ⟨⟨v', wanted⟩, hv, hitems⟩ := bind_eq_ok.mp hitems
    obtain ⟨⟨rest', more⟩, hrest, hout⟩ := bind_eq_ok.mp hitems
    cases hout
    intro w hw
    rcases List.mem_append.mp hw with hw | hw
    · exact forall_wanted_internalize h hv w hw
    · exact forall_wanted_items h hrest w hw

theorem forall_wanted_fields
    (h : ∀ fields reference out, redirect load base fields reference = .ok out → ∀ w ∈ out.2, P w) :
    ∀ {fields : List (String × Json)} {out : Bundled (List (String × Json))},
      internalizeFields load base fields = .ok out → ∀ w ∈ out.2, P w
  | [], out, hfields => by
    cases hfields
    exact fun w hw => by cases hw
  | (key, v) :: rest, out, hfields => by
    unfold internalizeFields at hfields
    obtain ⟨⟨v', wanted⟩, hv, hfields⟩ := bind_eq_ok.mp hfields
    obtain ⟨⟨rest', more⟩, hrest, hout⟩ := bind_eq_ok.mp hfields
    cases hout
    intro w hw
    rcases List.mem_append.mp hw with hw | hw
    · exact forall_wanted_internalize h hv w hw
    · exact forall_wanted_fields h hrest w hw

end

theorem named_of_redirect
    (hload : ∀ t out, load t = .ok out → ∀ w ∈ out.2, w.Named)
    {fields : List (String × Json)} {reference : String} {out : Bundled Json}
    (h : redirect load base fields reference = .ok out) : ∀ w ∈ out.2, w.Named := by
  dsimp only [redirect] at h
  split at h
  · rename_i kind hkind
    cases h
    intro w hw
    rw [List.mem_singleton.mp hw, Target.file_ofReference]
    rw [Target.file_ofReference] at hkind
    exact ⟨_, kind, hkind, rfl⟩
  · exact hload _ _ h

end

theorem named_of_loadTarget {d : Disk} {left : Nat} {t : Target} {out : Bundled Json}
    (h : loadTarget d left t = .ok out) : ∀ w ∈ out.2, w.Named := by
  induction left generalizing t out with
  | zero => cases h
  | succ left ih =>
    unfold loadTarget at h
    obtain ⟨v, -, h⟩ := bind_eq_ok.mp h
    split at h
    · cases h
    · exact forall_wanted_internalize
        (fun _ _ _ => named_of_redirect fun _ _ => ih) h

theorem named_of_resolveEntry {d : Disk} {base : Path} {entry : Json} {out : Bundled Json}
    (h : resolveEntry d base entry = .ok out) : ∀ w ∈ out.2, w.Named := by
  unfold resolveEntry at h
  split at h
  · exact named_of_loadTarget h
  · exact forall_wanted_internalize
      (fun _ _ _ => named_of_redirect fun _ _ => named_of_loadTarget) h

end ApiScaffold.Document
