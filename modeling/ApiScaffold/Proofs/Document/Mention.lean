import ApiScaffold.Document.Bundle
import ApiScaffold.Proofs.Json.Parts
import ApiScaffold.Proofs.Outcome

/-!
# References that a walk meets

`references` lists the objects of a value that refer to a file, the outermost ones only: the walk does
not go into them.  What it wants, and whether it succeeds, depends on what becomes of these alone.
-/

namespace ApiScaffold.Document

mutual

/-- The outermost objects of a value that refer to a file, and their references. -/
def references : Json → List (List (String × Json) × String)
  | .obj fields =>
    match fileReference? (.obj fields) with
    | some reference => [(fields, reference)]
    | none => referencesFields fields
  | .arr items => referencesItems items
  | _ => []

def referencesItems : List Json → List (List (String × Json) × String)
  | [] => []
  | v :: rest => references v ++ referencesItems rest

def referencesFields : List (String × Json) → List (List (String × Json) × String)
  | [] => []
  | (_, v) :: rest => references v ++ referencesFields rest

end

section

variable (load : Target → Except Failure (Bundled Json)) (base : Path)

/-- What redirecting these references wants, one after the other. -/
def wantedOf : List (List (String × Json) × String) → Except Failure (List Wanted)
  | [] => .ok []
  | m :: rest => do
    let out ← redirect load base m.1 m.2
    let more ← wantedOf rest
    return out.2 ++ more

theorem wantedOf_append (ms more : List (List (String × Json) × String)) :
    wantedOf load base (ms ++ more) = (do
      let first ← wantedOf load base ms
      let second ← wantedOf load base more
      return first ++ second) := by
  induction ms with
  | nil =>
    show wantedOf load base more = wantedOf load base more >>= fun second => .ok ([] ++ second)
    cases wantedOf load base more with
    | error e => rfl
    | ok ws => rfl
  | cons m rest ih =>
    rw [List.cons_append, wantedOf, wantedOf, ih]
    cases redirect load base m.1 m.2 with
    | error e => rfl
    | ok out =>
      cases wantedOf load base rest with
      | error e => rfl
      | ok first =>
        cases wantedOf load base more with
        | error e => rfl
        | ok second =>
          show Except.ok (out.2 ++ (first ++ second)) = Except.ok (out.2 ++ first ++ second)
          rw [List.append_assoc]

theorem wantedOf_singleton (m : List (String × Json) × String) :
    wantedOf load base [m] = (redirect load base m.1 m.2).map Prod.snd := by
  rw [wantedOf]
  cases redirect load base m.1 m.2 with
  | error e => rfl
  | ok out =>
    show Except.ok (out.2 ++ []) = Except.ok out.2
    rw [List.append_nil]

mutual

/-- **A walk redirects the references of a value**, in their order, and fails where one of them
does. -/
theorem wanted_internalize : ∀ v : Json,
    (internalize load base v).map Prod.snd = wantedOf load base (references v)
  | .obj fields => by
    rw [internalize, references]
    cases fileReference? (.obj fields) with
    | some reference => exact (wantedOf_singleton load base (fields, reference)).symm
    | none =>
      show Except.map Prod.snd (internalizeFields load base fields >>= _)
        = wantedOf load base (referencesFields fields)
      rw [← wanted_internalizeFields fields]
      cases internalizeFields load base fields with
      | error e => rfl
      | ok out => rfl
  | .arr items => by
    rw [internalize, references, ← wanted_internalizeItems items]
    cases internalizeItems load base items with
    | error e => rfl
    | ok out => rfl
  | .null | .bool _ | .num _ | .str _ => rfl

theorem wanted_internalizeItems : ∀ items : List Json,
    (internalizeItems load base items).map Prod.snd = wantedOf load base (referencesItems items)
  | [] => rfl
  | v :: rest => by
    rw [internalizeItems, referencesItems, wantedOf_append, ← wanted_internalize v,
      ← wanted_internalizeItems rest]
    cases internalize load base v with
    | error e => rfl
    | ok out =>
      cases internalizeItems load base rest with
      | error e => rfl
      | ok more => rfl

theorem wanted_internalizeFields : ∀ fields : List (String × Json),
    (internalizeFields load base fields).map Prod.snd = wantedOf load base (referencesFields fields)
  | [] => rfl
  | (key, v) :: rest => by
    rw [internalizeFields, referencesFields, wantedOf_append, ← wanted_internalize v,
      ← wanted_internalizeFields rest]
    cases internalize load base v with
    | error e => rfl
    | ok out =>
      cases internalizeFields load base rest with
      | error e => rfl
      | ok more => rfl

end

end

section

variable {load : Target → Except Failure (Bundled Json)} {base : Path}

theorem wantedOf_isOk_iff {ms : List (List (String × Json) × String)} :
    (∃ wanted, wantedOf load base ms = .ok wanted)
      ↔ ∀ m ∈ ms, ∃ out, redirect load base m.1 m.2 = .ok out := by
  induction ms with
  | nil => exact ⟨fun _ => nofun, fun _ => ⟨[], rfl⟩⟩
  | cons m rest ih =>
    rw [List.forall_mem_cons, ← ih]
    constructor
    · rintro ⟨wanted, h⟩
      obtain ⟨out, hm, h⟩ := bind_eq_ok.mp h
      obtain ⟨more, hrest, -⟩ := bind_eq_ok.mp h
      exact ⟨⟨out, hm⟩, more, hrest⟩
    · rintro ⟨⟨out, hm⟩, more, hrest⟩
      exact ⟨out.2 ++ more, bind_eq_ok.mpr ⟨out, hm, bind_eq_ok.mpr ⟨more, hrest, rfl⟩⟩⟩

theorem mem_wantedOf_iff {ms : List (List (String × Json) × String)} {wanted : List Wanted}
    (h : wantedOf load base ms = .ok wanted) {w : Wanted} :
    w ∈ wanted ↔ ∃ m ∈ ms, ∃ out, redirect load base m.1 m.2 = .ok out ∧ w ∈ out.2 := by
  induction ms generalizing wanted with
  | nil =>
    cases h
    exact ⟨nofun, fun ⟨m, hm, _⟩ => nomatch hm⟩
  | cons m rest ih =>
    obtain ⟨out, hm, h⟩ := bind_eq_ok.mp h
    obtain ⟨more, hrest, h⟩ := bind_eq_ok.mp h
    cases h
    rw [List.mem_append, ih hrest]
    constructor
    · rintro (hw | ⟨m', hm', h⟩)
      · exact ⟨m, List.mem_cons_self, out, hm, hw⟩
      · exact ⟨m', List.mem_cons_of_mem _ hm', h⟩
    · rintro ⟨m', hm', out', hout', hw⟩
      rcases List.mem_cons.mp hm' with rfl | hm'
      · cases hm.symm.trans hout'
        exact .inl hw
      · exact .inr ⟨m', hm', out', hout', hw⟩

theorem internalize_isOk_iff {v : Json} : (∃ out, internalize load base v = .ok out)
    ↔ ∀ m ∈ references v, ∃ out, redirect load base m.1 m.2 = .ok out := by
  rw [← wantedOf_isOk_iff, ← wanted_internalize]
  cases internalize load base v with
  | error e =>
    constructor
    · rintro ⟨out, h⟩
      cases h
    · rintro ⟨wanted, h⟩
      cases h
  | ok out =>
    constructor
    · rintro -
      exact ⟨out.2, rfl⟩
    · rintro -
      exact ⟨out, rfl⟩

/-- A walk wants what the references that it meets want. -/
theorem mem_wanted_iff {v : Json} {out : Bundled Json} (h : internalize load base v = .ok out)
    {w : Wanted} :
    w ∈ out.2 ↔ ∃ m ∈ references v, ∃ o, redirect load base m.1 m.2 = .ok o ∧ w ∈ o.2 := by
  apply mem_wantedOf_iff
  rw [← wanted_internalize, h]
  rfl

end

end ApiScaffold.Document
