import Mathlib.Data.List.Forall2
import ApiScaffold.Proofs.Document.Copy
import ApiScaffold.Proofs.Document.Nesting
import ApiScaffold.Proofs.Json.Sorted

/-!
# References to files that are left over

A body in one piece still refers to a file in two ways.  Where a reference becomes one to a component,
the fields beside it are not walked; and where a `$ref` is an object, it may be replaced by a text that
names a file.  `Body.Leaves` says from the files alone that this happens.
-/

namespace ApiScaffold.Document

/-! ### Values -/

/-- Some object of a value refers to a file. -/
def RefersOut (v : Json) : Prop := ∃ w ∈ v.parts, (fileReference? w).isSome

theorem fileReference?_obj_iff {fields : List (String × Json)} {reference : String} :
    fileReference? (.obj fields) = some reference
      ↔ fields.lookup "$ref" = some (.str reference) ∧ namesFile reference = true := by
  show ((fields.lookup "$ref").bind Json.str?).filter namesFile = some reference ↔ _
  cases fields.lookup "$ref" with
  | none => simp
  | some u =>
    cases u with
    | str s =>
      rw [Option.bind_some, Option.filter_eq_some_iff]
      simp [Json.str?]
    | _ => simp [Json.str?]

theorem refersOut_obj_iff {fields : List (String × Json)} : RefersOut (.obj fields)
    ↔ (fileReference? (.obj fields)).isSome ∨ ∃ p ∈ fields, RefersOut p.2 := by
  unfold RefersOut
  simp only [Json.parts, List.mem_cons, Json.mem_partsFields, exists_eq_or_imp]
  refine or_congr_right ?_
  constructor
  · rintro ⟨w, ⟨p, hp, hw⟩, href⟩
    exact ⟨p, hp, w, hw, href⟩
  · rintro ⟨p, hp, w, hw, href⟩
    exact ⟨w, ⟨p, hp, hw⟩, href⟩

theorem refersOut_arr_iff {items : List Json} :
    RefersOut (.arr items) ↔ ∃ v ∈ items, RefersOut v := by
  unfold RefersOut
  simp only [Json.parts, List.mem_cons, Json.mem_partsItems, exists_eq_or_imp]
  constructor
  · rintro (href | ⟨w, ⟨v, hv, hw⟩, href⟩)
    · cases href
    · exact ⟨v, hv, w, hw, href⟩
  · rintro ⟨v, hv, w, hw, href⟩
    exact .inr ⟨w, ⟨v, hv, hw⟩, href⟩

theorem not_refersOut_leaf {v : Json} (hparts : v.parts = [v]) (href : fileReference? v = none) :
    ¬RefersOut v := by
  rintro ⟨w, hw, hsome⟩
  rw [hparts, List.mem_singleton] at hw
  rw [hw, href] at hsome
  cases hsome

theorem fileReference?_of_not_refersOut {v : Json} (h : ¬RefersOut v) : fileReference? v = none :=
  Option.not_isSome_iff_eq_none.mp fun hv => h ⟨v, Json.self_mem_parts v, hv⟩

theorem not_refersOut_part {v w : Json} (h : ¬RefersOut v) (hw : w ∈ v.parts) : ¬RefersOut w :=
  fun ⟨u, hu, href⟩ => h ⟨u, Json.parts_trans hw hu, href⟩

section

variable {load : Target → Except Failure (Bundled Json)} {base : Path}

mutual

/-- **A value that refers to no file stays as it is.** -/
theorem internalize_self : ∀ {v : Json}, ¬RefersOut v → internalize load base v = .ok (v, [])
  | .obj fields, h => by
    rw [refersOut_obj_iff, not_or] at h
    have hfields := internalizeFields_self fun p hp hout => h.2 ⟨p, hp, hout⟩
    rw [internalize, Option.not_isSome_iff_eq_none.mp h.1, hfields]
    rfl
  | .arr items, h => by
    rw [refersOut_arr_iff] at h
    rw [internalize, internalizeItems_self fun v hv hout => h ⟨v, hv, hout⟩]
    rfl
  | .null, _ | .bool _, _ | .num _, _ | .str _, _ => rfl

theorem internalizeItems_self : ∀ {items : List Json}, (∀ v ∈ items, ¬RefersOut v) →
    internalizeItems load base items = .ok (items, [])
  | [], _ => rfl
  | v :: rest, h => by
    rw [internalizeItems, internalize_self (h v List.mem_cons_self),
      internalizeItems_self fun w hw => h w (List.mem_cons_of_mem _ hw)]
    rfl

theorem internalizeFields_self : ∀ {fields : List (String × Json)}, (∀ p ∈ fields, ¬RefersOut p.2) →
    internalizeFields load base fields = .ok (fields, [])
  | [], _ => rfl
  | (key, v) :: rest, h => by
    rw [internalizeFields, internalize_self (h (key, v) List.mem_cons_self),
      internalizeFields_self fun p hp => h p (List.mem_cons_of_mem _ hp)]
    rfl

end

end

def everyKey (_ : String) : Bool := true

/-- A value without the fields whose keys are not kept; the values in it stay as they are. -/
def kept (keep : String → Bool) : Json → Json
  | .obj fields => .obj (fields.filter fun f => keep f.1)
  | v => v

theorem kept_everyKey (v : Json) : kept everyKey v = v := by
  cases v with
  | obj fields => exact congrArg Json.obj (List.filter_eq_self.mpr fun _ _ => rfl)
  | _ => rfl

theorem kept_isKnownKey (v : Json) : kept isKnownKey v = stripItem v := by
  cases v with
  | obj fields => rfl
  | _ => rfl

theorem lookup_filter {keep : String → Bool} {key : String} (hkey : keep key = true)
    (fields : List (String × Json)) :
    (fields.filter fun f => keep f.1).lookup key = fields.lookup key := by
  induction fields with
  | nil => rfl
  | cons p rest ih =>
    by_cases hp : keep p.1 = true
    · rw [List.filter_cons_of_pos (p := fun f : String × Json => keep f.1) hp, List.lookup_cons, List.lookup_cons, ih]
    · have hne : (key == p.1) = false := by
        rw [beq_eq_false_iff_ne]
        rintro rfl
        exact hp hkey
      rw [List.filter_cons_of_neg (p := fun f : String × Json => keep f.1) hp, List.lookup_cons, hne, ih]

theorem fileReference?_kept {keep : String → Bool} (hkeep : keep "$ref" = true)
    (fields : List (String × Json)) :
    fileReference? (.obj (fields.filter fun f => keep f.1)) = fileReference? (.obj fields) := by
  show (((fields.filter fun f => keep f.1).lookup "$ref").bind Json.str?).filter namesFile = _
  rw [lookup_filter hkeep]
  rfl

theorem refersOut_kept_iff {keep : String → Bool} (hkeep : keep "$ref" = true)
    {fields : List (String × Json)} : RefersOut (kept keep (.obj fields))
      ↔ (fileReference? (.obj fields)).isSome ∨ ∃ p ∈ fields, keep p.1 = true ∧ RefersOut p.2 := by
  rw [kept, refersOut_obj_iff, fileReference?_kept hkeep]
  simp only [List.mem_filter, and_assoc]

theorem namesFile_reference (w : Wanted) : namesFile w.reference = false := by
  have hstart : Text.startsWith "#" w.reference = true := by
    rw [Text.startsWith, w.toList_reference]
    rfl
  rw [namesFile, hstart]
  rfl

/-! ### Bodies -/

namespace Body

/-- In one piece the body is a text: it is one itself, or stands for what such a body is. -/
inductive Gives (d : Disk) : Body → String → Prop
  | text {base : Path} {s : String} : Gives d ⟨base, .str s⟩ s
  | inlined {base : Path} {fields : List (String × Json)} {reference s : String} {c : Body} :
    fileReference? (.obj fields) = some reference →
    kindOf? (Target.ofReference base reference).file = none →
    (Target.ofReference base reference).body? d = some c → Gives d c s →
    Gives d ⟨base, .obj fields⟩ s

/-- In one piece the body still refers to a file, in a field with a key that is kept if it is an
object. -/
inductive Leaves (d : Disk) : (String → Bool) → Body → Prop
  | beside {keep : String → Bool} {base : Path} {fields : List (String × Json)}
    {reference kind : String} {p : String × Json} :
    fileReference? (.obj fields) = some reference →
    kindOf? (Target.ofReference base reference).file = some kind →
    p ∈ fields → p.1 ≠ "$ref" → keep p.1 = true → RefersOut p.2 → Leaves d keep ⟨base, .obj fields⟩
  | inlined {keep : String → Bool} {base : Path} {fields : List (String × Json)}
    {reference : String} {c : Body} :
    fileReference? (.obj fields) = some reference →
    kindOf? (Target.ofReference base reference).file = none →
    (Target.ofReference base reference).body? d = some c → Leaves d keep c →
    Leaves d keep ⟨base, .obj fields⟩
  | named {keep : String → Bool} {base : Path} {fields : List (String × Json)} {u : Json}
    {s : String} :
    fileReference? (.obj fields) = none → fields.lookup "$ref" = some u → Gives d ⟨base, u⟩ s →
    namesFile s = true → Leaves d keep ⟨base, .obj fields⟩
  | field {keep : String → Bool} {base : Path} {fields : List (String × Json)} {p : String × Json} :
    fileReference? (.obj fields) = none → p ∈ fields → keep p.1 = true →
    Leaves d everyKey ⟨base, p.2⟩ → Leaves d keep ⟨base, .obj fields⟩
  | item {keep : String → Bool} {base : Path} {items : List Json} {v : Json} :
    v ∈ items → Leaves d everyKey ⟨base, v⟩ → Leaves d keep ⟨base, .arr items⟩

/-- What a value has left over is what the body leaves. -/
structure Accounts (d : Disk) (b : Body) (v : Json) : Prop where
  leaves : ∀ keep, keep "$ref" = true → (RefersOut (kept keep v) ↔ b.Leaves d keep)
  text : ∀ s, v = .str s ↔ b.Gives d s

variable {d : Disk} {base : Path}

theorem Accounts.refersOut_iff {b : Body} {v : Json} (h : Accounts d b v) :
    RefersOut v ↔ b.Leaves d everyKey := by
  rw [← h.leaves everyKey rfl, kept_everyKey]

theorem leaves_inlined_iff {keep : String → Bool} {fields : List (String × Json)} {reference : String}
    {c : Body} (href : fileReference? (.obj fields) = some reference)
    (hkind : kindOf? (Target.ofReference base reference).file = none)
    (hc : (Target.ofReference base reference).body? d = some c) :
    Leaves d keep ⟨base, .obj fields⟩ ↔ c.Leaves d keep := by
  constructor
  · intro h
    cases h with
    | beside href' hkind' =>
      cases href.symm.trans href'
      cases hkind.symm.trans hkind'
    | inlined href' _ hc' hleaves =>
      cases href.symm.trans href'
      cases hc.symm.trans hc'
      exact hleaves
    | named href' => cases href.symm.trans href'
    | field href' => cases href.symm.trans href'
  · exact .inlined href hkind hc

theorem gives_inlined_iff {fields : List (String × Json)} {reference s : String} {c : Body}
    (href : fileReference? (.obj fields) = some reference)
    (hkind : kindOf? (Target.ofReference base reference).file = none)
    (hc : (Target.ofReference base reference).body? d = some c) :
    Gives d ⟨base, .obj fields⟩ s ↔ c.Gives d s := by
  constructor
  · intro h
    cases h with
    | inlined href' _ hc' hgives =>
      cases href.symm.trans href'
      cases hc.symm.trans hc'
      exact hgives
  · exact .inlined href hkind hc

theorem gives_str_iff {s s' : String} :
    Gives d ⟨base, .str s⟩ s' ↔ Json.str s = .str s' := by
  constructor
  · intro h
    cases h
    rfl
  · intro h
    cases h
    exact .text

theorem accounts_leaf {v : Json} (hobj : v.obj? = none) (harr : v.arr? = none)
    (htext : ∀ s, v = .str s ↔ Gives d ⟨base, v⟩ s) : Accounts d ⟨base, v⟩ v := by
  refine ⟨fun keep _ => ?_, htext⟩
  cases v with
  | obj fields => cases hobj
  | arr items => cases harr
  | _ => exact ⟨fun h => absurd h (not_refersOut_leaf rfl rfl), nofun⟩

theorem accounts_beside {fields : List (String × Json)} {reference kind : String}
    (hsorted : (Json.obj fields).Sorted) (href : fileReference? (.obj fields) = some reference)
    (hkind : kindOf? (Target.ofReference base reference).file = some kind) (w : Wanted) :
    Accounts d ⟨base, .obj fields⟩ (.obj (Keyed.insert "$ref" (.str w.reference) fields)) := by
  have hkeys := (Json.sorted_obj_iff.mp hsorted).1
  have hself : fileReference? (.obj (Keyed.insert "$ref" (.str w.reference) fields)) = none := by
    rw [Option.eq_none_iff_forall_ne_some]
    intro s hs
    obtain ⟨hlookup, hnames⟩ := fileReference?_obj_iff.mp hs
    rw [Keyed.lookup_insert_self] at hlookup
    cases hlookup
    rw [namesFile_reference] at hnames
    cases hnames
  refine ⟨fun keep hkeep => ?_, fun s => ?_⟩
  · rw [refersOut_kept_iff hkeep, hself]
    constructor
    · rintro (hnone | ⟨p, hp, hpkeep, hout⟩)
      · cases hnone
      -- the new reference stays in the document; the other fields are the old ones
      · rcases (Keyed.mem_insert_iff hkeys).mp hp with rfl | ⟨hp, hne⟩
        · exact absurd hout (not_refersOut_leaf rfl rfl)
        · exact .beside href hkind hp hne hpkeep hout
    · intro h
      cases h with
      | beside _ _ hp hne hpkeep hout =>
        exact .inr ⟨_, (Keyed.mem_insert_iff hkeys).mpr (.inr ⟨hp, hne⟩), hpkeep, hout⟩
      | inlined href' hkind' =>
        cases href.symm.trans href'
        cases hkind.symm.trans hkind'
      | named href' => cases href.symm.trans href'
      | field href' => cases href.symm.trans href'
  · constructor
    · nofun
    · intro h
      cases h with
      | inlined href' hkind' =>
        cases href.symm.trans href'
        cases hkind.symm.trans hkind'

def Fieldwise (R : Json → Json → Prop) (fields fields' : List (String × Json)) : Prop :=
  List.Forall₂ (fun p p' => p'.1 = p.1 ∧ R p.2 p'.2) fields fields'

theorem Fieldwise.lookup {R : Json → Json → Prop} {fields fields' : List (String × Json)}
    (h : Fieldwise R fields fields') (key : String) :
    (fields.lookup key = none ∧ fields'.lookup key = none) ∨
      ∃ u u', fields.lookup key = some u ∧ fields'.lookup key = some u' ∧ R u u' := by
  induction h with
  | nil => exact .inl ⟨rfl, rfl⟩
  | @cons p p' rest rest' hp _ ih =>
    obtain ⟨hkey, hR⟩ := hp
    rw [List.lookup_cons, List.lookup_cons, hkey]
    cases key == p.1 with
    | true => exact .inr ⟨_, _, rfl, rfl, hR⟩
    | false => exact ih

theorem exists_mem_iff_of_forall₂ {α β : Type} {R : α → β → Prop} {P : α → Prop} {Q : β → Prop}
    {l : List α} {l' : List β} (h : List.Forall₂ R l l') (hPQ : ∀ a b, R a b → (P a ↔ Q b)) :
    (∃ a ∈ l, P a) ↔ ∃ b ∈ l', Q b := by
  induction h with
  | nil => simp
  | cons hab _ ih => rw [List.exists_mem_cons_iff, List.exists_mem_cons_iff, ih, hPQ _ _ hab]

theorem accounts_obj {fields fields' : List (String × Json)}
    (href : fileReference? (.obj fields) = none)
    (h : Fieldwise (fun u u' => Accounts d ⟨base, u⟩ u') fields fields') :
    Accounts d ⟨base, .obj fields⟩ (.obj fields') := by
  refine ⟨fun keep hkeep => ?_, fun s => ?_⟩
  · -- the object comes to refer to a file when what stands under `$ref` becomes a text that names one
    have hself : (fileReference? (.obj fields')).isSome ↔
        ∃ u s, fields.lookup "$ref" = some u ∧ Gives d ⟨base, u⟩ s ∧ namesFile s = true := by
      rw [Option.isSome_iff_exists]
      constructor
      · rintro ⟨s, hs⟩
        obtain ⟨hlookup, hnames⟩ := fileReference?_obj_iff.mp hs
        rcases h.lookup "$ref" with ⟨-, hnone⟩ | ⟨u, u', hu, hu', hacc⟩
        · cases hlookup.symm.trans hnone
        · cases hlookup.symm.trans hu'
          exact ⟨u, s, hu, (hacc.text s).mp rfl, hnames⟩
      · rintro ⟨u, s, hu, hgives, hnames⟩
        rcases h.lookup "$ref" with ⟨hnone, -⟩ | ⟨v, u', hv, hu', hacc⟩
        · cases hu.symm.trans hnone
        · cases hu.symm.trans hv
          have htext := (hacc.text s).mpr hgives
          exact ⟨s, fileReference?_obj_iff.mpr ⟨htext ▸ hu', hnames⟩⟩
    have hfields : (∃ p ∈ fields, keep p.1 = true ∧ Leaves d everyKey ⟨base, p.2⟩)
        ↔ ∃ p' ∈ fields', keep p'.1 = true ∧ RefersOut p'.2 := by
      refine exists_mem_iff_of_forall₂ h ?_
      rintro p p' ⟨hkey, hacc⟩
      rw [hkey, hacc.refersOut_iff]
    rw [refersOut_kept_iff hkeep, hself, ← hfields]
    constructor
    · rintro (⟨u, s, hu, hgives, hnames⟩ | ⟨p, hp, hpkeep, hleaves⟩)
      · exact .named href hu hgives hnames
      · exact .field href hp hpkeep hleaves
    · intro h
      cases h with
      | beside href' => cases href.symm.trans href'
      | inlined href' => cases href.symm.trans href'
      | named _ hu hgives hnames => exact .inl ⟨_, _, hu, hgives, hnames⟩
      | field _ hp hpkeep hleaves => exact .inr ⟨_, hp, hpkeep, hleaves⟩
  · constructor
    · nofun
    · intro h
      cases h with
      | inlined href' => cases href.symm.trans href'

theorem accounts_arr {items items' : List Json}
    (h : List.Forall₂ (fun u u' => Accounts d ⟨base, u⟩ u') items items') :
    Accounts d ⟨base, .arr items⟩ (.arr items') := by
  have hitems : (∃ v ∈ items, Leaves d everyKey ⟨base, v⟩) ↔ ∃ v' ∈ items', RefersOut v' :=
    exists_mem_iff_of_forall₂ h fun _ _ hacc => hacc.refersOut_iff.symm
  refine ⟨fun keep _ => ?_, fun s => ⟨nofun, nofun⟩⟩
  show RefersOut (.arr items') ↔ _
  rw [refersOut_arr_iff, ← hitems]
  constructor
  · rintro ⟨v, hv, hleaves⟩
    exact .item hv hleaves
  · intro h
    cases h with
    | item hv hleaves => exact ⟨_, hv, hleaves⟩

section

variable {load : Target → Except Failure (Bundled Json)}

mutual

/-- **What a walk leaves over**, if what it loads accounts for what that leaves. -/
theorem accounts_of_internalize
    (hload : ∀ t out, load t = .ok out → ∃ c, t.body? d = some c ∧ c.Accounts d out.1) :
    ∀ {v : Json} {out : Bundled Json}, v.Sorted → internalize load base v = .ok out →
      Accounts d ⟨base, v⟩ out.1
  | .obj fields, out, hsorted, h => by
    rw [internalize] at h
    cases href : fileReference? (.obj fields) with
    | some reference =>
      rw [href] at h
      dsimp only [redirect] at h
      -- a reference to a component stays beside its siblings, any other object gives way to a value
      split at h
      · rename_i kind hkind
        cases h
        exact accounts_beside hsorted href hkind _
      · rename_i hkind
        obtain ⟨c, hc, hacc⟩ := hload _ _ h
        refine ⟨fun keep hkeep => ?_, fun s => ?_⟩
        · rw [hacc.leaves keep hkeep, leaves_inlined_iff href hkind hc]
        · rw [hacc.text s, gives_inlined_iff href hkind hc]
    | none =>
      rw [href] at h
      obtain ⟨fields', hfields, h⟩ := bind_eq_ok.mp h
      cases h
      exact accounts_obj href
        (accounts_of_fields hload (Json.sorted_obj_iff.mp hsorted).2 hfields)
  | .arr items, out, hsorted, h => by
    rw [internalize] at h
    obtain ⟨items', hitems, h⟩ := bind_eq_ok.mp h
    cases h
    exact accounts_arr (accounts_of_items hload (Json.sorted_arr_iff.mp hsorted) hitems)
  | .null, out, _, h | .bool _, out, _, h | .num _, out, _, h => by
    cases h
    exact accounts_leaf rfl rfl fun s => ⟨nofun, nofun⟩
  | .str s, out, _, h => by
    cases h
    exact accounts_leaf rfl rfl fun _ => gives_str_iff.symm

theorem accounts_of_items
    (hload : ∀ t out, load t = .ok out → ∃ c, t.body? d = some c ∧ c.Accounts d out.1) :
    ∀ {items : List Json} {out : Bundled (List Json)}, (∀ v ∈ items, v.Sorted) →
      internalizeItems load base items = .ok out →
      List.Forall₂ (fun u u' => Accounts d ⟨base, u⟩ u') items out.1
  | [], out, _, h => by
    cases h
    exact .nil
  | v :: rest, out, hsorted, h => by
    rw [internalizeItems] at h
    obtain ⟨v', hv, h⟩ := bind_eq_ok.mp h
    obtain ⟨rest', hrest, h⟩ := bind_eq_ok.mp h
    cases h
    obtain ⟨hsv, hsrest⟩ := List.forall_mem_cons.mp hsorted
    exact .cons (accounts_of_internalize hload hsv hv) (accounts_of_items hload hsrest hrest)

theorem accounts_of_fields
    (hload : ∀ t out, load t = .ok out → ∃ c, t.body? d = some c ∧ c.Accounts d out.1) :
    ∀ {fields : List (String × Json)} {out : Bundled (List (String × Json))},
      (∀ p ∈ fields, p.2.Sorted) → internalizeFields load base fields = .ok out →
      Fieldwise (fun u u' => Accounts d ⟨base, u⟩ u') fields out.1
  | [], out, _, h => by
    cases h
    exact .nil
  | (key, v) :: rest, out, hsorted, h => by
    rw [internalizeFields] at h
    obtain ⟨v', hv, h⟩ := bind_eq_ok.mp h
    obtain ⟨rest', hrest, h⟩ := bind_eq_ok.mp h
    cases h
    obtain ⟨hsv, hsrest⟩ := List.forall_mem_cons.mp hsorted
    exact .cons ⟨rfl, accounts_of_internalize hload hsv hv⟩ (accounts_of_fields hload hsrest hrest)

end

end

theorem sorted_of_target {t : Target} {c : Body} (h : t.body? d = some c) : c.value.Sorted := by
  obtain ⟨v, hv, rfl⟩ := Option.map_eq_some_iff.mp h
  obtain ⟨root, hroot, hselect⟩ := Option.bind_eq_some_iff.mp hv
  exact (sorted_of_read (toOption_eq_some.mp hroot)).of_mem_parts (select?_mem_parts hselect)

/-- **What a body in one piece leaves over.** -/
theorem accounts_of_bundle {left : Nat} {b : Body} {out : Bundled Json} (hsorted : b.value.Sorted)
    (h : b.bundle d left = .ok out) : b.Accounts d out.1 := by
  induction left generalizing b out with
  | zero =>
    refine accounts_of_internalize (fun t out ht => ?_) hsorted h
    cases ht
  | succ left ih =>
    refine accounts_of_internalize (fun t out ht => ?_) hsorted h
    obtain ⟨c, hc, hbundle⟩ := loadTarget_eq_ok_iff.mp ht
    exact ⟨c, hc, ih (sorted_of_target hc) hbundle⟩

end Body

end ApiScaffold.Document
