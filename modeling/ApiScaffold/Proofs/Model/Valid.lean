import Mathlib.Data.List.Forall2
import Mathlib.Data.List.Pairwise
import Mathlib.Data.List.Sort
import ApiScaffold.Proofs.Json.Sorted
import ApiScaffold.Proofs.Operation.Valid

/-!
# Valid documents

`Model.Valid` says what a document needs, rule by rule, and `Model.WellFormed` what its model then
is.  Where the building ends, there is a model if and only if the document is valid, and the model is
well formed (`Model.build_iff_valid`): no combination of faults goes unnoticed, and nothing that the
document has is lost.
-/

namespace ApiScaffold

open Operation (Site)

/-! ### Lists of results -/

theorem forall₂_of_mapM {α β : Type} {f : α → Option β} {xs : List α} {ys : List β}
    (h : xs.mapM f = some ys) : List.Forall₂ (fun x y => f x = some y) xs ys := by
  induction xs generalizing ys with
  | nil =>
    cases h
    exact .nil
  | cons x rest ih =>
    rw [List.mapM_cons] at h
    obtain ⟨y, hy, h⟩ := Option.bind_eq_some_iff.1 h
    obtain ⟨ys, hys, h⟩ := Option.bind_eq_some_iff.1 h
    cases h
    exact .cons hy (ih hys)

section

variable {α β γ : Type} {R : α → β → Prop} {xs : List α} {ys : List β}

theorem exists_left_of_forall₂ (h : List.Forall₂ R xs ys) {y : β} (hy : y ∈ ys) : ∃ x ∈ xs, R x y := by
  induction h with
  | nil => cases hy
  | cons hR _ ih =>
    rcases List.mem_cons.mp hy with rfl | hy
    · exact ⟨_, List.mem_cons_self, hR⟩
    · obtain ⟨x, hx, hxy⟩ := ih hy
      exact ⟨x, List.mem_cons_of_mem _ hx, hxy⟩

theorem exists_right_of_forall₂ (h : List.Forall₂ R xs ys) {x : α} (hx : x ∈ xs) :
    ∃ y ∈ ys, R x y :=
  exists_left_of_forall₂ (R := flip R) h.flip hx

theorem map_eq_of_forall₂ (h : List.Forall₂ R xs ys) {f : α → γ} {g : β → γ}
    (hfg : ∀ x y, R x y → f x = g y) : xs.map f = ys.map g := by
  induction h with
  | nil => rfl
  | cons hR _ ih => rw [List.map_cons, List.map_cons, hfg _ _ hR, ih]

end

theorem Keyed.mem_keysOfList {key : String} {keys : List String} :
    key ∈ keysOfList keys ↔ key ∈ keys := by
  suffices ∀ sorted, key ∈ keys.foldl (fun sorted k => insertKey k sorted) sorted
      ↔ key ∈ sorted ∨ key ∈ keys by
    exact (this []).trans (by simp)
  induction keys with
  | nil => simp
  | cons k rest ih =>
    intro sorted
    rw [List.foldl_cons, ih, mem_insertKey, List.mem_cons, or_comm (a := key = k), or_assoc]

theorem Keyed.insertKey_map_fst {α : Type} (key : String) (value : α) (pairs : List (String × α)) :
    insertKey key (pairs.map Prod.fst) = (insert key value pairs).map Prod.fst := by
  induction pairs with
  | nil => rfl
  | cons p rest ih =>
    rw [List.map_cons, insertKey, insert, ih]
    split
    · rfl
    · split
      · rename_i heq
        rw [List.map_cons, heq]
      · rfl

theorem Keyed.pairwise_keysOfList (keys : List String) : (keysOfList keys).Pairwise (· < ·) := by
  suffices ∀ pairs : List (String × Unit), Increasing pairs →
      (keys.foldl (fun sorted key => insertKey key sorted) (pairs.map Prod.fst)).Pairwise (· < ·) from
    this [] increasing_nil
  induction keys with
  | nil => exact fun _ h => h
  | cons key rest ih =>
    intro pairs h
    rw [List.foldl_cons, insertKey_map_fst key ()]
    exact ih _ (h.insert key ())

theorem Keyed.lookup_insert_eq_none_iff {α : Type} {key k : String} {value : α}
    {pairs : List (String × α)} :
    (insert key value pairs).lookup k = none ↔ k ≠ key ∧ pairs.lookup k = none := by
  by_cases heq : k = key
  · rw [heq, lookup_insert_self]
    exact ⟨nofun, fun h => absurd rfl h.1⟩
  · rw [lookup_insert_of_ne heq]
    exact ⟨fun h => ⟨heq, h⟩, fun h => h.2⟩

/-! ### Extensions -/

namespace Extension

theorem decode_ne_nil {schema : String} {v : Json} : decode schema v ≠ .error [] := by
  intro h
  unfold decode at h
  split at h
  · cases h
  · rename_i draft _
    have hrole : ∀ p, knownRole draft.role = .error p → p ∈ draft.problems := by
      intro p hp
      refine List.mem_append_left _ (List.mem_append_left _ ?_)
      rw [hp]
      exact List.mem_singleton_self p
    split at h
    · cases h
    · rename_i hnone
      have hproblems : draft.problems = [] := by simpa using h
      cases hr : knownRole draft.role with
      | ok r => exact hnone r hr hproblems
      | error p =>
        have := hrole p hr
        rw [hproblems] at this
        cases this

/-- The extension of a body, if there is one, can be decoded. -/
def Decodes (name : String) (raw : Json) : Prop :=
  ∀ v, raw.get? "x-codegen" = some v → ∃ e, decode name v = .ok e

end Extension

namespace Schema

theorem name_of_build? {components : List (String × Json)} {depth : Nat} {name : String} {raw : Json}
    {s : Schema} (h : build? components depth name raw = some s) : s.name = name := by
  cases depth with
  | zero => simp [build?] at h
  | succ depth =>
    rw [build?_succ] at h
    split at h
    · cases h
      rfl
    · obtain ⟨members, -, h⟩ := Option.bind_eq_some_iff.1 h
      obtain ⟨items, -, h⟩ := Option.bind_eq_some_iff.1 h
      cases h
      rfl

/-- **A schema that is built has no issue** if and only if its extension can be decoded. -/
theorem buildNamed?_issues {components : List (String × Json)} {depth : Nat} {name : String}
    {raw : Json} {found : List Issue} {s : Schema}
    (h : buildNamed? components depth name raw = some (found, s)) :
    (found = [] ↔ Extension.Decodes name raw) ∧ s.name = name := by
  obtain ⟨built, hbuilt, h⟩ := Option.bind_eq_some_iff.1 h
  have hname := name_of_build? hbuilt
  unfold Extension.Decodes
  dsimp only at h
  cases hraw : raw.get? "x-codegen" with
  | none =>
    rw [hraw] at h
    cases h
    exact ⟨⟨fun _ => nofun, fun _ => rfl⟩, hname⟩
  | some v =>
    rw [hraw, Option.map_some] at h
    cases hdecode : Extension.decode name v with
    | ok e =>
      rw [hdecode] at h
      cases h
      refine ⟨⟨fun _ w hw => ?_, fun _ => rfl⟩, hname⟩
      cases hw
      exact ⟨e, hdecode⟩
    | error issues =>
      rw [hdecode] at h
      cases h
      refine ⟨⟨?_, fun hall => ?_⟩, hname⟩
      · rintro rfl
        -- what cannot be decoded always says why
        exact absurd hdecode Extension.decode_ne_nil
      · obtain ⟨e, he⟩ := hall v rfl
        rw [hdecode] at he
        cases he

end Schema

namespace Model

/-! ### Operations of a document -/

def idsOf (sites : List Site) : List String := sites.filterMap (·.op.getText? "operationId")

theorem idsOf_cons (s : Site) (rest : List Site) :
    idsOf (s :: rest) = (s.op.getText? "operationId").toList ++ idsOf rest := by
  unfold idsOf
  cases h : s.op.getText? "operationId" with
  | none => rw [List.filterMap_cons, h]; rfl
  | some id => rw [List.filterMap_cons, h]; rfl

section

variable {doc : Json} {depth : Nat} {context : String}

/-- One more place is registered. -/
def registerOne? (doc : Json) (depth : Nat) (r : Registered) (s : Site) : Option Registered :=
  (Operation.build? doc depth s).map fun (problems, op) => r.add s.place problems op

theorem issues_add_some {r : Registered} {place : Place} {found : List Problem} {o : Operation} :
    (r.add place found (some o)).issues = [] ↔
      r.issues = [] ∧ found = [] ∧ r.places.lookup o.id = none := by
  unfold Registered.add
  dsimp only
  cases r.places.lookup o.id with
  | none => simp
  | some before => simp

theorem operations_add_some {r : Registered} {place : Place} {found : List Problem} {o : Operation}
    (h : r.places.lookup o.id = none) :
    (r.add place found (some o)).operations = r.operations ++ [o] := by
  unfold Registered.add
  dsimp only
  rw [h]

theorem places_add_some {r : Registered} {place : Place} {found : List Problem} {o : Operation} :
    (r.add place found (some o)).places = Keyed.insert o.id place r.places := by
  unfold Registered.add
  dsimp only
  cases r.places.lookup o.id with
  | none => rfl
  | some before => rfl

/-- **The register has no issue** if and only if every operation is valid and no id is there twice. -/
theorem issues_of_foldlM {sites : List Site} {r r' : Registered}
    (h : sites.foldlM (registerOne? doc depth) r = some r') :
    r'.issues = [] ↔ r.issues = [] ∧ (∀ s ∈ sites, s.Valid doc) ∧ (idsOf sites).Nodup ∧
      ∀ id ∈ idsOf sites, r.places.lookup id = none := by
  induction sites generalizing r with
  | nil =>
    cases h
    simp [idsOf]
  | cons s rest ih =>
    rw [List.foldlM_cons] at h
    obtain ⟨r₁, hstep, hrest⟩ := Option.bind_eq_some_iff.1 h
    obtain ⟨⟨found, op⟩, hbuilt, rfl⟩ := Option.map_eq_some_iff.1 hstep
    obtain ⟨hvalid, hreads, hsome⟩ := Operation.build?_problems hbuilt
    rw [ih hrest, List.forall_mem_cons, ← hvalid, idsOf_cons]
    cases op with
    | none =>
      -- without an id there is a problem
      have hne : found ≠ [] := fun h => nomatch hsome h
      have hissues : (r.add s.place found none).issues ≠ [] := by
        unfold Registered.add
        simp [hne]
      exact ⟨fun h => absurd h.1 hissues, fun h => absurd h.2.1.1 hne⟩
    | some o =>
      have hid := (hreads o rfl).id
      rw [issues_add_some, places_add_some, hid, Option.toList_some, List.singleton_append,
        List.nodup_cons, List.forall_mem_cons]
      simp only [Keyed.lookup_insert_eq_none_iff]
      constructor
      · rintro ⟨⟨hissues, hfound, hnone⟩, hrest, hnodup, hids⟩
        exact ⟨hissues, ⟨hfound, hrest⟩, ⟨fun hmem => (hids _ hmem).1 rfl, hnodup⟩, hnone,
          fun id hid => (hids id hid).2⟩
      · rintro ⟨hissues, ⟨hfound, hrest⟩, ⟨hmem, hnodup⟩, hnone, hids⟩
        exact ⟨⟨hissues, hfound, hnone⟩, hrest, hnodup, fun id hid =>
          ⟨fun heq => hmem (heq ▸ hid), hids id hid⟩⟩

/-- Without an issue, every place has its operation in the register. -/
theorem operations_of_foldlM {sites : List Site} {r r' : Registered}
    (h : sites.foldlM (registerOne? doc depth) r = some r') (hissues : r'.issues = []) :
    ∃ ops, r'.operations = r.operations ++ ops ∧ List.Forall₂ Operation.Reads ops sites := by
  induction sites generalizing r with
  | nil =>
    cases h
    exact ⟨[], (List.append_nil _).symm, .nil⟩
  | cons s rest ih =>
    rw [List.foldlM_cons] at h
    obtain ⟨r₁, hstep, hrest⟩ := Option.bind_eq_some_iff.1 h
    obtain ⟨ops, hops, hreads⟩ := ih hrest
    have hr₁ := ((issues_of_foldlM hrest).mp hissues).1
    obtain ⟨⟨found, op⟩, hbuilt, rfl⟩ := Option.map_eq_some_iff.1 hstep
    obtain ⟨-, hread, hsome⟩ := Operation.build?_problems hbuilt
    cases op with
    | none =>
      have hfound : found = [] := by
        unfold Registered.add at hr₁
        simpa using (List.append_eq_nil_iff.1 hr₁).2
      exact nomatch hsome hfound
    | some o =>
      obtain ⟨-, -, hnone⟩ := issues_add_some.mp hr₁
      rw [operations_add_some hnone, List.append_assoc] at hops
      exact ⟨o :: ops, hops, .cons (hread o rfl) hreads⟩

/-! ### Places are told apart by path and method -/

theorem increasing_fields {v : Json} (h : v.Sorted) (key : String) :
    Keyed.Increasing (v.fields key) :=
  (Json.sorted_obj_iff.mp (h.fields key)).1

theorem increasing_components (h : doc.Sorted) (kind : String) :
    Keyed.Increasing (Reference.components doc kind) := by
  unfold Reference.components
  cases hv : doc.get? "components" with
  | none => exact Keyed.increasing_nil
  | some w => exact increasing_fields (h.of_mem_parts (Json.get?_mem_parts hv)) kind

theorem eq_of_increasing {α : Type} {pairs : List (String × α)} (h : Keyed.Increasing pairs)
    {key : String} {a b : α} (ha : (key, a) ∈ pairs) (hb : (key, b) ∈ pairs) : a = b := by
  have hnodup : (pairs.map Prod.fst).Nodup := h.imp fun hlt => hlt.ne
  exact (Prod.mk.inj (List.inj_on_of_nodup_map hnodup ha hb rfl)).2

/-- Where the keys increase, what is looked up is what is there. -/
theorem lookup_iff_mem {α : Type} {pairs : List (String × α)} (h : Keyed.Increasing pairs)
    {key : String} {value : α} : pairs.lookup key = some value ↔ (key, value) ∈ pairs := by
  refine ⟨Keyed.mem_of_lookup, fun hmem => ?_⟩
  have hsome : (pairs.lookup key).isSome :=
    List.lookup_isSome_iff.mpr ⟨_, hmem, beq_self_eq_true key⟩
  obtain ⟨other, hother⟩ := Option.isSome_iff_exists.1 hsome
  rw [hother, eq_of_increasing h (Keyed.mem_of_lookup hother) hmem]

theorem Occurs.eq (h : doc.Sorted) {s s' : Site} (hs : s.Occurs doc) (hs' : s'.Occurs doc)
    (hpath : s.path = s'.path) (hmethod : s.method = s'.method) : s = s' := by
  obtain ⟨path, method, item, op⟩ := s
  obtain ⟨path', method', item', op'⟩ := s'
  obtain rfl : path = path' := hpath
  obtain rfl : method = method' := hmethod
  obtain rfl : item = item' := eq_of_increasing (increasing_fields h "paths") hs.item hs'.item
  have hop : some op = some op' := hs.op.symm.trans hs'.op
  cases hop
  rfl

theorem nodup_sites (h : doc.Sorted) : (Operation.sites doc).Nodup := by
  unfold Operation.sites
  refine List.nodup_flatMap.mpr ⟨?_, ?_⟩
  · rintro ⟨path, item⟩ -
    refine List.Nodup.filterMap ?_ (by decide)
    intro method method' s hs hs'
    obtain ⟨op, -, rfl⟩ := Option.map_eq_some_iff.1 hs
    obtain ⟨op', -, heq⟩ := Option.map_eq_some_iff.1 hs'
    exact (Site.mk.inj heq).2.1.symm
  · refine (List.pairwise_map.mp (increasing_fields h "paths")).imp ?_
    rintro ⟨path, item⟩ ⟨path', item'⟩ hlt s hs hs'
    obtain ⟨method, -, hs⟩ := List.mem_filterMap.1 hs
    obtain ⟨method', -, hs'⟩ := List.mem_filterMap.1 hs'
    obtain ⟨op, -, rfl⟩ := Option.map_eq_some_iff.1 hs
    obtain ⟨op', -, heq⟩ := Option.map_eq_some_iff.1 hs'
    exact hlt.ne (Site.mk.inj heq).1.symm

theorem toUpperAscii_inj : ∀ method ∈ Operation.methods, ∀ method' ∈ Operation.methods,
    Text.toUpperAscii method = Text.toUpperAscii method' → method = method' := by
  decide +kernel

/-! ### The verdict -/

/-- **What a document needs.** -/
structure Valid (doc : Json) : Prop where
  operations : ∀ s, Site.Occurs doc s → s.Valid doc
  ids : ∀ s s', Site.Occurs doc s → Site.Occurs doc s' → ∀ a b, s.op.Says "operationId" a →
    s'.op.Says "operationId" b → Text.trim a = Text.trim b → s = s'
  extensions : ∀ p ∈ Reference.components doc "schemas", Extension.Decodes p.1 p.2

def StandsFor (o : Operation) (s : Site) : Prop :=
  o.path = s.path ∧ o.method = Text.toUpperAscii s.method

/-- **What a model is**: operations by their ids, one for each place; schemas by their names, one
for each component. -/
structure WellFormed (doc : Json) (m : Model) : Prop where
  ids : m.operations.Pairwise (·.id < ·.id)
  complete : ∀ s, Site.Occurs doc s → ∃! o, o ∈ m.operations ∧ StandsFor o s
  sound : ∀ o ∈ m.operations, ∃! s, Site.Occurs doc s ∧ StandsFor o s
  names : m.schemas.Pairwise (·.name < ·.name)
  schemas : m.schemas.map (·.name) = (Reference.components doc "schemas").map Prod.fst
  tags : ∀ o ∈ m.operations, o.tag ∈ m.tags

theorem nodup_idsOf_iff (h : doc.Sorted) : (idsOf (Operation.sites doc)).Nodup ↔
    ∀ s s', Site.Occurs doc s → Site.Occurs doc s' → ∀ a b, s.op.Says "operationId" a →
      s'.op.Says "operationId" b → Text.trim a = Text.trim b → s = s' := by
  unfold idsOf List.Nodup
  rw [List.pairwise_filterMap]
  constructor
  · intro hpair s s' hs hs' a b ha hb heq
    have hsymm : Std.Symm fun s s' : Site => ∀ id, s.op.getText? "operationId" = some id →
        ∀ id', s'.op.getText? "operationId" = some id' → id ≠ id' :=
      ⟨fun s s' h id' hid' id hid => (h id hid id' hid').symm⟩
    by_contra hne
    exact hpair.forall (Operation.mem_sites_iff.mpr hs) (Operation.mem_sites_iff.mpr hs') hne _
      (Json.getText?_eq_some_iff.mpr ⟨a, ha, rfl⟩) _ (Json.getText?_eq_some_iff.mpr ⟨b, hb, rfl⟩) heq
  · intro hall
    refine (nodup_sites h).pairwise_of_forall_ne fun s hs s' hs' hne id hid id' hid' heq => ?_
    obtain ⟨a, ha, rfl⟩ := Json.getText?_eq_some_iff.mp hid
    obtain ⟨b, hb, rfl⟩ := Json.getText?_eq_some_iff.mp hid'
    exact hne (hall s s' (Operation.mem_sites_iff.mp hs) (Operation.mem_sites_iff.mp hs') a b ha hb heq)

/-- What the building of a model has found, where it ends. -/
structure Found (doc : Json) (depth : Nat) where
  schemas : List (List Issue × Schema)
  registered : Registered
  named : namedSchemas? doc depth = some schemas
  register : register? doc depth = some registered

theorem exists_found (hobj : doc.isObj = true)
    (h : buildWithin depth doc context ≠ .error .tooDeep) : Nonempty (Found doc depth) := by
  rw [Ne, buildWithin_eq_tooDeep_iff hobj, not_not] at h
  obtain ⟨schemas, hs⟩ := Option.isSome_iff_exists.1 h.1
  obtain ⟨registered, hr⟩ := Option.isSome_iff_exists.1 h.2
  exact ⟨⟨schemas, registered, hs, hr⟩⟩

theorem found_of_build {m : Model} (h : build doc context = .ok m) :
    doc.isObj = true ∧ Nonempty (Found doc (depthBound doc)) := by
  have hobj : doc.isObj = true := by
    by_contra hobj
    unfold build buildWithin at h
    rw [if_pos (by simpa using hobj)] at h
    cases h
  have hends : buildWithin (depthBound doc) doc context ≠ .error .tooDeep := by
    intro htooDeep
    cases h.symm.trans htooDeep
  exact ⟨hobj, exists_found hobj hends⟩

namespace Found

variable (f : Found doc depth)

theorem exists_model_iff (hobj : doc.isObj = true) :
    (∃ m, buildWithin depth doc context = .ok m) ↔
      f.schemas.flatMap Prod.fst = [] ∧ f.registered.issues = [] := by
  have hs := f.named
  unfold namedSchemas? at hs
  rw [← List.append_eq_nil_iff]
  unfold buildWithin
  rw [hobj, if_neg (by simp)]
  simp only [hs, f.register]
  by_cases hissues : f.schemas.flatMap Prod.fst ++ f.registered.issues = []
  · simp [hissues]
  · simp [hissues]

theorem model_eq (hobj : doc.isObj = true) {m : Model}
    (h : buildWithin depth doc context = .ok m) :
    m.schemas = f.schemas.map Prod.snd ∧
      m.operations = f.registered.operations.mergeSort (fun a b => decide (a.id ≤ b.id)) ∧
      m.tags = allTags doc m.operations := by
  have hs := f.named
  unfold namedSchemas? at hs
  unfold buildWithin at h
  rw [hobj, if_neg (by simp)] at h
  simp only [hs, f.register] at h
  split at h
  · cases h
  · cases h
    exact ⟨rfl, rfl, rfl⟩

theorem extensions_iff : f.schemas.flatMap Prod.fst = [] ↔
    ∀ p ∈ Reference.components doc "schemas", Extension.Decodes p.1 p.2 := by
  have hall := forall₂_of_mapM f.named
  rw [List.flatMap_eq_nil_iff]
  constructor
  · intro h p hp
    obtain ⟨⟨found, s⟩, hfound, hbuilt⟩ := exists_right_of_forall₂ hall hp
    exact (Schema.buildNamed?_issues hbuilt).1.mp (h _ hfound)
  · intro h found hfound
    obtain ⟨p, hp, hbuilt⟩ := exists_left_of_forall₂ hall hfound
    exact (Schema.buildNamed?_issues hbuilt).1.mpr (h p hp)

theorem names : (Reference.components doc "schemas").map Prod.fst = f.schemas.map (·.2.name) :=
  map_eq_of_forall₂ (forall₂_of_mapM f.named) fun _ _ hbuilt =>
    (Schema.buildNamed?_issues hbuilt).2.symm

theorem operations_iff : f.registered.issues = [] ↔
    (∀ s, Site.Occurs doc s → s.Valid doc) ∧ (idsOf (Operation.sites doc)).Nodup := by
  have h : (Operation.sites doc).foldlM (registerOne? doc depth) ⟨[], [], []⟩ = some f.registered :=
    f.register
  rw [issues_of_foldlM h]
  simp [Operation.mem_sites_iff]

/-- The operations of a clean register are those of the document, under different ids. -/
theorem exists_operations (hissues : f.registered.issues = []) :
    List.Forall₂ Operation.Reads f.registered.operations (Operation.sites doc) := by
  have h : (Operation.sites doc).foldlM (registerOne? doc depth) ⟨[], [], []⟩ = some f.registered :=
    f.register
  obtain ⟨ops, hops, hreads⟩ := operations_of_foldlM h hissues
  rw [List.nil_append] at hops
  rwa [hops]

end Found

theorem idsOf_of_reads {ops : List Operation} {sites : List Site}
    (h : List.Forall₂ Operation.Reads ops sites) : idsOf sites = ops.map (·.id) := by
  induction h with
  | nil => rfl
  | cons hread _ ih => rw [idsOf_cons, hread.id, ih]; rfl

theorem mem_allTags {o : Operation} {operations : List Operation} (h : o ∈ operations) :
    o.tag ∈ allTags doc operations := by
  unfold allTags
  dsimp only
  by_cases hdeclared : o.tag ∈ (doc.items "tags").filterMap (·.getText? "name")
  · exact List.mem_append_left _ hdeclared
  · refine List.mem_append_right _ (Keyed.mem_keysOfList.mpr (List.mem_filter.mpr ⟨?_, ?_⟩))
    · exact List.mem_map_of_mem h
    · simpa using hdeclared

theorem pairwise_sorted {ops : List Operation} (h : (ops.map (·.id)).Nodup) :
    (ops.mergeSort fun a b => decide (a.id ≤ b.id)).Pairwise (·.id < ·.id) := by
  have hle : (ops.mergeSort fun a b => decide (a.id ≤ b.id)).Pairwise (·.id ≤ ·.id) := by
    have hsorted : (ops.mergeSort fun a b => decide (a.id ≤ b.id)).Pairwise
        fun a b => decide (a.id ≤ b.id) = true :=
      List.pairwise_mergeSort
        (fun a b c hab hbc => decide_eq_true ((of_decide_eq_true hab).trans (of_decide_eq_true hbc)))
        (fun a b => by simpa using le_total a.id b.id) ops
    exact hsorted.imp of_decide_eq_true
  have hne : (ops.mergeSort fun a b => decide (a.id ≤ b.id)).Pairwise (·.id ≠ ·.id) :=
    List.pairwise_map.mp (((List.mergeSort_perm ops _).map Operation.id).nodup_iff.mpr h)
  exact hle.imp₂ (fun _ _ hle hne => lt_of_le_of_ne hle hne) hne

theorem wellFormed_of_found (h : doc.Sorted) (hobj : doc.isObj = true) (f : Found doc depth)
    {m : Model} (hm : buildWithin depth doc context = .ok m) : WellFormed doc m := by
  obtain ⟨hschemas, hoperations, htags⟩ := f.model_eq hobj hm
  have hissues := ((f.exists_model_iff hobj).mp ⟨m, hm⟩).2
  have hreads := f.exists_operations hissues
  have hids : m.operations.Pairwise (·.id < ·.id) := by
    rw [hoperations]
    refine pairwise_sorted ?_
    rw [← idsOf_of_reads hreads]
    exact (f.operations_iff.mp hissues).2
  have hmem : ∀ o, o ∈ m.operations ↔ o ∈ f.registered.operations := by
    intro o
    rw [hoperations, List.mem_mergeSort]
  -- a place is its path and its method, and an operation has both from its place
  have hsites : ∀ s s', Site.Occurs doc s → Site.Occurs doc s' → ∀ o, StandsFor o s →
      StandsFor o s' → s = s' := by
    intro s s' hs hs' o ho ho'
    exact Occurs.eq h hs hs' (ho.1.symm.trans ho'.1)
      (toUpperAscii_inj _ hs.method _ hs'.method (ho.2.symm.trans ho'.2))
  have hread : ∀ o ∈ m.operations, ∃ s, Site.Occurs doc s ∧ o.Reads s := by
    intro o ho
    obtain ⟨s, hs, hr⟩ := exists_right_of_forall₂ hreads ((hmem o).mp ho)
    exact ⟨s, Operation.mem_sites_iff.mp hs, hr⟩
  have hnodup : (m.operations.map (·.id)).Nodup := List.pairwise_map.mpr (hids.imp fun hlt => hlt.ne)
  refine ⟨hids, fun s hs => ?_, fun o ho => ?_, ?_, ?_, fun o ho => ?_⟩
  · obtain ⟨o, ho, hr⟩ := exists_left_of_forall₂ hreads (Operation.mem_sites_iff.mpr hs)
    refine ⟨o, ⟨(hmem o).mpr ho, hr.path, hr.method⟩, fun o' ⟨ho', hstands⟩ => ?_⟩
    obtain ⟨s', hs', hr'⟩ := hread o' ho'
    obtain rfl := hsites s s' hs hs' o' hstands ⟨hr'.path, hr'.method⟩
    have hid : o'.id = o.id := Option.some.inj (hr'.id.symm.trans hr.id)
    exact List.inj_on_of_nodup_map hnodup ho' ((hmem o).mpr ho) hid
  · obtain ⟨s, hs, hr⟩ := hread o ho
    exact ⟨s, ⟨hs, hr.path, hr.method⟩, fun s' ⟨hs', hstands⟩ =>
      hsites s' s hs' hs o hstands ⟨hr.path, hr.method⟩⟩
  · have hnames := increasing_components h "schemas"
    rw [Keyed.Increasing, f.names] at hnames
    rw [hschemas]
    exact List.pairwise_map.mpr (List.pairwise_map.mp hnames)
  · rw [hschemas, List.map_map, f.names]
    rfl
  · rw [htags]
    exact mem_allTags ho

theorem build_eq_buildWithin (h : buildWithin depth doc context ≠ .error .tooDeep) :
    build doc context = buildWithin depth doc context := by
  have hbound : buildWithin (depthBound doc) doc context ≠ .error .tooDeep := by
    refine buildWithin_answers_iff.2 fun hobj b hb => ?_
    have hbuilds := buildWithin_answers_iff.1 h hobj b hb
    exact (Schema.builds_of_not_comesBack (fun _ hp => Reference.components_mem_parts hp)
      (bodies_mem_parts hb) hbuilds.not_comesBack).mono level_le_depthBound
  rcases Nat.le_total depth (depthBound doc) with hd | hd
  · exact buildWithin_of_le h hd
  · exact (buildWithin_of_le hbound hd).symm

theorem exists_build_of_map {α : Type} {f : Model → α} {a : α}
    (h : (buildWithin depth doc context).toOption.map f = some a) :
    ∃ m, build doc context = .ok m ∧ f m = a := by
  obtain ⟨m, hm, hmap⟩ := Option.map_eq_some_iff.mp h
  rw [toOption_eq_some] at hm
  refine ⟨m, ?_, hmap⟩
  rw [build_eq_buildWithin (by rw [hm]; exact nofun), hm]

theorem exists_build_of_isOk (h : (buildWithin depth doc context).isOk = true) :
    buildWithin depth doc context ≠ .error .tooDeep ∧ ∃ m, build doc context = .ok m := by
  obtain ⟨m, hm⟩ := exists_ok_of_toBool h
  have hends : buildWithin depth doc context ≠ .error .tooDeep := by
    rw [hm]
    exact nofun
  exact ⟨hends, m, (build_eq_buildWithin hends).trans hm⟩

/-- **There is a model exactly of the valid documents**, and it is well formed: of a document whose
building ends at some depth, every fault of any operation, parameter or extension, and every id that
is there twice, is an issue, and nothing else is. -/
theorem build_iff_valid (doc : Json) (context : String) (hobj : doc.isObj = true) (h : doc.Sorted)
    (hends : ∃ depth, buildWithin depth doc context ≠ .error .tooDeep) :
    ((∃ m, build doc context = .ok m) ↔ Valid doc) ∧
      ∀ m, build doc context = .ok m → WellFormed doc m := by
  obtain ⟨depth, hdepth⟩ := hends
  obtain ⟨f⟩ := exists_found hobj hdepth
  rw [build_eq_buildWithin hdepth]
  refine ⟨?_, fun m hm => wellFormed_of_found h hobj f hm⟩
  rw [f.exists_model_iff hobj, f.extensions_iff, f.operations_iff, nodup_idsOf_iff h]
  exact ⟨fun ⟨hext, hops, hids⟩ => ⟨hops, hids, hext⟩,
    fun hvalid => ⟨hvalid.extensions, hvalid.operations, hvalid.ids⟩⟩

end

def usersDocument : Json := .obj [
  ("components", .obj [("schemas", .obj [("User", .obj [
    ("x-codegen", .obj [("type", .str "entity")])])])]),
  ("paths", .obj [("/users", .obj [("get", .obj [
    ("operationId", .str "listUsers"),
    ("parameters", .arr [.obj [("in", .str "query"), ("name", .str "limit")]]),
    ("summary", .str "List users"),
    ("tags", .arr [.str "Users"])])])])]

theorem sorted_users : usersDocument.Sorted := by
  simp only [usersDocument, Json.Sorted, Json.SortedItems, Json.SortedFields]
  decide +kernel

/-- The document is valid, since it has a model. -/
theorem build_iff_valid_users :
    usersDocument.isObj = true ∧ usersDocument.Sorted ∧
      (∃ depth, buildWithin depth usersDocument "" ≠ .error .tooDeep) ∧
      Valid usersDocument ∧ ∃ m, build usersDocument "" = .ok m ∧ WellFormed usersDocument m := by
  have hok : (buildWithin 3 usersDocument "").isOk = true := by decide +kernel
  obtain ⟨m, hm⟩ := exists_ok_of_toBool hok
  have hends : buildWithin 3 usersDocument "" ≠ .error .tooDeep := by
    rw [hm]
    exact nofun
  have hbuild : build usersDocument "" = .ok m := (build_eq_buildWithin hends).trans hm
  obtain ⟨hiff, hwell⟩ := build_iff_valid usersDocument "" rfl sorted_users ⟨3, hends⟩
  exact ⟨rfl, sorted_users, ⟨3, hends⟩, hiff.mp ⟨m, hbuild⟩, m, hbuild, hwell m hbuild⟩

end Model
end ApiScaffold
