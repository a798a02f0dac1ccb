import Mathlib.Data.List.Perm.Basic
import ApiScaffold.Proofs.Document.Load
import ApiScaffold.Proofs.Model.Issues

/-!
# Operations of a stripped document

`Document.strip` keeps what stands under the name of a method in any ASCII case, `Operation.named`;
`Model.build` reads what stands under a name in lower case, `Operation.sites`.  If there is a model,
its operations are those that were kept if and only if all names are in lower case
(`Document.named_read_iff`).
-/

namespace ApiScaffold

/-! ### Operations by the names of methods -/

namespace Operation

/-- The operations of a path item, each under the name of a method in some ASCII case. -/
def namedIn (path : String) (item : Json) : List Site :=
  (item.obj?.getD []).filterMap fun f =>
    if Text.toLowerAscii f.1 ∈ methods then some ⟨path, f.1, item, f.2⟩ else none

def named (doc : Json) : List Site :=
  (doc.fields "paths").flatMap fun p => namedIn p.1 p.2

/-- What stands under the name of a method. -/
structure Site.Named (doc : Json) (s : Site) : Prop where
  item : (s.path, s.item) ∈ doc.fields "paths"
  method : Text.toLowerAscii s.method ∈ methods
  op : (s.method, s.op) ∈ s.item.obj?.getD []

theorem mem_namedIn_iff {path : String} {item : Json} {s : Site} : s ∈ namedIn path item ↔
    s.path = path ∧ s.item = item ∧ Text.toLowerAscii s.method ∈ methods ∧
      (s.method, s.op) ∈ item.obj?.getD [] := by
  unfold namedIn
  simp only [List.mem_filterMap, Option.ite_none_right_eq_some, Option.some.injEq]
  constructor
  · rintro ⟨f, hop, hmethod, rfl⟩
    exact ⟨rfl, rfl, hmethod, hop⟩
  · rintro ⟨rfl, rfl, hmethod, hop⟩
    exact ⟨(s.method, s.op), hop, hmethod, rfl⟩

theorem mem_named_iff {doc : Json} {s : Site} : s ∈ named doc ↔ s.Named doc := by
  unfold named
  rw [List.mem_flatMap]
  constructor
  · rintro ⟨p, hp, hs⟩
    obtain ⟨hpath, hitem, hmethod, hop⟩ := mem_namedIn_iff.mp hs
    refine ⟨?_, hmethod, ?_⟩
    · rwa [hpath, hitem]
    · rwa [hitem]
  · rintro ⟨hitem, hmethod, hop⟩
    exact ⟨_, hitem, mem_namedIn_iff.mpr ⟨rfl, rfl, hmethod, hop⟩⟩

theorem toLowerAscii_methods : ∀ method ∈ methods, Text.toLowerAscii method = method := by
  decide +kernel

section

variable {doc : Json} (hsorted : doc.Sorted)
include hsorted

theorem increasing_item {path : String} {item : Json} (h : (path, item) ∈ doc.fields "paths") :
    Keyed.Increasing (item.obj?.getD []) := by
  have hitem : item.Sorted := (Json.sorted_obj_iff.mp (hsorted.fields "paths")).2 _ h
  cases item with
  | obj fields => exact (Json.sorted_obj_iff.mp hitem).1
  | _ => exact Keyed.increasing_nil

/-- **What is read** is what stands under a name in lower case. -/
theorem occurs_iff {s : Site} : s.Occurs doc ↔ s.Named doc ∧ s.method ∈ methods := by
  have hop : (s.path, s.item) ∈ doc.fields "paths" →
      (s.item.get? s.method = some s.op ↔ (s.method, s.op) ∈ s.item.obj?.getD []) := by
    intro hitem
    rw [← Model.lookup_iff_mem (increasing_item hsorted hitem)]
    cases s.item <;> simp [Json.get?, Json.obj?]
  constructor
  · intro h
    refine ⟨⟨h.item, ?_, (hop h.item).mp h.op⟩, h.method⟩
    rw [toLowerAscii_methods _ h.method]
    exact h.method
  · rintro ⟨h, hmethod⟩
    exact ⟨h.item, hmethod, (hop h.item).mpr h.op⟩

theorem nodup_namedIn {path : String} {item : Json} (h : (path, item) ∈ doc.fields "paths") :
    (namedIn path item).Nodup := by
  have hkeys : (item.obj?.getD []).Nodup :=
    .of_map Prod.fst ((increasing_item hsorted h).imp fun hlt => hlt.ne)
  refine hkeys.filterMap fun f f' s hs hs' => ?_
  rw [Option.mem_def, Option.ite_none_right_eq_some] at hs hs'
  cases hs.2
  exact Prod.ext (Site.mk.inj (Option.some.inj hs'.2)).2.1.symm
    (Site.mk.inj (Option.some.inj hs'.2)).2.2.2.symm

theorem nodup_named : (named doc).Nodup := by
  refine List.nodup_flatMap.mpr ⟨fun p hp => nodup_namedIn hsorted hp, ?_⟩
  refine (List.pairwise_map.mp (Model.increasing_fields hsorted "paths")).imp ?_
  intro p p' hlt s hs hs'
  exact hlt.ne ((mem_namedIn_iff.mp hs).1.symm.trans (mem_namedIn_iff.mp hs').1)

/-- **All names are in lower case** if and only if what is named is what is read. -/
theorem named_perm_iff : (named doc).Perm (sites doc) ↔ ∀ s ∈ named doc, s.method ∈ methods := by
  constructor
  · intro h s hs
    exact ((occurs_iff hsorted).mp (mem_sites_iff.mp (h.subset hs))).2
  · intro h
    refine (List.perm_ext_iff_of_nodup (nodup_named hsorted) (Model.nodup_sites hsorted)).mpr ?_
    intro s
    rw [mem_sites_iff, occurs_iff hsorted, ← mem_named_iff]
    exact ⟨fun hs => ⟨hs, h s hs⟩, fun hs => hs.1⟩

theorem sites_subperm : (sites doc).Subperm (named doc) := by
  refine (Model.nodup_sites hsorted).subperm fun s hs => ?_
  exact mem_named_iff.mpr ((occurs_iff hsorted).mp (mem_sites_iff.mp hs)).1

end

end Operation

/-! ### Stripping -/

namespace Document

def strippedSite (s : Operation.Site) : Operation.Site := { s with item := stripItem s.item }

theorem isKnownKey_of_method {key : String} (h : Text.toLowerAscii key ∈ Operation.methods) :
    isKnownKey key = true := by
  unfold isKnownKey
  rw [Bool.or_eq_true, List.contains_iff_mem]
  exact .inl (List.mem_append_right _ h)

theorem fields_strip (doc : Json) : (strip doc).fields "paths"
    = (doc.fields "paths").map fun p => (p.1, stripItem p.2) := by
  unfold Json.fields
  rw [getObj?_strip]
  cases doc.getObj? "paths" <;> rfl

/-- **Stripping keeps every operation that is named.** -/
theorem named_strip (doc : Json) :
    Operation.named (strip doc) = (Operation.named doc).map strippedSite := by
  unfold Operation.named
  rw [fields_strip, List.flatMap_map, List.map_flatMap]
  refine List.flatMap_congr fun p _ => ?_
  unfold Operation.namedIn
  cases hitem : p.2 with
  | obj fields =>
    show (fields.filter fun f => isKnownKey f.1).filterMap _ = _
    rw [List.filterMap_filter, List.map_filterMap]
    refine List.filterMap_congr fun f _ => ?_
    by_cases hmethod : Text.toLowerAscii f.1 ∈ Operation.methods
    · simp [hmethod, isKnownKey_of_method hmethod, strippedSite]
    · simp [hmethod]
  | _ => rfl

theorem sorted_stripItem {item : Json} (h : item.Sorted) : (stripItem item).Sorted := by
  cases item with
  | obj fields =>
    obtain ⟨hkeys, hvalues⟩ := Json.sorted_obj_iff.mp h
    exact Json.sorted_obj_iff.mpr ⟨hkeys.sublist (List.filter_sublist.map Prod.fst),
      fun p hp => hvalues p (List.mem_filter.mp hp).1⟩
  | _ => exact h

theorem sorted_strip {doc : Json} (h : doc.Sorted) : (strip doc).Sorted := by
  unfold strip
  cases hpaths : doc.getObj? "paths" with
  | none => exact h
  | some paths =>
    have hitems : (Json.obj paths).Sorted := by
      have hfields := h.fields "paths"
      rwa [Json.fields, hpaths] at hfields
    obtain ⟨hkeys, hvalues⟩ := Json.sorted_obj_iff.mp hitems
    have hstripped : (Json.obj (paths.map fun p => (p.1, stripItem p.2))).Sorted := by
      refine Json.sorted_obj_iff.mpr ⟨?_, ?_⟩
      · unfold Keyed.Increasing
        rwa [List.map_map]
      · intro p hp
        obtain ⟨q, hq, rfl⟩ := List.mem_map.mp hp
        exact sorted_stripItem (hvalues q hq)
    cases doc with
    | obj fields => exact Json.sorted_insert h hstripped "paths"
    | _ => cases hpaths

theorem isObj_strip {doc : Json} (h : doc.isObj = true) : (strip doc).isObj = true := by
  unfold strip
  cases doc.getObj? "paths" with
  | none => exact h
  | some paths =>
    cases doc with
    | obj fields => rfl
    | _ => cases h

/-! ### The main result -/

section

variable {doc : Json} {context : String}

/-- The operations of a model, one for each that is named. -/
theorem exists_operations_iff (hsorted : doc.Sorted) {m : Model}
    (h : Model.build doc context = .ok m) :
    (∃ ops, ops.Perm m.operations ∧ List.Forall₂ Operation.Reads ops (Operation.named doc)) ↔
      ∀ s ∈ Operation.named doc, s.method ∈ Operation.methods := by
  obtain ⟨hobj, ⟨f⟩⟩ := Model.found_of_build h
  have hissues := ((f.exists_model_iff hobj).mp ⟨m, h⟩).2
  have hreads := f.exists_operations hissues
  have hperm : m.operations.Perm f.registered.operations := by
    rw [(f.model_eq hobj h).2.1]
    exact List.mergeSort_perm _ _
  rw [← Operation.named_perm_iff hsorted]
  constructor
  · rintro ⟨ops, hops, hnamed⟩
    have hlength : (Operation.named doc).length ≤ (Operation.sites doc).length := by
      rw [← hnamed.length_eq, hops.length_eq, hperm.length_eq, hreads.length_eq]
    exact ((Operation.sites_subperm hsorted).perm_of_length_le hlength).symm
  · intro hnamed
    obtain ⟨ops, hnamedReads, hops⟩ := List.perm_comp_forall₂ hnamed hreads.flip
    exact ⟨ops, hops.trans hperm.symm, hnamedReads.flip⟩

/-- A build that ends without a model reports an issue, and one at each place that is read and
whose operation is not valid. -/
theorem issues_of_error (hobj : doc.isObj = true) (hsorted : doc.Sorted)
    (hends : ∃ depth, Model.buildWithin depth doc context ≠ .error .tooDeep) {e : Model.Error}
    (h : Model.build doc context = .error e) :
    e.issues ≠ [] ∧ ∀ s, Operation.Site.Occurs doc s →
      s.Valid doc ∨ ∃ i ∈ e.issues, i.place = s.place := by
  obtain ⟨issues, rfl⟩ := Model.eq_invalid_of_error hobj hends h
  refine ⟨(Model.issues_of_build h).1, fun s hs => ?_⟩
  obtain ⟨again, heq, -⟩ := Model.problemsAt_operation hsorted h hs
  by_cases htold : s.told doc = []
  · exact .inl (Operation.Site.told_eq_nil_iff.mp htold)
  · refine .inr (exists_issue fun hnone => htold ?_)
    exact (List.append_eq_nil_iff.mp (heq.symm.trans hnone)).1

/-- **When nothing that is kept is lost.**  Stripping keeps every operation that is named.  If there
is a model of the stripped document, it has one operation for each of them if and only if all names
are in lower case; if there is none, an issue is reported, and one at each place under a name in
lower case whose operation is not valid. -/
theorem named_read_iff (hobj : doc.isObj = true) (hsorted : doc.Sorted)
    (hends : ∃ depth, Model.buildWithin depth (strip doc) context ≠ .error .tooDeep) :
    Operation.named (strip doc) = (Operation.named doc).map strippedSite ∧
    (∀ m, Model.build (strip doc) context = .ok m →
      ((∃ ops, ops.Perm m.operations ∧
          List.Forall₂ Operation.Reads ops (Operation.named (strip doc))) ↔
        ∀ s ∈ Operation.named doc, s.method ∈ Operation.methods)) ∧
    ∀ e, Model.build (strip doc) context = .error e → e.issues ≠ [] ∧
      ∀ s ∈ Operation.named (strip doc), s.method ∈ Operation.methods →
        s.Valid (strip doc) ∨ ∃ i ∈ e.issues, i.place = s.place := by
  have hstripped := sorted_strip hsorted
  refine ⟨named_strip doc, fun m hm => ?_, fun e he => ?_⟩
  · rw [exists_operations_iff hstripped hm, named_strip, List.forall_mem_map]
    rfl
  · obtain ⟨hissues, hplaces⟩ := issues_of_error (isObj_strip hobj) hstripped hends he
    refine ⟨hissues, fun s hs hmethod => hplaces s ?_⟩
    exact (Operation.occurs_iff hstripped).mpr ⟨Operation.mem_named_iff.mp hs, hmethod⟩

end

/-- All names of the document are in lower case, so its model has all that is kept. -/
theorem named_read_users : Model.usersDocument.isObj = true ∧ Model.usersDocument.Sorted ∧
    (∃ depth, Model.buildWithin depth (strip Model.usersDocument) "" ≠ .error .tooDeep) ∧
    ∃ m, Model.build (strip Model.usersDocument) "" = .ok m ∧ ∃ ops, ops.Perm m.operations ∧
      List.Forall₂ Operation.Reads ops (Operation.named (strip Model.usersDocument)) := by
  have hok : (Model.buildWithin 3 (strip Model.usersDocument) "").isOk = true := by decide +kernel
  obtain ⟨hends, m, hbuild⟩ := Model.exists_build_of_isOk hok
  obtain ⟨-, hread, -⟩ := named_read_iff rfl Model.sorted_users ⟨3, hends⟩
  exact ⟨rfl, Model.sorted_users, ⟨3, hends⟩, m, hbuild, (hread m hbuild).mpr (by decide +kernel)⟩

/-- One operation, under a name in capitals. -/
def shoutedDocument : Json := .obj [
  ("paths", .obj [("/users", .obj [("GET", .obj [
    ("operationId", .str "listUsers"),
    ("summary", .str "List users"),
    ("tags", .arr [.str "Users"])])])])]

/-- **Not all that is kept is read**: the operation is neither in the model nor reported. -/
theorem not_forall_named_read : ¬∀ (doc : Json) (context : String) (m : Model), doc.isObj = true →
    doc.Sorted → Model.build (strip doc) context = .ok m → ∃ ops, ops.Perm m.operations ∧
      List.Forall₂ Operation.Reads ops (Operation.named (strip doc)) := by
  intro h
  have hsorted : shoutedDocument.Sorted := by
    simp only [shoutedDocument, Json.Sorted, Json.SortedItems, Json.SortedFields]
    decide +kernel
  have hok : (Model.buildWithin 3 (strip shoutedDocument) "").isOk = true := by decide +kernel
  obtain ⟨-, m, hm⟩ := Model.exists_build_of_isOk hok
  have hlower := (exists_operations_iff (sorted_strip hsorted) hm).mp (h _ _ m rfl hsorted hm)
  exact absurd hlower (by decide +kernel)

end Document
end ApiScaffold
