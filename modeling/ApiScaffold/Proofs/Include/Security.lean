import Mathlib.Logic.Basic
import Mathlib.Tactic.ByContra
import ApiScaffold.Proofs.Include.Union
import ApiScaffold.Security

/-!
# Security of operations after fragments are included

An operation without requirements of its own has those of the document, or every declared scheme if
the document has no list of them.  Fragments add to that list and to the schemes, so requirements
are never lost where there is a list.  Where there is none, a fragment makes one, which may be empty.
-/

namespace ApiScaffold.Include

open Yaml (Node Mapping IsWord)

/-- The requirements in one entry of the root of a fragment. -/
def requirements? (key value : Node) : Option (List Node) :=
  match key.str?, value with
  | some "security", .seq requirements => some requirements
  | _, _ => none

/-- The lists of requirements in the root of a fragment. -/
def requirementLists (source : Mapping) : List (List Node) :=
  source.filterMap fun e => requirements? e.1 e.2

/-- What a root document has under `security`; null is taken for nothing. -/
inductive Shared where
  | absent
  | list (requirements : List Node)
  | other

def shared (root : Mapping) : Shared :=
  match root.get? "security" with
  | none => .absent
  | some v =>
    if v.isNull then .absent
    else match v.seq? with
      | some requirements => .list requirements
      | none => .other

/-- What is there after a list of a fragment. -/
def Shared.add : Shared → List Node → Shared
  | absent, more => .list (addNamed requirementName? [] more)
  | list requirements, more => .list (addNamed requirementName? requirements more)
  | other, _ => .other

/-! ### The list of the document -/

theorem shared_congr {root root' : Mapping} (h : root'.get? "security" = root.get? "security") :
    shared root' = shared root := by
  unfold shared
  rw [h]

/-- A list of a fragment goes behind the requirements that are there. -/
theorem shared_updateSeq (root : Mapping) (more : List Node) :
    shared (root.updateSeq "security" (addNamed requirementName? · more))
      = (shared root).add more := by
  have hself : ∀ v : Node, shared (root.put (.str "security") v) = if v.isNull then .absent
      else match v.seq? with
        | some requirements => .list requirements
        | none => .other := by
    intro v
    unfold shared
    rw [Mapping.get?_put_self]
  have hseq : ∀ (v : Node) (items : List Node),
      (if (v.replaceUntagged (.seq items)).isNull then Shared.absent
        else match (v.replaceUntagged (.seq items)).seq? with
          | some requirements => .list requirements
          | none => .other) = .list items := by
    intro v items
    have hu := Node.untagged_replaceUntagged v (.seq items) rfl
    simp [Node.isNull, Node.seq?, hu]
  -- what is missing and what is null are both filled from the empty list
  have hnew : root.getOr "security" (.seq []) = .seq [] →
      shared (root.updateSeq "security" (addNamed requirementName? · more))
        = .list (addNamed requirementName? [] more) := by
    intro h
    unfold Mapping.updateSeq
    simp only [h, Node.seq?, Node.untagged]
    rw [hself, hseq]
  cases hget : root.get? "security" with
  | none =>
    have habsent : shared root = .absent := by
      unfold shared
      rw [hget]
    rw [habsent, hnew (by unfold Mapping.getOr; rw [hget])]
    rfl
  | some v =>
    by_cases hnull : v.isNull
    · have habsent : shared root = .absent := by
        unfold shared
        simp only [hget, hnull, if_true]
      rw [habsent, hnew (by unfold Mapping.getOr; simp only [hget, hnull, if_true])]
      rfl
    · have hor : root.getOr "security" (.seq []) = v := by
        unfold Mapping.getOr
        simp only [hget, hnull, Bool.false_eq_true, if_false]
      unfold Mapping.updateSeq
      simp only [hor]
      cases hs : v.seq? with
      | none =>
        have hother : shared root = .other := by
          unfold shared
          simp only [hget, hnull, Bool.false_eq_true, if_false, hs]
        rw [hother]
        rfl
      | some items =>
        have hlist : shared root = .list items := by
          unfold shared
          simp only [hget, hnull, Bool.false_eq_true, if_false, hs]
        rw [hlist]
        simp only
        rw [hself, hseq]
        rfl

/-- Only a list under `security` changes what the document has there. -/
theorem shared_addPart (fragment : String) (root : Mapping) (key value : Node) :
    shared (addPart fragment root key value).1
      = match requirements? key value with
        | some requirements => (shared root).add requirements
        | none => shared root := by
  unfold addPart requirements?
  -- the cases are those of `addPart`, and only one of them concerns the list
  split
  · rename_i hkey
    simp only [hkey]
    exact shared_congr (Mapping.get?_updateMap_of_ne root _ (by decide))
  · rename_i hkey
    simp only [hkey]
    exact shared_congr (Mapping.get?_updateMap_of_ne root _ (by decide))
  · rename_i hkey
    simp only [hkey]
    exact shared_congr (Mapping.get?_updateSeq_of_ne root _ (by decide))
  · rename_i hkey
    simp only [hkey]
    exact shared_updateSeq root _
  · rename_i hother
    split
    · rename_i heq
      split at heq
      · exact (hother _ (by assumption) rfl).elim
      · cases heq
    · rfl

theorem shared_addRoot (fragment : String) (root source : Mapping) :
    shared (addRoot fragment root source).1
      = (requirementLists source).foldl Shared.add (shared root) := by
  rw [addRoot_eq_foldl]
  unfold requirementLists
  induction source generalizing root with
  | nil => rfl
  | cons e rest ih =>
    rw [List.foldl_cons, ih, shared_addPart, List.filterMap_cons]
    cases requirements? e.1 e.2 with
    | none => rfl
    | some requirements => rfl

/-- **The list of a document after all fragments.** -/
theorem shared_addRoots (root : Mapping) (fragments : List (String × Mapping)) :
    shared (addRoots root fragments)
      = (fragments.flatMap (requirementLists ·.2)).foldl Shared.add (shared root) := by
  unfold addRoots
  induction fragments generalizing root with
  | nil => rfl
  | cons f rest ih =>
    rw [List.foldl_cons, ih, shared_addRoot, List.flatMap_cons, List.foldl_append]

/-! ### Named requirements -/

section Named

variable (name? : Node → Option String)

theorem addNamed_cons (target : List Node) (item : Node) (rest : List Node) :
    addNamed name? target (item :: rest) = addNamed name? (addNamed name? target [item]) rest :=
  rfl

theorem addNamed_singleton (target : List Node) (item : Node) :
    addNamed name? target [item] = match name? item with
      | none => target
      | some name => if target.any (name? · == some name) then target else target ++ [item] :=
  rfl

theorem prefix_addNamed (target source : List Node) : target <+: addNamed name? target source := by
  induction source generalizing target with
  | nil => exact List.prefix_refl target
  | cons item rest ih =>
    rw [addNamed_cons]
    refine List.IsPrefix.trans ?_ (ih _)
    rw [addNamed_singleton]
    split
    · exact List.prefix_refl target
    · split
      · exact List.prefix_refl target
      · exact List.prefix_append target [item]

theorem addNamed_named {target : List Node} (source : List Node)
    (h : ∀ n ∈ target, (name? n).isSome) : ∀ n ∈ addNamed name? target source, (name? n).isSome := by
  induction source generalizing target with
  | nil => exact h
  | cons item rest ih =>
    rw [addNamed_cons]
    refine ih ?_
    rw [addNamed_singleton]
    split
    · exact h
    · rename_i name hname
      split
      · exact h
      · intro n hn
        rcases List.mem_append.mp hn with hn | hn
        · exact h n hn
        · rw [List.mem_singleton.mp hn, hname]
          rfl

theorem addNamed_eq_nil_iff {target source : List Node} :
    addNamed name? target source = [] ↔ target = [] ∧ ∀ n ∈ source, name? n = none := by
  induction source generalizing target with
  | nil => simp [addNamed]
  | cons item rest ih =>
    rw [addNamed_cons, ih, addNamed_singleton, List.forall_mem_cons]
    cases hname : name? item with
    | none => simp
    | some name =>
      simp only [reduceCtorEq, false_and, and_false, iff_false, not_and]
      intro h
      split at h
      · rename_i hany
        rw [h] at hany
        cases hany
      · simp at h

end Named

/-- Lists of fragments go behind the list that is there. -/
theorem foldl_add_list (lists : List (List Node)) (requirements : List Node) :
    ∃ after, lists.foldl Shared.add (.list requirements) = .list after ∧
      requirements <+: after ∧
      ((∀ r ∈ requirements, (requirementName? r).isSome) →
        ∀ r ∈ after, (requirementName? r).isSome) ∧
      (after = [] ↔ requirements = [] ∧ ∀ more ∈ lists, ∀ r ∈ more, requirementName? r = none) := by
  induction lists generalizing requirements with
  | nil => exact ⟨requirements, rfl, List.prefix_refl _, id, by simp⟩
  | cons more rest ih =>
    obtain ⟨after, hafter, hprefix, hnamed, hnil⟩ := ih (addNamed requirementName? requirements more)
    refine ⟨after, hafter, (prefix_addNamed requirementName? requirements more).trans hprefix,
      fun h => hnamed (addNamed_named requirementName? more h), ?_⟩
    rw [hnil, addNamed_eq_nil_iff, List.forall_mem_cons, and_assoc]

theorem foldl_add_other (lists : List (List Node)) :
    lists.foldl Shared.add .other = .other := by
  induction lists with
  | nil => rfl
  | cons more rest ih => exact ih

/-- The first list of a fragment is there even if none of it is added. -/
theorem foldl_add_absent {lists : List (List Node)} (h : lists ≠ []) :
    lists.foldl Shared.add .absent = lists.foldl Shared.add (.list []) := by
  cases lists with
  | nil => exact absurd rfl h
  | cons more rest => rfl

/-! ### The value of a document -/

theorem security_isWord : IsWord "security" := ⟨by decide, by decide, by decide, by decide⟩

theorem securitySchemes_isWord : IsWord "securitySchemes" := ⟨by decide, by decide, by decide, by decide⟩

def HasSchemes (root : Mapping) : Prop :=
  ∃ entries, kindPart? root "securitySchemes" = some entries ∧ entries ≠ []

/-- The requirements that the value of a root document has for all operations. -/
theorem getArr?_security {root : Mapping} (hr : RootLegible root) :
    (Node.map root).toJson.getArr? "security" = match shared root with
      | .list requirements => some (Node.itemsToJson requirements)
      | _ => none := by
  unfold Json.getArr? shared
  rw [Mapping.get?_toJson hr.keys security_isWord]
  cases root.get? "security" with
  | none => rfl
  | some v =>
    have harr := Node.arr?_toJson v
    have hnull : v.isNull = true → v.seq? = none := by
      unfold Node.isNull Node.seq?
      intro h
      split at h
      · rename_i heq
        rw [heq]
      · cases h
    by_cases hn : v.isNull
    · simp only [Option.map_some, Option.bind_some, harr, hnull hn, hn, if_true, Option.map_none]
    · simp only [Option.map_some, Option.bind_some, harr, hn, Bool.false_eq_true, if_false]
      cases v.seq? with
      | none => rfl
      | some requirements => rfl

theorem fields_components_toJson {root : Mapping} (hr : RootLegible root) {w : String}
    (hw : IsWord w) :
    (((Node.map root).toJson.get? "components").map (·.fields w)).getD []
      = Node.entriesToJson ((kindPart? root w).getD []) [] := by
  rw [Mapping.get?_toJson hr.keys components_isWord]
  unfold kindPart?
  cases hc : root.get? "components" with
  | none =>
    rw [Mapping.part?_of_none hc]
    rfl
  | some c =>
    rw [Option.map_some, Option.map_some, Option.getD_some]
    cases hm : c.map? with
    | none =>
      rw [Mapping.fields_of_obj? (Node.obj?_toJson_of_map? hm)]
      rcases Mapping.part?_of_some hc with ⟨-, hpart⟩ | hpart
      · rw [hpart]
        rfl
      · rw [hpart, hm]
        rfl
    | some m =>
      have hpart : root.part? "components" = some m := by
        rcases Mapping.part?_of_some hc with ⟨hnone, -⟩ | hpart
        · rw [hm] at hnone
          cases hnone
        · rw [hpart, hm]
      rw [Node.toJson_of_map? hm, Mapping.fields_toJson (hr.components m hpart) hw, hpart]
      rfl

theorem schemes_ne_nil_iff {root : Mapping} (hr : RootLegible root) :
    Security.schemes (Node.map root).toJson ≠ [] ↔ HasSchemes root := by
  unfold Security.schemes HasSchemes
  rw [Ne, List.map_eq_nil_iff, fields_components_toJson hr securitySchemes_isWord,
    Mapping.entriesToJson_eq_nil_iff, and_iff_left rfl]
  cases kindPart? root "securitySchemes" with
  | none => simp
  | some entries => simp

theorem HasSchemes.addRoots {root : Mapping} (h : HasSchemes root)
    (fragments : List (String × Mapping)) : HasSchemes (addRoots root fragments) := by
  obtain ⟨entries, hentries, hne⟩ := h
  refine ⟨_, by rw [kindPart?_addRoots, hentries]; rfl, ?_⟩
  intro hnil
  exact hne (List.append_eq_nil_iff.mp hnil).1

/-! ### Requirements of an operation -/

theorem itemsToJson_append (items more : List Node) :
    Node.itemsToJson (items ++ more) = Node.itemsToJson items ++ Node.itemsToJson more := by
  induction items with
  | nil => rfl
  | cons n rest ih =>
    rw [List.cons_append, Node.itemsToJson, Node.itemsToJson, ih, List.cons_append]

theorem named_append (entries more : List Json) :
    Security.named (entries ++ more) = Security.named entries ++ Security.named more := by
  unfold Security.named
  rw [List.filterMap_append, List.flatten_append, List.map_append]

/-- A list with a requirement that names a scheme asks for it. -/
theorem named_ne_nil_of_requirementName? {r : Node} (h : (requirementName? r).isSome)
    (rest : List Node) : Security.named (Node.itemsToJson (r :: rest)) ≠ [] := by
  unfold requirementName? at h
  cases hm : r.map? with
  | none =>
    rw [hm] at h
    cases h
  | some m =>
    cases m with
    | nil =>
      rw [hm] at h
      cases h
    | cons e m =>
      have hobj : r.toJson.obj? = some (Node.entriesToJson (e :: m) []) := by
        rw [Node.toJson_of_map? hm, Node.toJson]
        rfl
      unfold Security.named
      rw [Node.itemsToJson, List.filterMap_cons, hobj, List.flatten_cons]
      intro hnil
      rw [List.map_eq_nil_iff, List.append_eq_nil_iff, Mapping.entriesToJson_eq_nil_iff] at hnil
      cases hnil.1.1

theorem effective_eq_nil_iff (doc op : Json) :
    Security.effective doc op = [] ↔
      Security.isDeclaredPublic op = true ∨ Security.required doc op = [] := by
  unfold Security.effective
  by_cases h : Security.isDeclaredPublic op = true
  · simp [h]
  · simp [h]

theorem required_of_none {root : Mapping} (hr : RootLegible root) {op : Json}
    (h : op.getArr? "security" = none) :
    Security.required (Node.map root).toJson op = [] ↔ match shared root with
      | .list requirements => Security.named (Node.itemsToJson requirements) = []
      | _ => ¬HasSchemes root := by
  unfold Security.required
  rw [h, getArr?_security hr, ← schemes_ne_nil_iff hr, not_ne_iff]
  cases shared root with
  | absent => simp
  | list requirements => rfl
  | other => simp

/-- **When including fragments opens an operation.**  An operation that asked for something asks for
nothing any more if and only if it has no list of its own, the document has none either, some
fragment has one, and no list of a fragment names a scheme.  A document that was read is sound by
`Yaml.parse?_sound`. -/
theorem opens_iff {root : Mapping} (hroot : (Node.map root).Sound)
    (fragments : List (String × Mapping)) (op : Json)
    (h : Security.effective (Node.map root).toJson op ≠ []) :
    Security.effective (Node.map (addRoots root fragments)).toJson op = [] ↔
      op.getArr? "security" = none ∧ shared root = .absent ∧
        (∃ f ∈ fragments, requirementLists f.2 ≠ []) ∧
        ∀ f ∈ fragments, ∀ requirements ∈ requirementLists f.2, ∀ r ∈ requirements,
          requirementName? r = none := by
  have hr := RootLegible.of_sound hroot
  have hr' := hr.addRoots fragments
  rw [Ne, effective_eq_nil_iff, not_or] at h
  obtain ⟨hpublic, hrequired⟩ := h
  rw [effective_eq_nil_iff, or_iff_right hpublic]
  cases hown : op.getArr? "security" with
  | some own =>
    have heq : ∀ doc, Security.required doc op = Security.named own := by
      intro doc
      unfold Security.required
      rw [hown]
    rw [heq] at hrequired ⊢
    simp [hrequired]
  | none =>
    rw [required_of_none hr hown] at hrequired
    rw [required_of_none hr' hown, shared_addRoots]
    -- now the operation has what the document requires, as the fragments leave it
    cases hshared : shared root with
    | other =>
      rw [hshared] at hrequired
      rw [foldl_add_other]
      simp [(not_not.mp hrequired).addRoots fragments]
    | list requirements =>
      rw [hshared] at hrequired
      -- a list only grows, so it still names a scheme
      obtain ⟨after, hafter, ⟨more, hprefix⟩, -, -⟩ :=
        foldl_add_list (fragments.flatMap (requirementLists ·.2)) requirements
      rw [hafter, ← hprefix]
      simp [itemsToJson_append, named_append, show _ ≠ [] from hrequired]
    | absent =>
      rw [hshared] at hrequired
      have hschemes := (not_not.mp hrequired).addRoots fragments
      by_cases hlists : fragments.flatMap (requirementLists ·.2) = []
      · have hnone : ¬∃ f ∈ fragments, requirementLists f.2 ≠ [] := by
          rintro ⟨f, hf, hne⟩
          exact hne (List.flatMap_eq_nil_iff.mp hlists f hf)
        rw [hlists]
        simp [hschemes, hnone]
      · have hsome : ∃ f ∈ fragments, requirementLists f.2 ≠ [] := by
          by_contra hno
          refine hlists (List.flatMap_eq_nil_iff.mpr fun f hf => ?_)
          by_contra hne
          exact hno ⟨f, hf, hne⟩
        -- a list that begins empty has only what names a scheme
        obtain ⟨after, hafter, -, hnamed, hnil⟩ :=
          foldl_add_list (fragments.flatMap (requirementLists ·.2)) []
        rw [foldl_add_absent hlists, hafter]
        have hempty : Security.named (Node.itemsToJson after) = [] ↔ after = [] := by
          cases after with
          | nil => exact ⟨fun _ => rfl, fun _ => rfl⟩
          | cons r rest =>
            have hr := hnamed (by simp) r List.mem_cons_self
            exact ⟨fun h => absurd h (named_ne_nil_of_requirementName? hr rest), nofun⟩
        simp only [hempty, hnil, true_and, hsome, List.forall_mem_flatMap]

/-! ### A fragment with an empty list -/

/-- A document that declares a scheme and has no list of requirements. -/
def guardedRoot : Mapping :=
  [(.str "components", .map [(.str "securitySchemes", .map [(.str "bearerAuth", .map [
    (.str "type", .str "http"), (.str "scheme", .str "bearer")])])])]

def emptyList : Mapping := [(.str "security", .seq [])]

def plainOperation : Json := .obj [("operationId", .str "listUsers")]

theorem sound_guardedRoot : (Node.map guardedRoot).Sound := by
  have hscheme : (Node.map [(.str "type", .str "http"), (.str "scheme", .str "bearer")]).Sound := by
    refine .map (.cons ?_ (List.pairwise_singleton _ _)) ?_ ?_
    · simp [Node.same]
    · simp [Node.Sound.str]
    · simp [Node.Sound.str]
  have hone : ∀ (key : String) (v : Node), v.Sound → (Node.map [(.str key, v)]).Sound := by
    intro key v hv
    refine .map (List.pairwise_singleton _ _) ?_ ?_
    · simp [Node.Sound.str]
    · simpa using hv
  exact hone _ _ (hone _ _ (hone _ _ hscheme))

/-- The operation asks for the scheme; with the fragment it asks for nothing. -/
theorem opens_guardedRoot :
    (Node.map guardedRoot).Sound ∧
    Security.effective (Node.map guardedRoot).toJson plainOperation ≠ [] ∧
    Security.effective (Node.map (addRoots guardedRoot [("open", emptyList)])).toJson plainOperation
      = [] := by
  have h : Security.effective (Node.map guardedRoot).toJson plainOperation ≠ [] := by decide
  refine ⟨sound_guardedRoot, h, ?_⟩
  refine (opens_iff sound_guardedRoot [("open", emptyList)] plainOperation h).mpr ?_
  refine ⟨rfl, rfl, ⟨("open", emptyList), List.mem_singleton_self _, ?_⟩, ?_⟩
  · simp [requirementLists, requirements?, emptyList, Node.str?, Node.untagged]
  · simp [requirementLists, requirements?, emptyList, Node.str?, Node.untagged]

/-- **Including fragments may open an operation.** -/
theorem not_forall_stays_guarded :
    ¬∀ (root : Mapping) (fragments : List (String × Mapping)) (op : Json),
      (Node.map root).Sound → Security.effective (Node.map root).toJson op ≠ [] →
      Security.effective (Node.map (addRoots root fragments)).toJson op ≠ [] := by
  intro h
  refine h guardedRoot [("open", emptyList)] plainOperation sound_guardedRoot ?_ ?_
  · decide
  · decide

end ApiScaffold.Include
