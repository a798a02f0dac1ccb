import ApiScaffold.Extension.Decode
import ApiScaffold.Proofs.List.Arrival
import ApiScaffold.Proofs.Outcome
import ApiScaffold.Proofs.Persistence.Table
import ApiScaffold.Proofs.Text.Split

/-!
# Foreign keys of accepted relations

What an extension has to say for every foreign key of its table to be real, that is, to name a column,
a table and a column there.  Relations of the database part are checked, but only for being written at
all; those of the repository part are not checked.  `isReal_foreignKeys_iff` is the main result.
-/

namespace ApiScaffold

namespace Extension

theorem exists_draft_of_decode {schema : String} {v : Json} {e : Extension}
    (h : decode schema v = .ok e) : ∃ draft r, readDraft v = .ok draft ∧
      knownRole draft.role = .ok r ∧ draft.problems = [] ∧
      e = ⟨r, draft.repository.map RepositoryDraft.accept, draft.database⟩ := by
  unfold decode at h
  split at h
  · cases h
  · rename_i draft hdraft
    split at h
    · rename_i r hrole hproblems
      cases h
      exact ⟨draft, r, hdraft, hrole, hproblems, rfl⟩
    · cases h

/-- **Accepted relations of the database part** have a field and a reference. -/
theorem written_of_decode {schema : String} {v : Json} {e : Extension} (h : decode schema v = .ok e)
    {d : Database} (hd : e.database = some d) {r : Relation} (hr : r ∈ d.relations) :
    Text.isBlankText r.field = false ∧ Text.isBlankText r.references = false := by
  obtain ⟨draft, role, -, -, hproblems, rfl⟩ := exists_draft_of_decode h
  have hdraft : draft.database = some d := hd
  have hdatabase := (List.append_eq_nil_iff.mp hproblems).2
  rw [hdraft] at hdatabase
  have hrelations := (List.append_eq_nil_iff.mp (List.append_eq_nil_iff.mp hdatabase).1).1
  have hwritten := List.filter_eq_nil_iff.mp (List.map_eq_nil_iff.mp hrelations) r hr
  simpa using hwritten

end Extension

namespace Persistence

open Arrival (Newcomers)

/-! ### Relations that count -/

def databaseRelations (s : Schema) : List Relation :=
  ((s.extension.bind (·.database)).map (·.relations)).getD []

def repositoryRelations (s : Schema) : List Relation :=
  ((s.extension.bind (·.repository)).map (·.relations)).getD []

/-- **The relations of a schema** are those of the database part and what the others add. -/
theorem exists_relations (s : Schema) : ∃ added,
    Newcomers Relation.field (databaseRelations s) (repositoryRelations s) added ∧
      relations s = databaseRelations s ++ added := by
  obtain ⟨added, h, hfold⟩ :=
    Arrival.exists_newcomers Relation.field (databaseRelations s) (repositoryRelations s)
  refine ⟨added, h, Eq.trans ?_ hfold⟩
  unfold relations databaseRelations repositoryRelations
  cases s.extension <;> rfl

/-- A relation of the repository part counts, if it is the first with its field and the database part
has none. -/
def Counts (s : Schema) (r : Relation) : Prop :=
  (∀ k ∈ databaseRelations s, k.field ≠ r.field) ∧
    (repositoryRelations s).find? (·.field == r.field) = some r

theorem mem_relations_iff {s : Schema} {r : Relation} :
    r ∈ relations s ↔ r ∈ databaseRelations s ∨ Counts s r := by
  obtain ⟨added, h, heq⟩ := exists_relations s
  rw [heq, List.mem_append, h.mem]
  rfl

/-! ### References -/

/-- A reference with a dot has something before the first one and something behind it. -/
def NamesBoth (references : String) : Prop :=
  ∀ table column : String, '.' ∉ table.toList →
    references.toList = table.toList ++ '.' :: column.toList →
    Text.isBlankText table = false ∧ Text.isBlankText column = false

/-- **Both parts of a reference are written** if the whole is, and on both sides of its dot. -/
theorem written_splitReference_iff {references : String} :
    (Text.isBlankText (splitReference references).1 = false ∧
        Text.isBlankText (splitReference references).2 = false)
      ↔ Text.isBlankText references = false ∧ NamesBoth references := by
  unfold splitReference
  cases h : Text.splitOnce? '.' references with
  | none =>
    have hdot := Text.splitOnce?_eq_none_iff.mp h
    have hid : Text.isBlankText "id" = false := by decide
    refine and_congr_right fun _ => iff_of_true hid fun table column _ hsplit => ?_
    exact absurd (hsplit ▸ List.mem_append_right _ List.mem_cons_self) hdot
  | some halves =>
    obtain ⟨table, column⟩ := halves
    obtain ⟨hdot, hwhole⟩ := Text.splitOnce?_eq_some_iff.mp h
    rw [Option.getD_some]
    constructor
    · rintro ⟨htable, hcolumn⟩
      refine ⟨?_, fun table' column' hdot' hwhole' => ?_⟩
      · unfold Text.isBlankText at htable ⊢
        rw [hwhole, List.all_append, htable, Bool.false_and]
      · have hsame := Text.splitOnce?_eq_some_iff.mpr ⟨hdot', hwhole'⟩
        obtain ⟨rfl, rfl⟩ := Prod.mk.inj (Option.some.inj (h.symm.trans hsame))
        exact ⟨htable, hcolumn⟩
    · exact fun h => h.2 table column hdot hwhole

/-! ### The main result -/

/-- A foreign key that names a column, a table and a column there. -/
structure ForeignKey.IsReal (k : ForeignKey) : Prop where
  column : Text.isBlankText k.column = false
  target : Text.isBlankText k.target = false
  targetColumn : Text.isBlankText k.targetColumn = false

theorem isReal_keyOf_iff {table : String} {r : Relation} : (keyOf table r).IsReal
    ↔ Text.isBlankText (Name.snake r.field) = false ∧ Text.isBlankText r.references = false ∧
      NamesBoth r.references := by
  rw [← written_splitReference_iff]
  exact ⟨fun h => ⟨h.column, h.target, h.targetColumn⟩, fun h => ⟨h.1, h.2.1, h.2.2⟩⟩

/-- **Whether all foreign keys of a table are real.**  Something has to be left of each field when it
becomes a column, and a reference with a dot has to name both.  Decoding makes sure that references of
the database part are written; of the repository part that has to be said too. -/
theorem isReal_foreignKeys_iff {schema : String} {v : Json} {e : Extension}
    (h : Extension.decode schema v = .ok e) {s : Schema} (hs : s.extension = some e) :
    (Table.ofSchema s).Says (tableColumns s) (foreignKeys s) (tableIndices s) ∧
      ((∀ k ∈ foreignKeys s, k.IsReal) ↔
        (∀ r ∈ databaseRelations s,
          Text.isBlankText (Name.snake r.field) = false ∧ NamesBoth r.references) ∧
        ∀ r, Counts s r → Text.isBlankText (Name.snake r.field) = false ∧
          Text.isBlankText r.references = false ∧ NamesBoth r.references) := by
  -- blank references of the database part would not have been decoded
  have hwritten : ∀ r ∈ databaseRelations s, Text.isBlankText r.references = false := by
    intro r hr
    unfold databaseRelations at hr
    rw [hs, Option.bind_some] at hr
    cases hd : e.database with
    | none =>
      rw [hd] at hr
      cases hr
    | some d =>
      rw [hd] at hr
      exact (Extension.written_of_decode h hd hr).2
  refine ⟨says_ofSchema s, ?_⟩
  unfold foreignKeys
  simp only [List.forall_mem_map, mem_relations_iff, isReal_keyOf_iff]
  constructor
  · intro hreal
    refine ⟨fun r hr => ?_, fun r hr => hreal r (.inr hr)⟩
    obtain ⟨hcolumn, -, hboth⟩ := hreal r (.inl hr)
    exact ⟨hcolumn, hboth⟩
  · rintro ⟨hdatabase, hrepository⟩ r (hr | hr)
    · exact ⟨(hdatabase r hr).1, hwritten r hr, (hdatabase r hr).2⟩
    · exact hrepository r hr

/-! ### Posts -/

def usersRelation : Relation := ⟨"authorId", "users", none, none⟩

/-- What is said of posts: they belong to users, and the repository part has one relation more. -/
def postValue (field references : String) : Json :=
  .obj [("database", .obj [("relations",
      .arr [.obj [("field", .str "authorId"), ("references", .str "users")]])]),
    ("repository", .obj [("relations",
      .arr [.obj [("field", .str field), ("references", .str references)]])]),
    ("type", .str "entity")]

def postExtension (field references : String) : Extension where
  role := .entity
  repository := some ⟨Crud.all, [], [], [⟨field, references, none, none⟩]⟩
  database := some ⟨none, [usersRelation], [], []⟩

def postSchema (field references : String) : Schema :=
  { name := "Post", extension := some (postExtension field references) }

theorem counts_post {field references : String} (h : field ≠ "authorId") :
    Counts (postSchema field references) ⟨field, references, none, none⟩ := by
  refine ⟨fun k hk => ?_, List.find?_cons_of_pos (beq_self_eq_true field)⟩
  obtain rfl := List.mem_singleton.mp hk
  exact h.symm

theorem isReal_foreignKeys_post :
    Extension.decode "Post" (postValue "blog_id" "blogs.key")
        = .ok (postExtension "blog_id" "blogs.key") ∧
      ∀ k ∈ foreignKeys (postSchema "blog_id" "blogs.key"), k.IsReal := by
  have hdecode : Extension.decode "Post" (postValue "blog_id" "blogs.key")
      = .ok (postExtension "blog_id" "blogs.key") := toOption_eq_some.mp (by decide +kernel)
  have husers : NamesBoth "users" := (written_splitReference_iff.mp (by decide +kernel)).2
  have hblogs : NamesBoth "blogs.key" := (written_splitReference_iff.mp (by decide +kernel)).2
  refine ⟨hdecode, (isReal_foreignKeys_iff hdecode rfl).2.mpr ⟨?_, ?_⟩⟩
  · intro r hr
    obtain rfl := List.mem_singleton.mp hr
    exact ⟨by decide +kernel, husers⟩
  · intro r hr
    obtain rfl := List.mem_singleton.mp (List.mem_of_find?_eq_some hr.2)
    exact ⟨by decide +kernel, by decide +kernel, hblogs⟩

/-- A relation of the repository part may be blank. -/
theorem not_forall_isReal : ¬∀ (schema : String) (v : Json) (e : Extension),
    Extension.decode schema v = .ok e → ∀ s : Schema, s.extension = some e →
      ∀ k ∈ foreignKeys s, k.IsReal := by
  intro h
  have hdecode : Extension.decode "Post" (postValue "" "") = .ok (postExtension "" "") :=
    toOption_eq_some.mp (by decide +kernel)
  have hmem : ⟨"", "", none, none⟩ ∈ relations (postSchema "" "") :=
    mem_relations_iff.mpr (.inr (counts_post (by decide)))
  have hreal := h _ _ _ hdecode (postSchema "" "") rfl _ (List.mem_map_of_mem hmem)
  exact absurd hreal.column (by decide)

end Persistence
end ApiScaffold
