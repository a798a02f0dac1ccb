import ApiScaffold.Proofs.Model.Valid
import ApiScaffold.Proofs.Persistence.Keys

/-!
# Names of foreign keys and indices

A foreign key is named for its column, an index without a name of its own for all its columns.
`namesApart_iff` says of which schemas no two get one name; an index whose name is taken is not
created.
-/

namespace ApiScaffold.Persistence

open Arrival (Newcomers)

/-- **No name is taken twice**, neither of a foreign key nor of an index that was not named. -/
structure NamesApart (s : Schema) : Prop where
  keys : ((foreignKeys s).map ForeignKey.name).Nodup
  indices : (((tableIndices s).filter NamedIndex.derived).map NamedIndex.name).Nodup

/-- The columns of an index as they stand in its name. -/
def joinedColumns (i : Index) : String := "_".intercalate (i.fields.map Name.snake)

/-- **Columns that give different names.**  Relations of the database part have different columns; one
of the repository part shares its column only with relations that spell the field alike.  Indices
without a name have different columns, also when these are joined, and a field of the repository part
has the joined columns of one only if there is an index on its column alone. -/
structure ColumnsApart (s : Schema) : Prop where
  database : (databaseRelations s).Pairwise fun a b => Name.snake a.field ≠ Name.snake b.field
  repository : ∀ r ∈ repositoryRelations s, ∀ r' ∈ databaseRelations s ++ repositoryRelations s,
    Name.snake r.field = Name.snake r'.field → r.field = r'.field
  indices : ((databaseIndices s).filter (·.name.isNone)).Pairwise fun a b =>
    joinedColumns a ≠ joinedColumns b
  fields : ∀ i ∈ (databaseIndices s).filter (·.name.isNone), ∀ f ∈ repositoryIndices s,
    joinedColumns i = Name.snake f →
      [Name.snake f] ∈ (databaseIndices s).map fun i => i.fields.map Name.snake

/-! ### Foreign keys -/

theorem name_keyOf_inj {table : String} {r r' : Relation} :
    (keyOf table r).name = (keyOf table r').name ↔ Name.snake r.field = Name.snake r'.field :=
  String.append_right_inj _

theorem nodup_keys_iff (s : Schema) : ((foreignKeys s).map ForeignKey.name).Nodup ↔
    (databaseRelations s).Pairwise (fun a b => Name.snake a.field ≠ Name.snake b.field) ∧
      ∀ r ∈ repositoryRelations s, ∀ r' ∈ databaseRelations s ++ repositoryRelations s,
        Name.snake r.field = Name.snake r'.field → r.field = r'.field := by
  obtain ⟨added, h, hrelations⟩ := exists_relations s
  rw [← h.pairwise_iff Name.snake, ← hrelations]
  unfold foreignKeys List.Nodup
  rw [List.map_map, List.pairwise_map]
  simp only [Function.comp_apply, ne_eq, name_keyOf_inj]

/-! ### Indices -/

theorem newcomers_uncovered (covered : List (List String)) (fields : List String) :
    Newcomers id [] ((fields.map Name.snake).filter fun c => !covered.contains [c])
      (uncovered covered fields) := by
  obtain ⟨added, h, hfold⟩ := Arrival.exists_newcomers id []
    ((fields.map Name.snake).filter fun c => !covered.contains [c])
  have heq : uncovered covered fields = added := by
    rw [List.foldl_filter, List.nil_append] at hfold
    rw [← hfold]
    unfold uncovered
    refine congrArg (List.foldl · [] _) (funext₂ fun known c => ?_)
    cases covered.contains [c] <;> simp
  rwa [heq]

theorem mem_uncovered_iff {covered : List (List String)} {fields : List String} {c : String} :
    c ∈ uncovered covered fields ↔ [c] ∉ covered ∧ ∃ f ∈ fields, Name.snake f = c := by
  rw [(newcomers_uncovered covered fields).mem_iff, and_iff_right List.not_mem_nil, List.mem_filter,
    Bool.not_eq_true', Bool.eq_false_iff, ne_eq, List.contains_iff_mem, List.mem_map, and_comm]

theorem nodup_uncovered (covered : List (List String)) (fields : List String) :
    (uncovered covered fields).Nodup :=
  (newcomers_uncovered covered fields).distinct

/-- What the name of an index begins with. -/
def indexStart (table : String) : String := "idx_" ++ table ++ "_"

theorem name_givenIndex {table : String} {i : Index} (hi : i.name.isNone = true) :
    (givenIndex table i).name = indexStart table ++ joinedColumns i := by
  unfold givenIndex
  rw [Option.isNone_iff_eq_none.mp hi]
  rfl

/-- The names of the indices that were not named. -/
theorem names_derived (s : Schema) :
    ((tableIndices s).filter NamedIndex.derived).map NamedIndex.name
      = (((databaseIndices s).filter (·.name.isNone)).map joinedColumns
          ++ uncovered ((databaseIndices s).map fun i => i.fields.map Name.snake)
              (repositoryIndices s)).map (indexStart (tableName s) ++ ·) := by
  unfold tableIndices
  rw [List.filter_append, List.map_append, List.map_append, List.filter_map, List.filter_map,
    List.map_map, List.map_map, List.map_map]
  refine congrArg₂ (· ++ ·) (List.map_congr_left fun i hi => ?_) ?_
  · exact name_givenIndex (List.mem_filter.mp hi).2
  · have hall : ∀ columns : List String,
        columns.filter (NamedIndex.derived ∘ columnIndex (tableName s)) = columns :=
      fun _ => List.filter_eq_self.mpr fun _ _ => rfl
    rw [hall]
    rfl

theorem nodup_indices_iff (s : Schema) :
    (((tableIndices s).filter NamedIndex.derived).map NamedIndex.name).Nodup ↔
      ((databaseIndices s).filter (·.name.isNone)).Pairwise
        (fun a b => joinedColumns a ≠ joinedColumns b) ∧
      ∀ i ∈ (databaseIndices s).filter (·.name.isNone), ∀ f ∈ repositoryIndices s,
        joinedColumns i = Name.snake f →
          [Name.snake f] ∈ (databaseIndices s).map fun i => i.fields.map Name.snake := by
  have hinj : Function.Injective (indexStart (tableName s) ++ ·) := fun _ _ =>
    (String.append_right_inj _).mp
  rw [names_derived, List.nodup_map_iff hinj, List.nodup_append,
    and_iff_right (nodup_uncovered _ _), List.Nodup, List.pairwise_map]
  refine and_congr_right fun _ => ?_
  simp only [List.forall_mem_map, mem_uncovered_iff]
  refine forall₂_congr fun i _ => ?_
  constructor
  · intro h f hf heq
    by_contra hcovered
    exact h _ ⟨hcovered, f, hf, rfl⟩ heq
  · rintro h c ⟨hcovered, f, hf, rfl⟩ heq
    exact hcovered (h f hf heq)

/-! ### The main result -/

/-- **Of which schemas no name is taken twice.** -/
theorem namesApart_iff (s : Schema) :
    (Table.ofSchema s).Says (tableColumns s) (foreignKeys s) (tableIndices s) ∧
      (NamesApart s ↔ ColumnsApart s) := by
  refine ⟨says_ofSchema s, fun h => ?_, fun h => ?_⟩
  · obtain ⟨hdatabase, hrepository⟩ := (nodup_keys_iff s).mp h.keys
    obtain ⟨hindices, hfields⟩ := (nodup_indices_iff s).mp h.indices
    exact ⟨hdatabase, hrepository, hindices, hfields⟩
  · exact ⟨(nodup_keys_iff s).mpr ⟨h.database, h.repository⟩,
      (nodup_indices_iff s).mpr ⟨h.indices, h.fields⟩⟩

/-! ### Posts -/

/-- Both parts say that posts belong to users, but they spell the field differently. -/
def postDocument : Json :=
  .obj [("components", .obj [("schemas", .obj [("Post", .obj [
    ("properties", .obj [("authorId", .obj [("type", .str "string")]),
      ("id", .obj [("type", .str "string")])]),
    ("type", .str "object"), ("x-codegen", postValue "author_id" "users")])])])]

/-- Two spellings of a field are two relations, but one column. -/
theorem not_forall_namesApart : ¬∀ (doc : Json) (context : String) (m : Model),
    Model.build doc context = .ok m → ∀ s ∈ m.schemas, NamesApart s := by
  intro h
  have hbuilt : (Model.buildWithin 6 postDocument "").toOption.map
      (fun m => m.schemas.map (·.extension)) = some [some (postExtension "author_id" "users")] := by
    decide +kernel
  obtain ⟨m, hm, hschemas⟩ := Model.exists_build_of_map hbuilt
  obtain ⟨s, hs, hextension⟩ := List.map_eq_singleton_iff.mp hschemas
  have hapart := h _ _ m hm s (hs ▸ List.mem_singleton_self s)
  have hdatabase : databaseRelations s = [usersRelation] := by
    rw [databaseRelations, hextension]
    rfl
  have hrepository : repositoryRelations s = [⟨"author_id", "users", none, none⟩] := by
    rw [repositoryRelations, hextension]
    rfl
  have hsame := ((nodup_keys_iff s).mp hapart.keys).2
  rw [hdatabase, hrepository] at hsame
  have hfield := hsame _ (List.mem_singleton_self _) usersRelation List.mem_cons_self
    (by decide +kernel)
  exact absurd hfield (by decide)

end ApiScaffold.Persistence
