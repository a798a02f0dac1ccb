import ApiScaffold.Parameter
import ApiScaffold.Proofs.List.Arrival
import ApiScaffold.Proofs.Model.Valid

/-!
# Parameters of a path and of an operation

`Template` says which names a path has between braces, read from left to right: at a brace that
opens a name the whole name is taken, and any other character is passed over.

A later parameter takes the place of the earlier one with its name and location, so those that are
written out are the last of each, in the order in which names and locations came first
(`Arrival.Latest`).  Behind them stand the names of the path template that no path parameter has.
-/

namespace ApiScaffold.Parameter

/-! ### Names in a path template -/

open Arrival (Latest foldl_addNew)

/-- What tells parameters apart: name and location. -/
def identity (p : Parameter) : String × Location := (p.name, p.location)

theorem sameKey_iff {a b : Parameter} : a.sameKey b = true ↔ a.identity = b.identity := by
  simp [sameKey, identity]

/-- What is written in `raw`, read as a parameter. -/
def Reads (components : List (String × Json)) (depth : Nat) (raw : Json) (p : Parameter) : Prop :=
  ∃ name l, Declares raw name l ∧ ofRaw? components depth raw name l = some p

/-- **The parameters that are left** of those that are read, where `names` are those of the path. -/
structure Merged (read : List Parameter) (names : List String) (params : List Parameter) : Prop where
  distinct : (params.map identity).Nodup
  required : ∀ p ∈ params, p.location = .path → p.required = true
  parts : ∃ declared, Latest identity read declared ∧
    params = declared ++
      (names.filter fun n => decide ((n, Location.path) ∉ read.map identity)).eraseDups.map
        fun n => ⟨n, .path, true, none, some { name := n, type := some "string" }⟩

/-! ### One parameter after the other -/

theorem ofRaw?_eq {components : List (String × Json)} {depth : Nat} {raw : Json} {name : String}
    {l : Location} {p : Parameter} (h : ofRaw? components depth raw name l = some p) :
    p.identity = (name, l) ∧ (l = .path → p.required = true) := by
  have hparts : ∃ schema, (⟨name, l, l == .path || ((raw.get? "required").bind Json.bool?).getD false,
      raw.getStr? "description", schema⟩ : Parameter) = p := by
    unfold ofRaw? at h
    cases hschema : raw.get? "schema" with
    | none =>
      rw [hschema] at h
      cases h
      exact ⟨none, rfl⟩
    | some body =>
      rw [hschema] at h
      obtain ⟨schema, -, h⟩ := Option.bind_eq_some_iff.1 h
      cases h
      exact ⟨schema, rfl⟩
  obtain ⟨schema, rfl⟩ := hparts
  refine ⟨rfl, ?_⟩
  rintro rfl
  rfl

theorem Reads.required {components : List (String × Json)} {depth : Nat} {raw : Json}
    {p : Parameter} (h : Reads components depth raw p) (hpath : p.location = .path) :
    p.required = true := by
  obtain ⟨name, l, -, h⟩ := h
  obtain ⟨hidentity, hrequired⟩ := ofRaw?_eq h
  have hl : p.location = l := congrArg Prod.snd hidentity
  exact hrequired (hl ▸ hpath)

theorem put_cases (p : Parameter) (known : List Parameter) :
    (∃ front old back, known = front ++ old :: back ∧ old.identity = p.identity
      ∧ put p known = front ++ p :: back) ∨
    p.identity ∉ known.map identity ∧ put p known = known ++ [p] := by
  induction known with
  | nil => exact .inr ⟨by simp, rfl⟩
  | cons q rest ih =>
    unfold put
    by_cases hq : q.sameKey p = true
    · rw [if_pos hq]
      exact .inl ⟨[], q, rest, rfl, sameKey_iff.1 hq, rfl⟩
    · rw [if_neg hq]
      rcases ih with ⟨front, old, back, rfl, hold, hput⟩ | ⟨hnew, hput⟩
      · exact .inl ⟨q :: front, old, back, rfl, hold, by rw [hput, List.cons_append]⟩
      · refine .inr ⟨?_, by rw [hput, List.cons_append]⟩
        rw [List.map_cons, List.mem_cons, not_or]
        exact ⟨fun heq => hq (sameKey_iff.2 heq.symm), hnew⟩

theorem latest_put {read known : List Parameter} (h : Latest identity read known) (p : Parameter) :
    Latest identity (read ++ [p]) (put p known) := by
  rcases put_cases p known with ⟨front, old, back, rfl, hold, hput⟩ | ⟨hnew, hput⟩
  · rw [hput]
    exact h.replace hold
  · rw [hput]
    exact h.append hnew

theorem latest_foldl_put {read known : List Parameter} (h : Latest identity read known)
    (more : List Parameter) :
    Latest identity (read ++ more) (more.foldl (fun known p => put p known) known) := by
  induction more generalizing read known with
  | nil => simpa using h
  | cons p more ih =>
    rw [List.foldl_cons, List.append_cons]
    exact ih (latest_put h p)

/-! ### Parameters that are written out -/

variable {components : List (String × Json)} {depth : Nat}

theorem foldlM_declareOne_problems {raws : List Json} {known found : List Problem × List Parameter}
    (h : raws.foldlM (declareOne components depth) known = some found) (hknown : known.1 ≠ []) :
    found.1 ≠ [] := by
  rw [problems_foldlM h]
  exact fun hnil => hknown (List.append_eq_nil_iff.mp hnil).1

/-- Without a problem, all that is written out is read and put one after the other. -/
theorem foldlM_declareOne_iff {raws : List Json} {known params : List Parameter} :
    raws.foldlM (declareOne components depth) ([], known) = some ([], params) ↔
      ∃ read, List.Forall₂ (Reads components depth) raws read ∧
        params = read.foldl (fun known p => put p known) known := by
  induction raws generalizing known with
  | nil =>
    constructor
    · intro h
      cases h
      exact ⟨[], .nil, rfl⟩
    · rintro ⟨read, hread, rfl⟩
      cases hread
      rfl
  | cons raw rest ih =>
    rw [List.foldlM_cons]
    constructor
    · intro h
      obtain ⟨next, hstep, hrest⟩ := Option.bind_eq_some_iff.1 h
      unfold declareOne at hstep
      split at hstep
      · cases hstep
        -- a problem would still be known in the end
        exact absurd rfl (foldlM_declareOne_problems hrest (by simp))
      · rename_i name l hkey
        obtain ⟨p, hp, rfl⟩ := Option.map_eq_some_iff.1 hstep
        obtain ⟨read, hread, rfl⟩ := ih.1 hrest
        exact ⟨p :: read, .cons ⟨name, l, key_eq_ok_iff.1 hkey, hp⟩ hread, rfl⟩
    · rintro ⟨read, hread, rfl⟩
      cases hread with
      | @cons _ p _ read hp hread =>
        obtain ⟨name, l, hdeclares, hp⟩ := hp
        have hstep : declareOne components depth ([], known) raw = some ([], put p known) := by
          unfold declareOne
          rw [key_eq_ok_iff.2 hdeclares]
          dsimp only
          rw [hp]
          rfl
        rw [hstep]
        exact ih.2 ⟨read, hread, rfl⟩

/-! ### Names of the path -/

/-- A name is added unless a path parameter has it. -/
theorem foldl_addTemplate (names : List String) (declared : List Parameter) :
    names.foldl addTemplate declared = declared ++
      (names.filter fun n => decide ((n, Location.path) ∉ declared.map identity)).eraseDups.map
        ofTemplate := by
  have hany : ∀ n : String, (!declared.any fun p => p.location == .path && p.name == n)
      = decide ((n, Location.path) ∉ declared.map identity) := by
    intro n
    rw [Bool.eq_iff_iff, decide_eq_true_iff, Bool.not_eq_true', ← Bool.not_eq_true, List.any_eq_true,
      List.mem_map]
    simp [identity, and_comm]
  have hsame : (fun n first : String => (ofTemplate first).location == .path
      && (ofTemplate first).name == n) = fun n first => n == first := by
    funext n first
    simp [ofTemplate, eq_comm]
  have hfold := foldl_addNew ofTemplate
    (fun p n => p.location == .path && p.name == n) declared names
  simp only [hany, hsame] at hfold
  exact hfold

/-- What is put together from the parameters that are read and the names of the path. -/
theorem merged_foldl {read : List Parameter} (names : List String)
    (hread : ∀ p ∈ read, p.location = .path → p.required = true) :
    Merged read names (names.foldl addTemplate (read.foldl (fun known p => put p known) [])) := by
  have hlatest : Latest identity read (read.foldl (fun known p => put p known) []) := by
    simpa using latest_foldl_put .nil read
  have hkeys : ∀ n, (n, Location.path) ∈ (read.foldl (fun known p => put p known) []).map identity ↔
      (n, Location.path) ∈ read.map identity := fun n => hlatest.mem_keys
  rw [foldl_addTemplate]
  simp only [hkeys]
  constructor
  · rw [List.map_append, List.map_map, List.nodup_append]
    refine ⟨hlatest.nodup, ?_, ?_⟩
    · exact List.Nodup.map (fun a b h => congrArg Prod.fst h) (Arrival.nodup_eraseDups _)
    · intro k hk k' hk' heq
      obtain ⟨n, hn, rfl⟩ := List.mem_map.1 hk'
      have hnew := (List.mem_filter.1 (List.mem_eraseDups.1 hn)).2
      rw [heq, hlatest.mem_keys] at hk
      exact of_decide_eq_true hnew hk
  · intro p hp hpath
    rcases List.mem_append.1 hp with hp | hp
    · exact hread p (hlatest.last p hp).mem hpath
    · obtain ⟨n, -, rfl⟩ := List.mem_map.1 hp
      rfl
  · exact ⟨_, hlatest, rfl⟩

theorem Merged.unique {read params params' : List Parameter} {names : List String}
    (h : Merged read names params) (h' : Merged read names params') : params = params' := by
  obtain ⟨declared, hlatest, rfl⟩ := h.parts
  obtain ⟨declared', hlatest', rfl⟩ := h'.parts
  rw [hlatest.unique hlatest']

/-- Without a problem, all that is written out is read, and the names of the path follow. -/
theorem merge?_eq_foldl_iff {doc item op : Json} {depth : Nat} {path : String}
    {params : List Parameter} :
    merge? doc depth path item op = some ([], params) ↔
      ∃ read, List.Forall₂ (Reads (Reference.components doc "schemas") depth) (written doc item op)
          read ∧
        params = ((templateNames path.toList).map String.ofList).foldl addTemplate
          (read.foldl (fun known p => put p known) []) := by
  unfold merge?
  constructor
  · intro h
    obtain ⟨⟨problems, declared⟩, hdeclared, h⟩ := Option.bind_eq_some_iff.1 h
    cases h
    rw [declared?_eq_foldlM, foldlM_declareOne_iff] at hdeclared
    obtain ⟨read, hread, rfl⟩ := hdeclared
    exact ⟨read, hread, rfl⟩
  · rintro ⟨read, hread, rfl⟩
    rw [declared?_eq_foldlM, foldlM_declareOne_iff.2 ⟨read, hread, rfl⟩]
    rfl

theorem merged_of_reads {components : List (String × Json)} {depth : Nat} {raws : List Json}
    {read : List Parameter} (names : List String)
    (hread : List.Forall₂ (Reads components depth) raws read) :
    Merged read names (names.foldl addTemplate (read.foldl (fun known p => put p known) [])) := by
  refine merged_foldl names fun p hp => ?_
  obtain ⟨raw, -, hraw⟩ := exists_left_of_forall₂ hread hp
  exact hraw.required

end ApiScaffold.Parameter
