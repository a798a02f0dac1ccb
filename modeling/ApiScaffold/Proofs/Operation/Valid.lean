import Mathlib.Data.List.TakeWhile
import ApiScaffold.Proofs.Model.Termination
import ApiScaffold.Proofs.Yaml.KeyText

/-!
# Valid operations

`Operation.Site.Valid` says what an operation needs: one tag, an id, a summary, and a name and a known
location for each of its parameters.  What is told of an operation that is built is its
`Operation.Site.told`, and that is nothing if and only if it is valid; it is then there, under the id,
path and method of its place (`Operation.build?_problems`).
-/

namespace ApiScaffold

/-! ### Texts that are not blank -/

theorem Text.trimChars_eq_nil_iff {s : List Char} : trimChars s = [] ↔ ∀ c ∈ s, isBlank c = true := by
  constructor
  · intro h c hc
    by_contra hb
    have hmem := Yaml.mem_trimChars hc (Bool.not_eq_true _ ▸ hb)
    rw [h] at hmem
    cases hmem
  · intro h
    unfold trimChars
    rw [List.dropWhile_eq_nil_iff.mpr h]
    rfl

theorem Text.trim_isEmpty (s : String) : (trim s).isEmpty = isBlankText s := by
  rw [Bool.eq_iff_iff, String.isEmpty_iff, trim, String.ofList_eq_empty_iff, trimChars_eq_nil_iff,
    isBlankText, List.all_eq_true]

namespace Json

/-- A text under a key that is not blank. -/
def Says (v : Json) (key s : String) : Prop := v.get? key = some (.str s) ∧ Text.isBlankText s = false

theorem getStr?_eq_some_iff {v : Json} {key s : String} :
    v.getStr? key = some s ↔ v.get? key = some (.str s) := by
  unfold getStr? str?
  cases v.get? key with
  | none => simp
  | some w => cases w <;> simp

theorem getText?_eq_some_iff {v : Json} {key t : String} :
    v.getText? key = some t ↔ ∃ s, v.Says key s ∧ Text.trim s = t := by
  unfold getText? Says
  simp only [Option.filter_eq_some_iff, Option.map_eq_some_iff, getStr?_eq_some_iff,
    Bool.not_eq_true', ← Text.trim_isEmpty]
  constructor
  · rintro ⟨⟨s, hs, rfl⟩, ht⟩
    exact ⟨s, ⟨hs, ht⟩, rfl⟩
  · rintro ⟨s, ⟨hs, ht⟩, rfl⟩
    exact ⟨⟨s, hs, rfl⟩, ht⟩

theorem getText?_isSome_iff {v : Json} {key : String} :
    (v.getText? key).isSome ↔ ∃ s, v.Says key s := by
  simp only [Option.isSome_iff_exists, getText?_eq_some_iff]
  exact ⟨fun ⟨_, s, hs, _⟩ => ⟨s, hs⟩, fun ⟨s, hs⟩ => ⟨_, s, hs, rfl⟩⟩

/-- The texts in a list, in their order; what else stands there is passed over. -/
inductive Texts : List Json → List String → Prop
  | nil : Texts [] []
  | text {s : String} {rest : List Json} {texts : List String} :
    Texts rest texts → Texts (.str s :: rest) (s :: texts)
  | other {v : Json} {rest : List Json} {texts : List String} :
    (∀ s, v ≠ .str s) → Texts rest texts → Texts (v :: rest) texts

theorem texts_iff {items : List Json} {texts : List String} :
    Texts items texts ↔ items.filterMap str? = texts := by
  constructor
  · intro h
    induction h with
    | nil => rfl
    | text _ ih => rw [List.filterMap_cons, str?, ih]
    | @other v rest texts hv _ ih =>
      rw [List.filterMap_cons]
      cases v with
      | str s => exact absurd rfl (hv s)
      | _ => exact ih
  · rintro rfl
    induction items with
    | nil => exact .nil
    | cons v rest ih =>
      cases v with
      | str s => exact .text ih
      | _ => exact .other nofun ih

end Json

/-! ### Parameters -/

namespace Parameter

theorem Location.ofName?_eq_some_iff {s : String} {l : Location} :
    ofName? s = some l ↔ s = l.name := by
  constructor
  · intro h
    unfold ofName? at h
    split at h
    all_goals cases h
    all_goals rfl
  · rintro rfl
    cases l <;> rfl

theorem Location.ofName?_isSome_iff {given : String} :
    (ofName? given).isSome ↔ given ∈ ["path", "query", "header", "cookie"] := by
  simp only [Option.isSome_iff_exists, ofName?_eq_some_iff]
  constructor
  · rintro ⟨l, rfl⟩
    cases l <;> decide
  · intro h
    simp only [List.mem_cons, List.not_mem_nil, or_false] at h
    rcases h with rfl | rfl | rfl | rfl
    · exact ⟨.path, rfl⟩
    · exact ⟨.query, rfl⟩
    · exact ⟨.header, rfl⟩
    · exact ⟨.cookie, rfl⟩

/-- A parameter with a name and a location. -/
def Declares (raw : Json) (name : String) (l : Location) : Prop :=
  raw.get? "name" = some (.str name) ∧ raw.get? "in" = some (.str l.name)

theorem key_eq_ok_iff {raw : Json} {name : String} {l : Location} :
    key raw = .ok (name, l) ↔ Declares raw name l := by
  unfold key Declares
  rw [← Json.getStr?_eq_some_iff, ← Json.getStr?_eq_some_iff]
  cases raw.getStr? "name" with
  | none => simp
  | some given =>
    cases raw.getStr? "in" with
    | none => simp [Location.ofName?]
    | some place =>
      simp only [Option.getD_some, Option.some.injEq, ← Location.ofName?_eq_some_iff (s := place)]
      cases Location.ofName? place with
      | none => simp
      | some l' => simp

theorem isOk_key_iff {raw : Json} : (key raw).isOk ↔ ∃ name l, Declares raw name l := by
  simp only [← key_eq_ok_iff]
  cases key raw with
  | error p => simp [Except.isOk, Except.toBool]
  | ok nl => exact ⟨fun _ => ⟨nl.1, nl.2, rfl⟩, fun _ => rfl⟩

/-- What is wrong with a parameter that is written out. -/
def fault? (raw : Json) : Option Problem :=
  match raw.getStr? "name" with
  | none => some .parameterWithoutName
  | some name =>
    let given := (raw.getStr? "in").getD ""
    if given ∈ ["path", "query", "header", "cookie"] then none
    else some (.unsupportedLocation name given)

theorem fault?_eq (raw : Json) : fault? raw = match key raw with
    | .error p => some p
    | .ok _ => none := by
  unfold fault? key
  cases raw.getStr? "name" with
  | none => rfl
  | some name =>
    dsimp only
    by_cases h : (raw.getStr? "in").getD "" ∈ ["path", "query", "header", "cookie"]
    · obtain ⟨l, hl⟩ := Option.isSome_iff_exists.mp (Location.ofName?_isSome_iff.mpr h)
      rw [if_pos h, hl]
    · have hnone := Option.not_isSome_iff_eq_none.mp fun hsome =>
        h (Location.ofName?_isSome_iff.mp hsome)
      rw [if_neg h, hnone]

theorem fault?_eq_none_iff {raw : Json} : fault? raw = none ↔ ∃ name l, Declares raw name l := by
  rw [fault?_eq, ← isOk_key_iff]
  cases key raw <;> simp [Except.isOk, Except.toBool]

section

variable {components : List (String × Json)} {depth : Nat}

/-- One parameter that is written out: a problem, or one more that is known. -/
def declareOne (components : List (String × Json)) (depth : Nat)
    (known : List Problem × List Parameter) (raw : Json) : Option (List Problem × List Parameter) :=
  match key raw with
  | .error p => some (known.1 ++ [p], known.2)
  | .ok (name, l) => (ofRaw? components depth raw name l).map fun p => (known.1, put p known.2)

theorem declared?_eq_foldlM (raws : List Json) :
    declared? components depth raws = raws.foldlM (declareOne components depth) ([], []) := rfl

theorem problems_foldlM {raws : List Json} {known found : List Problem × List Parameter}
    (h : raws.foldlM (declareOne components depth) known = some found) :
    found.1 = known.1 ++ raws.filterMap fault? := by
  induction raws generalizing known with
  | nil =>
    cases h
    exact (List.append_nil _).symm
  | cons raw rest ih =>
    rw [List.foldlM_cons] at h
    obtain ⟨next, hstep, hrest⟩ := Option.bind_eq_some_iff.1 h
    rw [ih hrest, List.filterMap_cons, fault?_eq]
    unfold declareOne at hstep
    cases hkey : key raw with
    | error p =>
      rw [hkey] at hstep
      cases hstep
      exact List.append_assoc _ _ _
    | ok nl =>
      rw [hkey] at hstep
      obtain ⟨p, -, rfl⟩ := Option.map_eq_some_iff.1 hstep
      rfl

end

def faults (doc : Json) (s : Operation.Site) : List Problem :=
  (written doc s.item s.op).filterMap fault?

theorem faults_eq_nil_iff {doc : Json} {s : Operation.Site} : faults doc s = [] ↔
    ∀ raw ∈ s.item.items "parameters" ++ s.op.items "parameters", ∃ name l,
      Declares (Reference.resolve doc "parameters" raw) name l := by
  unfold faults written
  simp only [List.filterMap_eq_nil_iff, fault?_eq_none_iff, List.forall_mem_map]

theorem problems_merge? {doc : Json} {depth : Nat} {s : Operation.Site} {found : List Problem}
    {params : List Parameter} (h : merge? doc depth s.path s.item s.op = some (found, params)) :
    found = faults doc s := by
  obtain ⟨known, hdeclared, h⟩ := Option.bind_eq_some_iff.1 h
  cases h
  rw [declared?_eq_foldlM] at hdeclared
  exact problems_foldlM hdeclared

end Parameter

/-! ### Operations -/

namespace Operation

/-- A place of the document with an operation: a value under a method of an item of `paths`. -/
structure Site.Occurs (doc : Json) (s : Site) : Prop where
  item : (s.path, s.item) ∈ doc.fields "paths"
  method : s.method ∈ methods
  op : s.item.get? s.method = some s.op

theorem mem_sites_iff {doc : Json} {s : Site} : s ∈ sites doc ↔ s.Occurs doc := by
  unfold sites
  constructor
  · intro h
    obtain ⟨⟨path, item⟩, hitem, h⟩ := List.mem_flatMap.1 h
    obtain ⟨method, hmethod, h⟩ := List.mem_filterMap.1 h
    obtain ⟨op, hop, rfl⟩ := Option.map_eq_some_iff.1 h
    exact ⟨hitem, hmethod, hop⟩
  · rintro ⟨hitem, hmethod, hop⟩
    refine List.mem_flatMap.2 ⟨_, hitem, List.mem_filterMap.2 ⟨_, hmethod, ?_⟩⟩
    rw [hop]
    rfl

/-- What an operation needs. -/
structure Site.Valid (doc : Json) (s : Site) : Prop where
  tag : ∃ t, Json.Texts (s.op.items "tags") [t]
  id : ∃ id, s.op.Says "operationId" id
  summary : ∃ summary, s.op.Says "summary" summary
  parameters : ∀ raw ∈ s.item.items "parameters" ++ s.op.items "parameters", ∃ name l,
    Parameter.Declares (Reference.resolve doc "parameters" raw) name l

theorem required_eq_nil_iff {c : Prop} [Decidable c] {p : Problem} :
    (if c then [] else [p]) = [] ↔ c := by
  by_cases h : c
  · rw [if_pos h]
    exact ⟨fun _ => h, fun _ => rfl⟩
  · rw [if_neg h]
    exact ⟨nofun, fun hc => absurd hc h⟩

/-- The tags of an operation are the texts among its entries. -/
theorem tags_eq_iff {op : Json} {texts : List String} :
    tags op = texts ↔ Json.Texts (op.items "tags") texts :=
  Json.texts_iff.symm

theorem problems_eq_nil_iff {op : Json} : problems op = [] ↔
    (∃ t, Json.Texts (op.items "tags") [t]) ∧ (∃ id, op.Says "operationId" id) ∧
      ∃ s, op.Says "summary" s := by
  simp only [← tags_eq_iff]
  unfold problems
  rw [← List.length_eq_one_iff, ← Json.getText?_isSome_iff, ← Json.getText?_isSome_iff,
    List.append_eq_nil_iff, List.append_eq_nil_iff, and_assoc, required_eq_nil_iff,
    required_eq_nil_iff, required_eq_nil_iff]

/-- What is told of an operation: its parameters are read only if it has an id. -/
def Site.told (doc : Json) (s : Site) : List Problem :=
  problems s.op ++ if (s.op.getText? "operationId").isSome then Parameter.faults doc s else []

/-- Nothing is told of an operation if and only if it is valid. -/
theorem Site.told_eq_nil_iff {doc : Json} {s : Site} : s.told doc = [] ↔ s.Valid doc := by
  unfold Site.told
  rw [List.append_eq_nil_iff, problems_eq_nil_iff]
  constructor
  · rintro ⟨⟨htag, hid, hsummary⟩, hparameters⟩
    rw [if_pos (Json.getText?_isSome_iff.mpr hid), Parameter.faults_eq_nil_iff] at hparameters
    exact ⟨htag, hid, hsummary, hparameters⟩
  · intro h
    rw [if_pos (Json.getText?_isSome_iff.mpr h.id), Parameter.faults_eq_nil_iff]
    exact ⟨⟨h.tag, h.id, h.summary⟩, h.parameters⟩

theorem found_of_build? {doc : Json} {depth : Nat} {s : Site} {found : List Problem}
    {op : Option Operation} (h : build? doc depth s = some (found, op)) : found = s.told doc := by
  unfold build? at h
  dsimp only at h
  unfold Site.told
  cases hid : s.op.getText? "operationId" with
  | none =>
    rw [hid] at h
    cases h
    exact (List.append_nil _).symm
  | some id =>
    rw [hid] at h
    obtain ⟨⟨others, params⟩, hparams, h⟩ := Option.bind_eq_some_iff.1 h
    obtain ⟨body, -, h⟩ := Option.bind_eq_some_iff.1 h
    obtain ⟨responses, -, h⟩ := Option.bind_eq_some_iff.1 h
    cases h
    rw [Parameter.problems_merge? hparams]
    rfl

/-- An operation has what its place in the document says. -/
structure Reads (o : Operation) (s : Site) : Prop where
  id : s.op.getText? "operationId" = some o.id
  path : o.path = s.path
  method : o.method = Text.toUpperAscii s.method
  tag : ∃ texts, Json.Texts (s.op.items "tags") texts ∧ o.tag = texts.headD ""

/-- **An operation that is built has no problem** if and only if it is valid; then it is there. -/
theorem build?_problems {doc : Json} {depth : Nat} {s : Site} {found : List Problem}
    {op : Option Operation} (h : build? doc depth s = some (found, op)) :
    (found = [] ↔ s.Valid doc) ∧ (∀ o, op = some o → o.Reads s) ∧ (found = [] → op.isSome) := by
  have hvalid : found = [] ↔ s.Valid doc := by rw [found_of_build? h, Site.told_eq_nil_iff]
  refine ⟨hvalid, ?_⟩
  unfold build? at h
  dsimp only at h
  cases hid : s.op.getText? "operationId" with
  | none =>
    rw [hid] at h
    cases h
    refine ⟨nofun, fun hnil => ?_⟩
    have := Json.getText?_isSome_iff.2 (hvalid.mp hnil).id
    rw [hid] at this
    cases this
  | some id =>
    rw [hid] at h
    obtain ⟨⟨others, params⟩, -, h⟩ := Option.bind_eq_some_iff.1 h
    obtain ⟨body, -, h⟩ := Option.bind_eq_some_iff.1 h
    obtain ⟨responses, -, h⟩ := Option.bind_eq_some_iff.1 h
    cases h
    refine ⟨?_, fun _ => rfl⟩
    rintro o ⟨⟩
    exact ⟨hid, rfl, rfl, _, tags_eq_iff.mp rfl, rfl⟩

end Operation
end ApiScaffold
