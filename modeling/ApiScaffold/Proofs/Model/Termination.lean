import ApiScaffold.Proofs.Schema.Depth

/-!
# When a model is built

`Model.bodies` lists the bodies that the building of a model begins with.  A model, or a list of
issues, is the answer at some depth if and only if none of these bodies leads to one that comes back
to itself (`Model.terminates_iff`); cycles through `allOf` alone do no harm.  `Model.depthBound` is
then deep enough.
-/

namespace ApiScaffold

open Schema (Builds)

namespace Parameter

/-- The body of a parameter that has no problem. -/
def body? (raw : Json) : Option Json :=
  match key raw with
  | .ok _ => raw.get? "schema"
  | .error _ => none

theorem body?_mem_parts {raw b : Json} (h : body? raw = some b) : b ∈ raw.parts := by
  unfold body? at h
  split at h
  · exact Json.get?_mem_parts h
  · cases h

section

variable {components : List (String × Json)} {depth depth' : Nat}

theorem ofRaw?_isSome_iff {raw : Json} {name : String} {location : Location} :
    (ofRaw? components depth raw name location).isSome ↔
      ∀ b, raw.get? "schema" = some b → Builds components depth b := by
  unfold ofRaw?
  cases raw.get? "schema" with
  | none => simp
  | some s =>
    simp only [Option.some.injEq, forall_eq', Schema.builds_iff name]
    cases Schema.build? components depth name s <;> simp

theorem declared?_isSome_iff {raws : List Json} :
    (declared? components depth raws).isSome ↔
      ∀ raw ∈ raws, ∀ b, body? raw = some b → Builds components depth b := by
  refine isSome_foldlM_iff (fun raw => ∀ b, body? raw = some b → Builds components depth b)
    (fun s raw _ => ?_) _
  obtain ⟨problems, params⟩ := s
  unfold body?
  cases hk : key raw with
  | error p => simp
  | ok nl =>
    obtain ⟨name, location⟩ := nl
    simp only [Option.isSome_map, ofRaw?_isSome_iff]

theorem ofRaw?_grows (h : depth ≤ depth') (raw : Json) (name : String) (location : Location) :
    Grows (ofRaw? components depth raw name location) (ofRaw? components depth' raw name location) := by
  unfold ofRaw?
  cases raw.get? "schema" with
  | none => exact .refl _
  | some s => exact .bind (.map _ (Schema.build?_grows h _ _)) fun _ => .refl _

theorem merge?_isSome_iff {doc : Json} (path : String) {item op : Json} :
    (merge? doc depth path item op).isSome ↔
      ∀ b ∈ (written doc item op).filterMap body?,
        Builds (Reference.components doc "schemas") depth b := by
  rw [List.forall_mem_filterMap, ← declared?_isSome_iff]
  exact isSome_bind_of_isSome fun _ => rfl

theorem merge?_grows (h : depth ≤ depth') (doc : Json) (path : String) (item op : Json) :
    Grows (merge? doc depth path item op) (merge? doc depth' path item op) := by
  refine .bind (.foldlM _ (fun s raw _ => ?_) _) fun _ => .refl _
  obtain ⟨problems, params⟩ := s
  dsimp only
  split
  · exact .refl _
  · exact .map _ (ofRaw?_grows h _ _ _)

end

end Parameter

namespace Operation

/-- The body in the content of a request or a response. -/
def contentBody? (v : Json) : Option Json := (pickContent? v).bind (·.2.get? "schema")

/-- The bodies that an operation is built from; without an id it is not built. -/
def bodies (doc : Json) (site : Site) : List Json :=
  match site.op.getText? "operationId" with
  | none => []
  | some _ =>
    (Parameter.written doc site.item site.op).filterMap Parameter.body?
      ++ ((site.op.get? "requestBody").bind
          fun raw => contentBody? (Reference.resolve doc "requestBodies" raw)).toList
      ++ (site.op.fields "responses").filterMap
          fun r => contentBody? (Reference.resolve doc "responses" r.2)

theorem contentBody?_mem_parts {v b : Json} (h : contentBody? v = some b) : b ∈ v.parts := by
  unfold contentBody? at h
  obtain ⟨⟨name, media⟩, hp, hb⟩ := Option.bind_eq_some_iff.1 h
  have hm : ∃ key, (key, media) ∈ v.fields "content" := by
    unfold pickContent? at hp
    split at hp
    · cases hp
    · rename_i first rest hc
      rw [hc]
      split at hp
      · rename_i m hl
        obtain ⟨-, rfl⟩ := Prod.mk.inj (Option.some.inj hp)
        exact ⟨_, Keyed.mem_of_lookup hl⟩
      · obtain rfl := Option.some.inj hp
        exact ⟨_, List.mem_cons_self⟩
  obtain ⟨key, hm⟩ := hm
  exact Json.parts_trans (Json.fields_mem_parts hm) (Json.get?_mem_parts hb)

section

variable {doc : Json} {depth depth' : Nat}

theorem mediaSchema?_isSome_iff {components : List (String × Json)} (name : String) {v : Json} :
    (mediaSchema? components depth name ((pickContent? v).map Prod.snd)).isSome ↔
      ∀ b, contentBody? v = some b → Builds components depth b := by
  have h : ((pickContent? v).map Prod.snd).bind (·.get? "schema") = contentBody? v := by
    unfold contentBody?
    cases pickContent? v <;> rfl
  unfold mediaSchema?
  rw [h]
  cases contentBody? v with
  | none => simp
  | some b => simp [Schema.builds_iff name]

theorem requestBody?_isSome_iff (id : String) {op : Json} :
    (requestBody? doc depth id op).isSome ↔
      ∀ b ∈ ((op.get? "requestBody").bind
          fun raw => contentBody? (Reference.resolve doc "requestBodies" raw)).toList,
        Builds (Reference.components doc "schemas") depth b := by
  unfold requestBody?
  cases op.get? "requestBody" with
  | none => simp
  | some raw =>
    simp only [Option.bind_some, Option.mem_toList]
    rw [← mediaSchema?_isSome_iff (Name.pascal id ++ "Request")]
    exact isSome_bind_of_isSome fun _ => rfl

theorem response?_isSome_iff {id status : String} {raw : Json} :
    (response? doc depth id status raw).isSome ↔
      ∀ b, contentBody? (Reference.resolve doc "responses" raw) = some b →
        Builds (Reference.components doc "schemas") depth b := by
  rw [← mediaSchema?_isSome_iff (Name.pascal id ++ Name.pascal status ++ "Response")]
  exact isSome_bind_of_isSome fun _ => rfl

/-- **An operation is built** if and only if its bodies are. -/
theorem build?_isSome_iff {site : Site} :
    (build? doc depth site).isSome ↔
      ∀ b ∈ bodies doc site, Builds (Reference.components doc "schemas") depth b := by
  unfold build? bodies
  dsimp only
  cases hid : site.op.getText? "operationId" with
  | none => simp
  | some id =>
    have hresponses : ((site.op.fields "responses").mapM fun r => response? doc depth id r.1 r.2).isSome ↔
        ∀ b ∈ (site.op.fields "responses").filterMap
          fun r => contentBody? (Reference.resolve doc "responses" r.2),
            Builds (Reference.components doc "schemas") depth b := by
      simp only [isSome_mapM_iff, response?_isSome_iff, List.forall_mem_filterMap]
    rw [List.forall_mem_append, List.forall_mem_append, ← Parameter.merge?_isSome_iff
      site.path, ← requestBody?_isSome_iff id, ← hresponses, and_assoc]
    refine isSome_bind_iff fun found => isSome_bind_iff fun body => ?_
    exact isSome_bind_of_isSome fun _ => rfl

theorem bodies_mem_parts {site : Site} (hitem : site.item ∈ doc.parts) (hop : site.op ∈ doc.parts)
    {b : Json} (hb : b ∈ bodies doc site) : b ∈ doc.parts := by
  unfold bodies at hb
  split at hb
  · cases hb
  · rw [List.append_assoc, List.mem_append, List.mem_append] at hb
    rcases hb with hb | hb | hb
    · obtain ⟨raw, hraw, hb⟩ := List.mem_filterMap.1 hb
      obtain ⟨given, hgiven, rfl⟩ := List.mem_map.1 hraw
      have hg : given ∈ doc.parts := by
        rcases List.mem_append.1 hgiven with h | h
        · exact Json.parts_trans hitem (Json.items_mem_parts h)
        · exact Json.parts_trans hop (Json.items_mem_parts h)
      exact Json.parts_trans (Reference.resolve_mem_parts hg) (Parameter.body?_mem_parts hb)
    · obtain ⟨raw, hraw, hb⟩ := Option.bind_eq_some_iff.1 (Option.mem_toList.1 hb)
      have hr := Json.parts_trans hop (Json.get?_mem_parts hraw)
      exact Json.parts_trans (Reference.resolve_mem_parts hr) (contentBody?_mem_parts hb)
    · obtain ⟨r, hr, hb⟩ := List.mem_filterMap.1 hb
      have hr := Json.parts_trans hop (Json.fields_mem_parts hr)
      exact Json.parts_trans (Reference.resolve_mem_parts hr) (contentBody?_mem_parts hb)

theorem build?_grows (h : depth ≤ depth') (site : Site) :
    Grows (build? doc depth site) (build? doc depth' site) := by
  have hmedia : ∀ name media, Grows (mediaSchema? (Reference.components doc "schemas") depth name media)
      (mediaSchema? (Reference.components doc "schemas") depth' name media) := by
    intro name media
    unfold mediaSchema?
    split
    · exact .map _ (Schema.build?_grows h _ _)
    · exact .refl _
  unfold build?
  dsimp only
  split
  · exact .refl _
  · rename_i id _
    refine .bind (Parameter.merge?_grows h _ _ _ _) fun found => ?_
    refine .bind ?_ fun body => .bind (.mapM _ fun r _ => ?_) fun _ => .refl _
    · unfold requestBody?
      split
      · exact .refl _
      · exact .bind (hmedia _ _) fun _ => .refl _
    · exact .bind (hmedia _ _) fun _ => .refl _

end

end Operation

namespace Schema

theorem buildNamed?_isSome_iff {components : List (String × Json)} {depth : Nat} (name : String)
    {raw : Json} :
    (buildNamed? components depth name raw).isSome ↔ Builds components depth raw := by
  rw [builds_iff name]
  refine isSome_bind_of_isSome fun s => ?_
  dsimp only
  split <;> rfl

theorem buildNamed?_grows {components : List (String × Json)} {depth depth' : Nat}
    (h : depth ≤ depth') (name : String) (raw : Json) :
    Grows (buildNamed? components depth name raw) (buildNamed? components depth' name raw) :=
  .bind (build?_grows h name raw) fun _ => .refl _

end Schema

namespace Model

/-- The bodies that a model is built from: those of the component schemas and of the operations. -/
def bodies (doc : Json) : List Json :=
  (Reference.components doc "schemas").map Prod.snd
    ++ (Operation.sites doc).flatMap (Operation.bodies doc)

section

variable {doc : Json} {depth depth' : Nat}

theorem bodies_mem_parts {b : Json} (hb : b ∈ bodies doc) : b ∈ doc.parts := by
  rcases List.mem_append.1 hb with hb | hb
  · obtain ⟨p, hp, rfl⟩ := List.mem_map.1 hb
    exact Reference.components_mem_parts hp
  · obtain ⟨site, hsite, hb⟩ := List.mem_flatMap.1 hb
    obtain ⟨⟨path, item⟩, hitem, hsite⟩ := List.mem_flatMap.1 hsite
    obtain ⟨method, -, hmethod⟩ := List.mem_filterMap.1 hsite
    obtain ⟨op, hop, rfl⟩ := Option.map_eq_some_iff.1 hmethod
    have hi := Json.fields_mem_parts hitem
    exact Operation.bodies_mem_parts hi (Json.parts_trans hi (Json.get?_mem_parts hop)) hb

theorem register?_isSome_iff : (register? doc depth).isSome ↔
    ∀ site ∈ Operation.sites doc, (Operation.build? doc depth site).isSome := by
  refine isSome_foldlM_iff (fun site => (Operation.build? doc depth site).isSome)
    (fun r site _ => ?_) _
  rw [Option.isSome_map]

theorem register?_grows (h : depth ≤ depth') : Grows (register? doc depth) (register? doc depth') :=
  .foldlM _ (fun _ site _ => .map _ (Operation.build?_grows h site)) _

def namedSchemas? (doc : Json) (depth : Nat) : Option (List (List Issue × Schema)) :=
  (Reference.components doc "schemas").mapM fun p =>
    Schema.buildNamed? (Reference.components doc "schemas") depth p.1 p.2

theorem namedSchemas?_isSome_iff : (namedSchemas? doc depth).isSome ↔
    ∀ p ∈ Reference.components doc "schemas",
      Builds (Reference.components doc "schemas") depth p.2 := by
  unfold namedSchemas?
  simp only [isSome_mapM_iff, Schema.buildNamed?_isSome_iff]

theorem namedSchemas?_grows (h : depth ≤ depth') :
    Grows (namedSchemas? doc depth) (namedSchemas? doc depth') :=
  .mapM _ fun _ _ => Schema.buildNamed?_grows h _ _

/-- What is missing for an answer is some schema or some operation. -/
theorem buildWithin_eq_tooDeep_iff {context : String} (hobj : doc.isObj = true) :
    buildWithin depth doc context = .error .tooDeep ↔
      ¬ ((namedSchemas? doc depth).isSome ∧ (register? doc depth).isSome) := by
  unfold buildWithin namedSchemas?
  rw [hobj, if_neg (by simp)]
  dsimp only
  cases (Reference.components doc "schemas").mapM fun p =>
      Schema.buildNamed? (Reference.components doc "schemas") depth p.1 p.2 with
  | none => simp
  | some schemas =>
    cases register? doc depth with
    | none => simp
    | some registered =>
      dsimp only
      split <;> simp

theorem buildWithin_answers_iff {context : String} :
    buildWithin depth doc context ≠ .error .tooDeep ↔
      (doc.isObj = true → ∀ b ∈ bodies doc, Builds (Reference.components doc "schemas") depth b) := by
  by_cases hobj : doc.isObj = true
  · rw [Ne, buildWithin_eq_tooDeep_iff hobj, not_not, namedSchemas?_isSome_iff, register?_isSome_iff]
    simp only [hobj, true_imp_iff, bodies, List.forall_mem_append, List.forall_mem_map,
      List.forall_mem_flatMap, Operation.build?_isSome_iff]
  · refine ⟨fun _ h => absurd h hobj, fun _ => ?_⟩
    unfold buildWithin
    rw [if_pos (by simpa using hobj)]
    simp

theorem buildWithin_of_le {context : String} (h : buildWithin depth doc context ≠ .error .tooDeep)
    (hd : depth ≤ depth') : buildWithin depth' doc context = buildWithin depth doc context := by
  by_cases hobj : doc.isObj = true
  · rw [Ne, buildWithin_eq_tooDeep_iff hobj, not_not] at h
    obtain ⟨schemas, hs⟩ := Option.isSome_iff_exists.1 h.1
    obtain ⟨registered, hr⟩ := Option.isSome_iff_exists.1 h.2
    have hs' := namedSchemas?_grows hd _ hs
    have hr' := register?_grows hd _ hr
    unfold namedSchemas? at hs hs'
    unfold buildWithin
    simp only [hs, hs', hr, hr']
  · unfold buildWithin
    rw [if_pos (by simpa using hobj), if_pos (by simpa using hobj)]

theorem level_le_depthBound :
    doc.count * Schema.levelBound (Reference.components doc "schemas") doc ≤ depthBound doc := by
  have hl := Nat.mul_le_mul_right doc.count (Reference.length_components_le doc "schemas")
  have hlevel : Schema.levelBound (Reference.components doc "schemas") doc
      ≤ (doc.count + 1) * (doc.count + 1) := by
    unfold Schema.levelBound
    rw [Nat.add_mul, Nat.mul_add, Nat.one_mul, Nat.mul_one]
    omega
  calc doc.count * Schema.levelBound (Reference.components doc "schemas") doc
      ≤ (doc.count + 1) * ((doc.count + 1) * (doc.count + 1)) :=
        Nat.mul_le_mul (Nat.le_succ _) hlevel
    _ = depthBound doc := by
        unfold depthBound
        rw [show Nat.pow (doc.count + 1) 3 = (doc.count + 1) ^ 3 from rfl, Nat.pow_succ, Nat.pow_two,
          Nat.mul_assoc]

/-- **A model or its issues are the answer at some depth** if and only if no body that the building
begins with leads to one that comes back to itself; `build` then gives that answer.  Cycles of
components through `allOf` are no hindrance as long as no property and no list lies on them. -/
theorem answers_iff_none_comesBack (doc : Json) (context : String) :
    ((∃ depth, buildWithin depth doc context ≠ .error .tooDeep) ↔
      (doc.isObj = true → ∀ b ∈ bodies doc,
        ¬ Schema.ComesBack (Reference.components doc "schemas") b)) ∧
    ∀ depth, buildWithin depth doc context ≠ .error .tooDeep →
      build doc context = buildWithin depth doc context := by
  have hsome : ∀ depth, buildWithin depth doc context ≠ .error .tooDeep →
      doc.isObj = true → ∀ b ∈ bodies doc,
        ¬ Schema.ComesBack (Reference.components doc "schemas") b :=
    fun depth h hobj b hb => (buildWithin_answers_iff.1 h hobj b hb).not_comesBack
  have hbound : (doc.isObj = true → ∀ b ∈ bodies doc,
      ¬ Schema.ComesBack (Reference.components doc "schemas") b) →
      buildWithin (depthBound doc) doc context ≠ .error .tooDeep := by
    intro h
    refine buildWithin_answers_iff.2 fun hobj b hb => ?_
    exact (Schema.builds_of_not_comesBack (fun _ hp => Reference.components_mem_parts hp)
      (bodies_mem_parts hb) (h hobj b hb)).mono level_le_depthBound
  refine ⟨⟨fun ⟨depth, h⟩ => hsome depth h, fun h => ⟨_, hbound h⟩⟩, fun depth h => ?_⟩
  have hb := hbound (hsome depth h)
  rcases Nat.le_total depth (depthBound doc) with hd | hd
  · exact buildWithin_of_le h hd
  · exact (buildWithin_of_le hb hd).symm

/-! ### A body that is a property of itself -/

/-- A child that takes over all that a node has. -/
def childBody : Json :=
  .obj [("allOf", .arr [.obj [("$ref", .str "#/components/schemas/Node")]])]

def nodeBody : Json := .obj [("properties", .obj [("child", childBody)])]

def nodeDocument : Json := .obj [("components", .obj [("schemas", .obj [("Node", nodeBody)])])]

/-- A child is a node again, and so has a child. -/
theorem child_enters_child :
    Schema.Enters (Reference.components nodeDocument "schemas") childBody childBody := by
  refine ⟨rfl, .inl ⟨nodeBody, .single ⟨_, List.mem_singleton_self _, ?_⟩, "child", ?_⟩⟩
  · rfl
  · exact List.mem_singleton_self _

/-- **Not every document has a depth at which its building ends**: a property may contain itself. -/
theorem not_forall_exists_depth :
    ¬ ∀ (doc : Json) (context : String), ∃ depth,
      buildWithin depth doc context ≠ .error .tooDeep := by
  intro h
  obtain ⟨depth, h⟩ := h nodeDocument ""
  have hnode : nodeBody ∈ bodies nodeDocument := List.mem_append_left _ (List.mem_singleton_self _)
  have hbuilds := buildWithin_answers_iff.1 h rfl nodeBody hnode
  have hchild : Schema.Enters (Reference.components nodeDocument "schemas") nodeBody childBody :=
    ⟨rfl, .inl ⟨nodeBody, .refl, "child", List.mem_singleton_self _⟩⟩
  exact hbuilds.not_comesBack ⟨childBody, .single hchild, .single child_enters_child⟩

end

end Model
end ApiScaffold
