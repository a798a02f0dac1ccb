import Mathlib.Data.List.Perm.Subperm
import ApiScaffold.Proofs.Model.Valid

/-!
# What is reported of a document

`Operation.Site.faults` and `Extension.Draft.faults` list what is wrong with an operation and with
an extension, each rule and each entry by itself.  What a failing build reports at a place is told
by `problemsAt`.  `every_fault_reported_iff` compares the two: the parameters of an operation
without an id go unread, a nameless method hides what it returns, and of an extension that does not
have the shape of one only the first fault is told.
-/

namespace ApiScaffold

open Operation (Site)

/-! ### Faults -/

/-- A rule that an operation breaks. -/
inductive Operation.Breaks (op : Json) : Problem → Prop
  | tags (texts : List String) : Json.Texts (op.items "tags") texts → texts.length ≠ 1 →
      Breaks op (.tagCount texts.length)
  | id : (¬∃ id, op.Says "operationId" id) → Breaks op .missingOperationId
  | summary : (¬∃ summary, op.Says "summary" summary) → Breaks op .missingSummary

/-- Everything that is wrong with an operation: each rule that it breaks, and each of its parameters
that is faulty. -/
def Operation.Site.faults (doc : Json) (s : Site) : List Problem :=
  Operation.problems s.op ++ Parameter.faults doc s

namespace Extension

/-- What is wrong with a method: its name, and what it returns. -/
def MethodDraft.faults (m : MethodDraft) : List Problem :=
  (if Text.isBlankText m.name then [.methodWithoutName] else [])
    ++ (if (cardinality? m.returns).isSome then [] else [.unknownReturns m.name m.returns])

def Draft.methods (d : Draft) : List MethodDraft := (d.repository.map (·.methods)).getD []

/-- A rule that a draft breaks, what its methods return apart. -/
inductive Draft.Breaks (d : Draft) : Problem → Prop
  | noRole : d.role = none → Breaks d .missingRole
  | role (given : String) : d.role = some given →
      Text.toLowerAscii given ∉ ["entity", "valueobject"] →
      Breaks d (.unknownRole (Text.toLowerAscii given))
  | method (m : MethodDraft) : m ∈ d.methods → Text.isBlankText m.name = true →
      Breaks d .methodWithoutName
  | relation (db : Database) (r : Relation) : d.database = some db → r ∈ db.relations →
      Text.isBlankText r.field = true ∨ Text.isBlankText r.references = true →
      Breaks d .blankRelation
  | index (db : Database) (i : Index) : d.database = some db → i ∈ db.indices → i.fields = [] →
      Breaks d .indexWithoutFields
  | query (db : Database) (q : CustomQuery) : d.database = some db → q ∈ db.queries →
      Text.isBlankText q.sql = true → Breaks d (.blankQuery q.name)

/-- Everything that is wrong with what a draft says. -/
def Draft.faults (d : Draft) : List Problem :=
  refused [knownRole d.role]
    ++ (d.repository.map fun r => r.methods.flatMap MethodDraft.faults).getD []
    ++ (d.database.map databaseProblems).getD []

/-- A method without a name whose result is not known either. -/
def MethodDraft.IsHidden (m : MethodDraft) : Prop :=
  Text.isBlankText m.name = true ∧ cardinality? m.returns = none

end Extension

def problemsAt (place : Place) (issues : List Issue) : List Problem :=
  issues.filterMap fun i => if i.place = place then some i.problem else none

/-! ### Issues place by place -/

section

variable {place : Place}

theorem problemsAt_append (a b : List Issue) :
    problemsAt place (a ++ b) = problemsAt place a ++ problemsAt place b :=
  List.filterMap_append

theorem problemsAt_map (problems : List Problem) :
    problemsAt place (problems.map (⟨place, ·⟩)) = problems := by
  unfold problemsAt
  rw [List.filterMap_map]
  simp

theorem problemsAt_eq_nil {issues : List Issue} (h : ∀ i ∈ issues, i.place ≠ place) :
    problemsAt place issues = [] := by
  refine List.filterMap_eq_nil_iff.mpr fun i hi => ?_
  rw [if_neg (h i hi)]

theorem exists_issue {issues : List Issue} (h : problemsAt place issues ≠ []) :
    ∃ i ∈ issues, i.place = place := by
  by_contra hnone
  exact h (problemsAt_eq_nil fun i hi heq => hnone ⟨i, hi, heq⟩)

/-- **Issues that are gathered place by place**: at a place stands what was found there. -/
theorem problemsAt_flatten {α : Type} {R : α → List Issue → Prop} {placeOf : α → Place}
    (hplace : ∀ x found, R x found → ∀ i ∈ found, i.place = placeOf x) {xs : List α}
    {all : List (List Issue)} (h : List.Forall₂ R xs all) (hnodup : (xs.map placeOf).Nodup) {x : α}
    (hx : x ∈ xs) : ∃ found, R x found ∧ problemsAt (placeOf x) all.flatten
      = problemsAt (placeOf x) found := by
  induction h with
  | nil => cases hx
  | @cons y found rest more hR hrest ih =>
    rw [List.map_cons, List.nodup_cons] at hnodup
    obtain ⟨hnotMem, hnodup⟩ := hnodup
    rw [List.flatten_cons, problemsAt_append]
    rcases List.mem_cons.mp hx with rfl | hx
    -- places differ, so that all that is told at the place of `x` is told of `x`
    · have hmore : problemsAt (placeOf x) more.flatten = [] := by
        refine problemsAt_eq_nil fun i hi heq => hnotMem ?_
        obtain ⟨found', hfound', hi⟩ := List.mem_flatten.mp hi
        obtain ⟨z, hz, hR'⟩ := exists_left_of_forall₂ hrest hfound'
        rw [← heq, hplace z found' hR' i hi]
        exact List.mem_map_of_mem hz
      rw [hmore, List.append_nil]
      exact ⟨found, hR, rfl⟩
    · have hfound : problemsAt (placeOf x) found = [] := by
        refine problemsAt_eq_nil fun i hi heq => hnotMem ?_
        rw [← hplace y found hR i hi, heq]
        exact List.mem_map_of_mem hx
      rw [hfound, List.nil_append]
      exact ih hnodup hx

end

/-! ### Operations -/

namespace Operation

theorem Breaks.mem_problems {op : Json} {p : Problem} (h : Breaks op p) : p ∈ problems op := by
  unfold problems
  cases h with
  | tags texts htexts htags =>
    rw [← tags_eq_iff] at htexts
    simp [htexts, htags]
  | id hid =>
    rw [← Json.getText?_isSome_iff] at hid
    simp [hid]
  | summary hsummary =>
    rw [← Json.getText?_isSome_iff] at hsummary
    simp [hsummary]

/-- A fault of a parameter is none of the other problems of an operation. -/
theorem not_mem_problems_of_mem_faults {doc : Json} {s : Site} {p : Problem}
    (h : p ∈ Parameter.faults doc s) :
    p ∉ problems s.op ∧ ∀ id before, p ≠ .repeatedOperationId id before := by
  obtain ⟨raw, -, hfault⟩ := List.mem_filterMap.mp h
  have hp : p = .parameterWithoutName ∨ ∃ name given, p = .unsupportedLocation name given := by
    unfold Parameter.fault? at hfault
    split at hfault
    · exact .inl (Option.some.inj hfault).symm
    · rename_i name _
      dsimp only at hfault
      split at hfault
      · cases hfault
      · exact .inr ⟨name, _, (Option.some.inj hfault).symm⟩
  rcases hp with rfl | ⟨name, given, rfl⟩
  · exact ⟨by simp [problems], by simp⟩
  · exact ⟨by simp [problems], by simp⟩

/-- **Every fault of an operation is told** if it has an id or no faulty parameter. -/
theorem subperm_told_iff {doc : Json} {s : Site} {again : List Problem}
    (hagain : ∀ p ∈ again, ∃ id before, p = .repeatedOperationId id before) :
    (s.faults doc).Subperm (s.told doc ++ again) ↔
      (s.op.getText? "operationId").isSome = true ∨ Parameter.faults doc s = [] := by
  unfold Site.faults Site.told
  constructor
  · intro h
    by_contra hnot
    rw [not_or] at hnot
    obtain ⟨hid, hfaults⟩ := hnot
    -- without an id nothing is told of the parameters, and nothing else tells the same
    obtain ⟨p, hp⟩ := List.exists_mem_of_ne_nil _ hfaults
    obtain ⟨hproblems, hrepeated⟩ := not_mem_problems_of_mem_faults hp
    have hmem := h.subset (List.mem_append_right _ hp)
    rw [if_neg hid, List.append_nil, List.mem_append] at hmem
    rcases hmem with hmem | hmem
    · exact hproblems hmem
    · obtain ⟨id, before, heq⟩ := hagain p hmem
      exact hrepeated id before heq
  · intro h
    have hsame : (if (s.op.getText? "operationId").isSome then Parameter.faults doc s else [])
        = Parameter.faults doc s := by
      rcases h with hid | hnil
      · rw [if_pos hid]
      · rw [hnil, ite_self]
    rw [hsame]
    exact (List.prefix_append _ _).sublist.subperm

end Operation

namespace Model

section

variable {doc : Json} {depth : Nat}

/-- What an operation adds to the issues: what is told of it, and that its id is there again. -/
structure Adds (doc : Json) (s : Site) (found : List Issue) : Prop where
  place : ∀ i ∈ found, i.place = s.place
  told : ∃ again, problemsAt s.place found = s.told doc ++ again ∧
    ∀ p ∈ again, ∃ id before, p = .repeatedOperationId id before

theorem adds_map {s : Site} (again : List Problem)
    (h : ∀ p ∈ again, ∃ id before, p = .repeatedOperationId id before) :
    Adds doc s ((s.told doc ++ again).map (⟨s.place, ·⟩)) := by
  refine ⟨fun i hi => ?_, again, problemsAt_map _, h⟩
  obtain ⟨p, -, rfl⟩ := List.mem_map.mp hi
  rfl

theorem adds_registerOne {r r' : Registered} {s : Site} (h : registerOne? doc depth r s = some r') :
    ∃ found, Adds doc s found ∧ r'.issues = r.issues ++ found := by
  obtain ⟨⟨found, op⟩, hbuilt, rfl⟩ := Option.map_eq_some_iff.1 h
  rw [Operation.found_of_build? hbuilt]
  unfold Registered.add
  cases op with
  | none => exact ⟨_, adds_map [] nofun, by rw [List.append_nil]⟩
  | some o =>
    dsimp only
    cases r.places.lookup o.id with
    | none => exact ⟨_, adds_map [] nofun, by rw [List.append_nil]⟩
    | some before =>
      refine ⟨_, adds_map [.repeatedOperationId o.id before] ?_, ?_⟩
      · intro p hp
        exact ⟨o.id, before, List.mem_singleton.mp hp⟩
      · rw [List.map_append]
        exact List.append_assoc _ _ _

/-- The issues of a register are those of its operations. -/
theorem exists_added {sites : List Site} {r r' : Registered}
    (h : sites.foldlM (registerOne? doc depth) r = some r') :
    ∃ added, List.Forall₂ (Adds doc) sites added ∧ r'.issues = r.issues ++ added.flatten := by
  induction sites generalizing r with
  | nil =>
    cases h
    exact ⟨[], .nil, (List.append_nil _).symm⟩
  | cons s rest ih =>
    rw [List.foldlM_cons] at h
    obtain ⟨next, hstep, hrest⟩ := Option.bind_eq_some_iff.1 h
    obtain ⟨found, hfound, hnext⟩ := adds_registerOne hstep
    obtain ⟨added, hadded, hissues⟩ := ih hrest
    refine ⟨found :: added, .cons hfound hadded, ?_⟩
    rw [hissues, hnext, List.append_assoc, List.flatten_cons]

/-- Where the issues of a register are. -/
theorem place_of_registered {registered : Registered} (h : register? doc depth = some registered)
    {i : Issue} (hi : i ∈ registered.issues) : ∃ s ∈ Operation.sites doc, i.place = s.place := by
  obtain ⟨added, hadded, hissues⟩ := exists_added (r := ⟨[], [], []⟩) h
  rw [hissues, List.nil_append] at hi
  obtain ⟨found, hfound, hi⟩ := List.mem_flatten.mp hi
  obtain ⟨s, hs, hadds⟩ := exists_left_of_forall₂ hadded hfound
  exact ⟨s, hs, hadds.place i hi⟩

/-- **What is told of an operation.** -/
theorem problemsAt_registered (hsorted : doc.Sorted) {registered : Registered}
    (h : register? doc depth = some registered) {s : Site} (hs : s.Occurs doc) :
    ∃ again, problemsAt s.place registered.issues = s.told doc ++ again ∧
      ∀ p ∈ again, ∃ id before, p = .repeatedOperationId id before := by
  obtain ⟨added, hadded, hissues⟩ := exists_added (r := ⟨[], [], []⟩) h
  have hplaces : ((Operation.sites doc).map Site.place).Nodup := by
    refine (nodup_sites hsorted).map_on fun s hs s' hs' heq => ?_
    rw [Operation.mem_sites_iff] at hs hs'
    obtain ⟨hpath, hmethod⟩ := Place.operation.inj heq
    exact Occurs.eq hsorted hs hs' hpath (toUpperAscii_inj _ hs.method _ hs'.method hmethod)
  obtain ⟨found, hfound, heq⟩ := problemsAt_flatten (fun _ _ hadds => hadds.place) hadded hplaces
    (Operation.mem_sites_iff.mpr hs)
  rw [hissues, List.nil_append, heq]
  exact hfound.told

end

end Model

/-! ### Extensions -/

namespace Extension

/-- What is told of an extension: all that its draft is refused for, or a fault of its shape. -/
def told (v : Json) : List Problem :=
  match readDraft v with
  | .error e => [.malformedExtension e]
  | .ok draft => draft.problems

/-- An extension is decoded unless something is told of it. -/
theorem decode_eq (schema : String) (v : Json) :
    (∀ e, decode schema v = .ok e → told v = []) ∧
      ∀ issues, decode schema v = .error issues → issues = (told v).map (⟨.schema schema, ·⟩) := by
  unfold decode told
  cases readDraft v with
  | error e =>
    refine ⟨nofun, fun issues h => ?_⟩
    cases h
    rfl
  | ok draft =>
    dsimp only
    split
    · rename_i hproblems
      exact ⟨fun _ _ => hproblems, nofun⟩
    · refine ⟨nofun, fun issues h => ?_⟩
      cases h
      rfl

/-! #### Methods -/

instance : DecidablePred MethodDraft.IsHidden := fun _ => inferInstanceAs (Decidable (_ ∧ _))

/-- A method is refused for the first of its faults. -/
theorem refused_accept (methods : List MethodDraft) : refused (methods.map MethodDraft.accept)
    = methods.flatMap fun m => m.faults.take 1 := by
  induction methods with
  | nil => rfl
  | cons m rest ih =>
    have hfirst : refused [m.accept] = m.faults.take 1 := by
      unfold MethodDraft.accept MethodDraft.faults
      cases Text.isBlankText m.name with
      | true => rfl
      | false =>
        cases cardinality? m.returns with
        | none => rfl
        | some returns => rfl
    rw [List.flatMap_cons, ← ih, ← hfirst]
    exact List.filterMap_append (l := [m.accept])

theorem length_faults (m : MethodDraft) :
    m.faults.length = (m.faults.take 1).length + if m.IsHidden then 1 else 0 := by
  unfold MethodDraft.faults MethodDraft.IsHidden
  by_cases hname : Text.isBlankText m.name = true
  · by_cases hreturns : cardinality? m.returns = none
    · simp [hname, hreturns]
    · simp [hname, hreturns, Option.isSome_iff_ne_none.mpr hreturns]
  · by_cases hreturns : cardinality? m.returns = none
    · simp [hname, hreturns]
    · simp [hname, hreturns, Option.isSome_iff_ne_none.mpr hreturns]

/-- What goes untold is one fault for each hidden method. -/
theorem length_flatMap_faults (methods : List MethodDraft) :
    (methods.flatMap MethodDraft.faults).length
      = (methods.flatMap fun m => m.faults.take 1).length + methods.countP (·.IsHidden) := by
  induction methods with
  | nil => rfl
  | cons m rest ih =>
    rw [List.flatMap_cons, List.flatMap_cons, List.length_append, List.length_append, ih,
      length_faults, List.countP_cons]
    simp only [decide_eq_true_eq]
    omega

theorem faults_eq (d : Draft) : d.faults
    = refused [knownRole d.role] ++ d.methods.flatMap MethodDraft.faults
      ++ (d.database.map databaseProblems).getD [] := by
  unfold Draft.faults Draft.methods
  cases d.repository <;> rfl

theorem problems_eq (d : Draft) : d.problems
    = refused [knownRole d.role] ++ (d.methods.flatMap fun m => m.faults.take 1)
      ++ (d.database.map databaseProblems).getD [] := by
  unfold Draft.problems Draft.methods
  cases d.repository with
  | none => rfl
  | some r => rw [Option.map_some, RepositoryDraft.problems, refused_accept]; rfl

theorem knownRole_of_notMem {given : String}
    (h : Text.toLowerAscii given ∉ ["entity", "valueobject"]) :
    knownRole (some given) = .error (.unknownRole (Text.toLowerAscii given)) := by
  rw [knownRole, Option.map_some]
  split
  · rename_i heq
    exact absurd (by rw [Option.some.inj heq]; decide) h
  · rename_i heq
    exact absurd (by rw [Option.some.inj heq]; decide) h
  · rename_i heq
    rw [Option.some.inj heq]
  · rename_i heq
    cases heq

theorem Draft.Breaks.mem_problems {d : Draft} {p : Problem} (h : d.Breaks p) : p ∈ d.problems := by
  -- the problems are those of the role, of the methods and of the database part
  rw [problems_eq, List.mem_append, List.mem_append]
  cases h with
  | noRole hrole =>
    refine .inl (.inl ?_)
    rw [hrole]
    exact List.mem_singleton_self _
  | role given hrole hunknown =>
    refine .inl (.inl ?_)
    rw [hrole, knownRole_of_notMem hunknown]
    exact List.mem_singleton_self _
  | method m hm hblank =>
    refine .inl (.inr (List.mem_flatMap.mpr ⟨m, hm, ?_⟩))
    rw [MethodDraft.faults, if_pos hblank]
    exact List.mem_cons_self
  | relation db r hdatabase hr hblank =>
    refine .inr ?_
    rw [hdatabase, Option.map_some, Option.getD_some, databaseProblems]
    refine List.mem_append_left _ (List.mem_append_left _ (List.mem_map.mpr ⟨r, ?_, rfl⟩))
    exact List.mem_filter.mpr ⟨hr, (Bool.or_eq_true _ _).mpr hblank⟩
  | index db i hdatabase hi hempty =>
    refine .inr ?_
    rw [hdatabase, Option.map_some, Option.getD_some, databaseProblems]
    refine List.mem_append_left _ (List.mem_append_right _ (List.mem_map.mpr ⟨i, ?_, rfl⟩))
    exact List.mem_filter.mpr ⟨hi, List.isEmpty_iff.mpr hempty⟩
  | query db q hdatabase hq hblank =>
    refine .inr ?_
    rw [hdatabase, Option.map_some, Option.getD_some, databaseProblems]
    refine List.mem_append_right _ (List.mem_map.mpr ⟨q, ?_, rfl⟩)
    exact List.mem_filter.mpr ⟨hq, hblank⟩

/-- **Every fault of a draft is told** unless a method is hidden. -/
theorem subperm_problems_iff {d : Draft} :
    d.faults.Subperm d.problems ↔ ∀ m ∈ d.methods, ¬m.IsHidden := by
  rw [faults_eq, problems_eq]
  constructor
  · intro h m hm hhidden
    have hlength := h.length_le
    simp only [List.length_append, length_flatMap_faults] at hlength
    have hcount : 0 < d.methods.countP (·.IsHidden) :=
      List.countP_pos_iff.mpr ⟨m, hm, decide_eq_true hhidden⟩
    omega
  · intro h
    have hsame : (d.methods.flatMap fun m => m.faults.take 1)
        = d.methods.flatMap MethodDraft.faults := by
      refine List.flatMap_congr fun m hm => List.take_of_length_le ?_
      have hlength := length_faults m
      rw [if_neg (h m hm), Nat.add_zero] at hlength
      rw [hlength]
      exact List.length_take_le 1 _
    rw [hsame]

end Extension

namespace Model

variable {doc : Json} {context : String} {issues : List Issue}

/-- What a build is refused for: the issues of the schemas, then those of the operations. -/
theorem issues_of_build (h : build doc context = .error (.invalid issues)) :
    issues ≠ [] ∧ ∃ schemas registered, namedSchemas? doc (depthBound doc) = some schemas ∧
      register? doc (depthBound doc) = some registered ∧
      issues = schemas.flatMap Prod.fst ++ registered.issues := by
  unfold build buildWithin at h
  split at h
  · cases h
  · dsimp only at h
    split at h
    · rename_i schemas registered hschemas hregistered
      split at h
      · rename_i hissues
        cases h
        exact ⟨by simpa using hissues, schemas, registered, hschemas, hregistered, rfl⟩
      · cases h
    · cases h

/-- A build that ends is refused for issues only. -/
theorem eq_invalid_of_error (hobj : doc.isObj = true)
    (hends : ∃ depth, buildWithin depth doc context ≠ .error .tooDeep) {e : Error}
    (h : build doc context = .error e) : ∃ issues, e = .invalid issues := by
  obtain ⟨depth, hdepth⟩ := hends
  have hbuild : buildWithin depth doc context = .error e :=
    (build_eq_buildWithin hdepth).symm.trans h
  obtain ⟨f⟩ := exists_found hobj hdepth
  have hs := f.named
  unfold namedSchemas? at hs
  unfold buildWithin at hbuild
  rw [hobj, if_neg (by simp)] at hbuild
  simp only [hs, f.register] at hbuild
  split at hbuild
  · cases hbuild
    exact ⟨_, rfl⟩
  · cases hbuild

/-- What is told of the extension of a schema. -/
def Tells (p : String × Json) (found : List Issue) : Prop :=
  (∀ i ∈ found, i.place = .schema p.1) ∧
    ∀ v, p.2.get? "x-codegen" = some v → problemsAt (.schema p.1) found = Extension.told v

theorem tells_of_buildNamed? {components : List (String × Json)} {depth : Nat} {p : String × Json}
    {found : List Issue} {s : Schema}
    (h : Schema.buildNamed? components depth p.1 p.2 = some (found, s)) : Tells p found := by
  obtain ⟨built, -, h⟩ := Option.bind_eq_some_iff.1 h
  dsimp only at h
  cases hraw : p.2.get? "x-codegen" with
  | none =>
    rw [hraw] at h
    cases h
    exact ⟨nofun, fun v hv => by rw [hraw] at hv; cases hv⟩
  | some v =>
    rw [hraw, Option.map_some] at h
    have hdecode := Extension.decode_eq p.1 v
    cases hd : Extension.decode p.1 v with
    | ok e =>
      rw [hd] at h
      cases h
      refine ⟨nofun, fun w hw => ?_⟩
      cases hraw.symm.trans hw
      exact (hdecode.1 e hd).symm
    | error issues =>
      rw [hd] at h
      cases h
      rw [hdecode.2 _ hd]
      refine ⟨fun i hi => ?_, fun w hw => ?_⟩
      · obtain ⟨q, -, rfl⟩ := List.mem_map.mp hi
        rfl
      · cases hraw.symm.trans hw
        exact problemsAt_map _

theorem forall₂_tells {depth : Nat} {schemas : List (List Issue × Schema)}
    (h : namedSchemas? doc depth = some schemas) :
    List.Forall₂ Tells (Reference.components doc "schemas") (schemas.map Prod.fst) :=
  List.forall₂_map_right_iff.mpr
    ((forall₂_of_mapM h).imp fun _ _ hbuilt => tells_of_buildNamed? hbuilt)

/-- **What is told of an extension.** -/
theorem problemsAt_schema (hsorted : doc.Sorted) (h : build doc context = .error (.invalid issues))
    {p : String × Json} (hp : p ∈ Reference.components doc "schemas") {v : Json}
    (hv : p.2.get? "x-codegen" = some v) :
    problemsAt (.schema p.1) issues = Extension.told v := by
  obtain ⟨-, schemas, registered, hschemas, hregistered, rfl⟩ := issues_of_build h
  have hplaces : ((Reference.components doc "schemas").map fun p => Place.schema p.1).Nodup := by
    have hnames : ((Reference.components doc "schemas").map Prod.fst).Nodup :=
      (increasing_components hsorted "schemas").imp fun hlt => hlt.ne
    have hmap := hnames.map (f := Place.schema) fun _ _ heq => Place.schema.inj heq
    rwa [List.map_map] at hmap
  obtain ⟨found, htells, heq⟩ := problemsAt_flatten (fun _ _ htells => htells.1)
    (forall₂_tells hschemas) hplaces hp
  have hoperations : problemsAt (.schema p.1) registered.issues = [] := by
    refine problemsAt_eq_nil fun i hi heq => ?_
    obtain ⟨s, -, hplace⟩ := place_of_registered hregistered hi
    cases hplace.symm.trans heq
  rw [problemsAt_append, hoperations, List.append_nil, List.flatMap_def, heq]
  exact htells.2 v hv

theorem problemsAt_operation (hsorted : doc.Sorted)
    (h : build doc context = .error (.invalid issues)) {s : Site} (hs : s.Occurs doc) :
    ∃ again, problemsAt s.place issues = s.told doc ++ again ∧
      ∀ p ∈ again, ∃ id before, p = .repeatedOperationId id before := by
  obtain ⟨-, schemas, registered, hschemas, hregistered, rfl⟩ := issues_of_build h
  have hextensions : problemsAt s.place (schemas.flatMap Prod.fst) = [] := by
    refine problemsAt_eq_nil fun i hi heq => ?_
    obtain ⟨found, hfound, hi⟩ := List.mem_flatten.mp (List.flatMap_def ▸ hi)
    obtain ⟨p, -, htells⟩ := exists_left_of_forall₂ (forall₂_tells hschemas) hfound
    cases (htells.1 i hi).symm.trans heq
  rw [problemsAt_append, hextensions, List.nil_append]
  exact problemsAt_registered hsorted hregistered hs

/-! ### The main result -/

/-- **When every fault is reported.**  Of an operation, each rule that it breaks is; all its faults
are, if it has an id or no faulty parameter.  Of an extension that can be read, each rule that it
breaks is; all its faults are, if no method is hidden.  Of one that cannot be read, the first fault
of its shape is all that is told. -/
theorem every_fault_reported_iff (hsorted : doc.Sorted)
    (h : build doc context = .error (.invalid issues)) :
    (∀ s, Site.Occurs doc s →
      (∀ p, Operation.Breaks s.op p → p ∈ problemsAt s.place issues) ∧
      ((s.faults doc).Subperm (problemsAt s.place issues) ↔
        (∃ id, s.op.Says "operationId" id) ∨ Parameter.faults doc s = [])) ∧
    ∀ p ∈ Reference.components doc "schemas", ∀ v, p.2.get? "x-codegen" = some v →
      (∀ e, Extension.readDraft v = .error e →
        problemsAt (.schema p.1) issues = [.malformedExtension e]) ∧
      ∀ draft, Extension.readDraft v = .ok draft →
        (∀ q, draft.Breaks q → q ∈ problemsAt (.schema p.1) issues) ∧
        (draft.faults.Subperm (problemsAt (.schema p.1) issues) ↔
          ∀ m ∈ draft.methods, ¬m.IsHidden) := by
  refine ⟨fun s hs => ?_, fun p hp v hv => ?_⟩
  · obtain ⟨again, heq, hagain⟩ := problemsAt_operation hsorted h hs
    rw [heq, ← Json.getText?_isSome_iff]
    refine ⟨fun p hp => ?_, Operation.subperm_told_iff hagain⟩
    exact List.mem_append_left _ (List.mem_append_left _ hp.mem_problems)
  · rw [problemsAt_schema hsorted h hp hv]
    refine ⟨fun e he => ?_, fun draft hdraft => ?_⟩
    · unfold Extension.told
      rw [he]
    · unfold Extension.told
      rw [hdraft]
      exact ⟨fun q hq => hq.mem_problems, Extension.subperm_problems_iff⟩

/-- Of two operations only one has an id, and both have a parameter without a name. -/
def namelessDocument : Json := .obj [
  ("paths", .obj [("/users", .obj [
    ("get", .obj [
      ("parameters", .arr [.obj [("in", .str "query")]]),
      ("summary", .str "List users"),
      ("tags", .arr [.str "Users"])]),
    ("post", .obj [
      ("operationId", .str "addUser"),
      ("parameters", .arr [.obj [("in", .str "query")]]),
      ("tags", .arr [.str "Users"])])])])]

def namelessSite (method : String) : Site :=
  let (path, item) := (namelessDocument.fields "paths").headD ("", .null)
  ⟨path, method, item, (item.get? method).getD .null⟩

theorem sorted_nameless : namelessDocument.Sorted := by
  simp only [namelessDocument, Json.Sorted, Json.SortedItems, Json.SortedFields]
  decide +kernel

theorem build_nameless : ∃ issues, build namelessDocument "" = .error (.invalid issues) := by
  have hends : buildWithin 3 namelessDocument "" ≠ .error .tooDeep := by
    rw [Ne, buildWithin_eq_tooDeep_iff rfl, not_not]
    decide +kernel
  have hrefused : (build namelessDocument "").isOk = false := by
    rw [build_eq_buildWithin hends]
    decide +kernel
  cases hbuild : build namelessDocument "" with
  | ok m =>
    rw [hbuild] at hrefused
    cases hrefused
  | error e =>
    obtain ⟨issues, rfl⟩ := eq_invalid_of_error rfl ⟨3, hends⟩ hbuild
    exact ⟨issues, rfl⟩

theorem occurs_nameless {method : String} (h : method ∈ ["get", "post"]) :
    (namelessSite method).Occurs namelessDocument := by
  refine Operation.mem_sites_iff.mp ?_
  simp only [List.mem_cons, List.not_mem_nil, or_false] at h
  rcases h with rfl | rfl
  · exact List.mem_cons_self
  · exact List.mem_cons_of_mem _ List.mem_cons_self

/-- Every fault of the operation with an id is told. -/
theorem every_fault_reported_nameless : namelessDocument.Sorted ∧ ∃ issues,
    build namelessDocument "" = .error (.invalid issues) ∧
      ((namelessSite "post").faults namelessDocument).Subperm
        (problemsAt (namelessSite "post").place issues) := by
  obtain ⟨issues, hissues⟩ := build_nameless
  have hall := (every_fault_reported_iff sorted_nameless hissues).1
  refine ⟨sorted_nameless, issues, hissues, ?_⟩
  exact (hall _ (occurs_nameless (by decide))).2.mpr (.inl ⟨"addUser", rfl, by decide +kernel⟩)

/-- **Not every fault is reported**: of the operation without an id, the parameter is not read. -/
theorem not_forall_fault_reported : ¬∀ (doc : Json) (context : String) (issues : List Issue),
    doc.Sorted → build doc context = .error (.invalid issues) → ∀ s, Site.Occurs doc s →
      (s.faults doc).Subperm (problemsAt s.place issues) := by
  intro h
  obtain ⟨issues, hissues⟩ := build_nameless
  have hget : (namelessSite "get").Occurs namelessDocument := occurs_nameless (by decide)
  have htold := h _ _ issues sorted_nameless hissues _ hget
  obtain ⟨again, heq, hagain⟩ := problemsAt_operation sorted_nameless hissues hget
  rw [heq, Operation.subperm_told_iff hagain] at htold
  rcases htold with hid | hnil
  · exact absurd hid (by decide +kernel)
  · exact absurd (congrArg List.length hnil) (by decide +kernel)

end Model
end ApiScaffold
