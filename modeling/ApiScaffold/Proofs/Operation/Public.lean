import ApiScaffold.Proofs.Include.Security
import ApiScaffold.Proofs.Model.Valid

/-!
# Public operations

`Security.DeclaredOpen` says when a document declares an operation public: by a flag, by a list of
requirements that are all empty, or by having neither requirements nor schemes.  An operation of a
model is then public.  It is public in one more case, `Security.PassedOver`: the document states
requirements in a form that is not read, and what is read in their place asks for nothing
(`Model.isPublic_iff_declared`).
-/

namespace ApiScaffold

open Operation (Site)

namespace Json

theorem arr?_eq_some_iff {v : Json} {items : List Json} : v.arr? = some items ↔ v = .arr items := by
  cases v <;> simp [arr?]

theorem obj?_eq_some_iff {v : Json} {fields : List (String × Json)} :
    v.obj? = some fields ↔ v = .obj fields := by
  cases v <;> simp [obj?]

theorem getArr?_eq_none_iff {v : Json} {key : String} :
    v.getArr? key = none ↔ ∀ w, v.get? key = some w → w.arr? = none := by
  unfold getArr?
  cases v.get? key <;> simp

end Json

namespace Security

/-- What is stated about the requirements of an operation: under its own key if it has it, else
under that of the document. -/
def stated? (doc op : Json) : Option Json := (op.get? "security").or (doc.get? "security")

/-- An operation is declared public. -/
inductive DeclaredOpen (doc op : Json) : Prop where
  | flag (h : op.get? "x-public-endpoint" = some (.bool true))
  | list (entries : List Json) (h : stated? doc op = some (.arr entries))
      (hempty : ∀ e ∈ entries, e = .obj [])
  | nothing (h : stated? doc op = none) (hschemes : schemes doc = [])

/-- No entry of a list names a scheme. -/
def NamesNothing (entries : List Json) : Prop :=
  ∀ e ∈ entries, ∀ fields, e = .obj fields → fields = []

/-- Requirements are stated, but not as a list of objects, and what is read of them, or in their
place, names no scheme. -/
inductive Unread (doc op : Json) : Prop where
  /-- An entry that is no object is skipped. -/
  | entry (entries : List Json) (h : stated? doc op = some (.arr entries)) (e : Json)
      (he : e ∈ entries) (hobj : e.obj? = none) (hnames : NamesNothing entries)
  /-- Instead of a value that is no list, the list of the document counts. -/
  | own (v : Json) (h : op.get? "security" = some v) (harr : v.arr? = none) (shared : List Json)
      (hshared : doc.get? "security" = some (.arr shared)) (hnames : NamesNothing shared)
  /-- Without any list, the schemes count. -/
  | unlisted (v : Json) (h : stated? doc op = some v) (harr : v.arr? = none)
      (hshared : doc.getArr? "security" = none) (hschemes : schemes doc = [])

/-- An operation asks for nothing although it is not declared public. -/
def PassedOver (doc op : Json) : Prop :=
  op.get? "x-public-endpoint" ≠ some (.bool true) ∧ Unread doc op

variable {doc op : Json}

theorem isDeclaredPublic_iff :
    isDeclaredPublic op = true ↔ op.get? "x-public-endpoint" = some (.bool true) := by
  unfold isDeclaredPublic
  cases op.get? "x-public-endpoint" with
  | none => simp
  | some v => cases v <;> simp [Json.bool?]

theorem named_eq_nil_iff {entries : List Json} : named entries = [] ↔ NamesNothing entries := by
  unfold named NamesNothing
  simp only [List.map_eq_nil_iff, List.flatten_eq_nil_iff, List.mem_filterMap,
    Json.obj?_eq_some_iff]
  constructor
  · intro h e he fields heq
    exact h fields ⟨e, he, heq⟩
  · rintro h fields ⟨e, he, heq⟩
    exact h e he fields heq

/-- A list that names nothing has only empty objects, or an entry that is no object. -/
theorem empty_or_unread {entries : List Json} (h : NamesNothing entries) :
    (∀ e ∈ entries, e = .obj []) ∨ ∃ e ∈ entries, e.obj? = none := by
  refine or_iff_not_imp_right.mpr fun hno e he => ?_
  cases hobj : e.obj? with
  | none => exact absurd ⟨e, he, hobj⟩ hno
  | some fields =>
    have heq := Json.obj?_eq_some_iff.mp hobj
    rw [heq, h e he fields heq]

theorem namesNothing_of_empty {entries : List Json} (h : ∀ e ∈ entries, e = .obj []) :
    NamesNothing entries := by
  rintro e he fields rfl
  cases h _ he
  rfl

/-- The requirements by what stands under the two keys. -/
theorem required_eq_nil_iff :
    required doc op = [] ↔ match op.getArr? "security", doc.getArr? "security" with
      | some own, _ => NamesNothing own
      | none, some shared => NamesNothing shared
      | none, none => schemes doc = [] := by
  unfold required
  cases op.getArr? "security" with
  | some own => exact named_eq_nil_iff
  | none =>
    cases doc.getArr? "security" with
    | some shared => exact named_eq_nil_iff
    | none => exact List.map_eq_nil_iff

/-- A list that counts and names nothing is a declaration, or an entry of it is skipped. -/
theorem declaredOpen_or_unread_of_list {entries : List Json}
    (h : stated? doc op = some (.arr entries)) (hnames : NamesNothing entries) :
    DeclaredOpen doc op ∨ Unread doc op := by
  rcases empty_or_unread hnames with hempty | ⟨e, he, hobj⟩
  · exact .inl (.list entries h hempty)
  · exact .inr (.entry entries h e he hobj hnames)

theorem stated?_of_own {v : Json} (h : op.get? "security" = some v) : stated? doc op = some v := by
  unfold stated?
  rw [h]
  rfl

theorem stated?_of_none (h : op.get? "security" = none) :
    stated? doc op = doc.get? "security" := by
  unfold stated?
  rw [h]
  rfl

theorem declaredOpen_or_unread_of_required (h : required doc op = []) :
    DeclaredOpen doc op ∨ Unread doc op := by
  rw [required_eq_nil_iff] at h
  cases hown : op.get? "security" with
  | none =>
    have hstated : stated? doc op = doc.get? "security" := stated?_of_none hown
    rw [Json.getArr?, hown, Option.bind_none] at h
    cases hdoc : doc.getArr? "security" with
    | some shared =>
      rw [hdoc] at h
      obtain ⟨v, hv, harr⟩ := Option.bind_eq_some_iff.mp hdoc
      rw [hv, Json.arr?_eq_some_iff.mp harr] at hstated
      exact declaredOpen_or_unread_of_list hstated h
    | none =>
      rw [hdoc] at h
      cases hv : doc.get? "security" with
      | none => exact .inl (.nothing (hstated.trans hv) h)
      | some v =>
        exact .inr (.unlisted v (hstated.trans hv) (Json.getArr?_eq_none_iff.mp hdoc v hv) hdoc h)
  | some v =>
    have hstated : stated? doc op = some v := stated?_of_own hown
    rw [Json.getArr?, hown, Option.bind_some] at h
    cases harr : v.arr? with
    | some own =>
      rw [harr] at h
      rw [Json.arr?_eq_some_iff.mp harr] at hstated
      exact declaredOpen_or_unread_of_list hstated h
    | none =>
      rw [harr] at h
      -- what stands there is no list, so that the one of the document is read
      cases hdoc : doc.getArr? "security" with
      | none =>
        rw [hdoc] at h
        exact .inr (.unlisted v hstated harr hdoc h)
      | some shared =>
        rw [hdoc] at h
        obtain ⟨w, hw, hshared⟩ := Option.bind_eq_some_iff.mp hdoc
        rw [Json.arr?_eq_some_iff.mp hshared] at hw
        exact .inr (.own v hown harr shared hw h)

/-- A list that counts is the one that is read. -/
theorem required_of_stated_list {entries : List Json} (h : stated? doc op = some (.arr entries)) :
    required doc op = named entries := by
  unfold required Json.getArr?
  cases hown : op.get? "security" with
  | some v =>
    rw [stated?_of_own hown] at h
    cases h
    rfl
  | none =>
    rw [stated?_of_none hown] at h
    rw [h]
    rfl

theorem DeclaredOpen.effective_eq_nil (h : DeclaredOpen doc op) : effective doc op = [] := by
  rw [Include.effective_eq_nil_iff]
  cases h with
  | flag h => exact .inl (isDeclaredPublic_iff.mpr h)
  | list entries h hempty =>
    rw [required_of_stated_list h, named_eq_nil_iff]
    exact .inr (namesNothing_of_empty hempty)
  | nothing h hschemes =>
    obtain ⟨hown, hdoc⟩ := Option.or_eq_none_iff.mp h
    refine .inr (required_eq_nil_iff.mpr ?_)
    rw [Json.getArr?, Json.getArr?, hown, hdoc]
    exact hschemes

theorem Unread.required_eq_nil (h : Unread doc op) : required doc op = [] := by
  cases h with
  | entry entries h e he hobj hnames =>
    rw [required_of_stated_list h]
    exact named_eq_nil_iff.mpr hnames
  | own v h harr shared hshared hnames =>
    refine required_eq_nil_iff.mpr ?_
    rw [Json.getArr?, Json.getArr?, h, hshared, Option.bind_some, harr]
    exact hnames
  | unlisted v h harr hshared hschemes =>
    refine required_eq_nil_iff.mpr ?_
    have hown : op.getArr? "security" = none := by
      refine Json.getArr?_eq_none_iff.mpr fun w hw => ?_
      rw [stated?_of_own hw] at h
      cases h
      exact harr
    rw [hown, hshared]
    exact hschemes

/-- What is not read is no declaration. -/
theorem DeclaredOpen.not_passedOver (h : DeclaredOpen doc op) : ¬PassedOver doc op := by
  rintro ⟨hflag, hunread⟩
  cases h with
  | flag h => exact hflag h
  | nothing h _ =>
    cases hunread with
    | entry _ h' => cases h.symm.trans h'
    | own _ h' => cases h.symm.trans (stated?_of_own h')
    | unlisted _ h' => cases h.symm.trans h'
  | list entries h hempty =>
    have hnone : ∀ v, stated? doc op = some v → v.arr? ≠ none := by
      intro v hv
      cases h.symm.trans hv
      exact nofun
    cases hunread with
    | entry _ h' e he hobj =>
      cases h.symm.trans h'
      rw [hempty e he] at hobj
      cases hobj
    | own v h' harr => exact hnone v (stated?_of_own h') harr
    | unlisted v h' harr => exact hnone v h' harr

/-- **When nothing is asked for**: it is declared so, or what is stated is passed over. -/
theorem effective_eq_nil_iff_declared :
    effective doc op = [] ↔ DeclaredOpen doc op ∨ PassedOver doc op := by
  constructor
  · intro h
    by_cases hflag : op.get? "x-public-endpoint" = some (.bool true)
    · exact .inl (.flag hflag)
    · rw [Include.effective_eq_nil_iff, isDeclaredPublic_iff, or_iff_right hflag] at h
      exact (declaredOpen_or_unread_of_required h).imp_right fun hunread => ⟨hflag, hunread⟩
  · rintro (h | ⟨-, h⟩)
    · exact h.effective_eq_nil
    · exact Include.effective_eq_nil_iff doc op |>.mpr (.inr h.required_eq_nil)

end Security

/-! ### Operations of a model -/

namespace Operation

variable {doc : Json} {depth : Nat}

/-- An operation that is built has the security of its place and the parameters that are merged for it. -/
theorem parts_of_build? {s : Site} {found : List Problem} {o : Operation}
    (h : build? doc depth s = some (found, some o)) :
    o.security = Security.effective doc s.op ∧ ∃ others,
      Parameter.merge? doc depth s.path s.item s.op = some (others, o.parameters) ∧
        found = problems s.op ++ others := by
  unfold build? at h
  dsimp only at h
  cases hid : s.op.getText? "operationId" with
  | none =>
    rw [hid] at h
    cases h
  | some id =>
    rw [hid] at h
    obtain ⟨⟨others, params⟩, hparams, h⟩ := Option.bind_eq_some_iff.1 h
    obtain ⟨body, -, h⟩ := Option.bind_eq_some_iff.1 h
    obtain ⟨responses, -, h⟩ := Option.bind_eq_some_iff.1 h
    cases h
    exact ⟨rfl, others, hparams, rfl⟩

end Operation

namespace Model

variable {doc : Json} {depth : Nat} {context : String} {m : Model} {o : Operation}

/-- One more place brings its own operation, if any. -/
theorem mem_operations_add {r : Registered} {place : Place} {found : List Problem}
    {op : Option Operation} (h : o ∈ (r.add place found op).operations) :
    o ∈ r.operations ∨ op = some o := by
  unfold Registered.add at h
  dsimp only at h
  split at h
  · exact .inl h
  · split at h
    · exact .inl h
    · exact (List.mem_append.mp h).imp_right fun h => congrArg some (List.mem_singleton.mp h).symm

/-- An operation that is registered was built at one of the places. -/
theorem built_of_foldlM {sites : List Site} {r r' : Registered}
    (h : sites.foldlM (registerOne? doc depth) r = some r') (ho : o ∈ r'.operations) :
    o ∈ r.operations ∨ ∃ s ∈ sites, ∃ found, Operation.build? doc depth s = some (found, some o) := by
  induction sites generalizing r with
  | nil =>
    cases h
    exact .inl ho
  | cons s rest ih =>
    rw [List.foldlM_cons] at h
    obtain ⟨r₁, hstep, hrest⟩ := Option.bind_eq_some_iff.1 h
    obtain ⟨⟨found, op⟩, hbuilt, rfl⟩ := Option.map_eq_some_iff.1 hstep
    rcases ih hrest with hmem | ⟨s', hs', hbuilt'⟩
    · rcases mem_operations_add hmem with hmem | rfl
      · exact .inl hmem
      · exact .inr ⟨s, List.mem_cons_self, found, hbuilt⟩
    · exact .inr ⟨s', List.mem_cons_of_mem _ hs', hbuilt'⟩

theorem built_of_mem_operations (h : build doc context = .ok m) (ho : o ∈ m.operations) :
    ∃ s, Site.Occurs doc s ∧ Operation.build? doc (depthBound doc) s = some ([], some o) := by
  obtain ⟨hobj, ⟨f⟩⟩ := found_of_build h
  have hvalid := (f.operations_iff.mp ((f.exists_model_iff hobj).mp ⟨m, h⟩).2).1
  rw [(f.model_eq hobj h).2.1, List.mem_mergeSort] at ho
  rcases built_of_foldlM f.register ho with hnil | ⟨s, hs, found, hbuilt⟩
  · cases hnil
  · have hoccurs := Operation.mem_sites_iff.mp hs
    obtain rfl := (Operation.build?_problems hbuilt).1.mpr (hvalid s hoccurs)
    exact ⟨s, hoccurs, hbuilt⟩

/-- **An operation of a model is that of a place of the document**, with the security of that place. -/
theorem exists_site_of_mem_operations (h : build doc context = .ok m) (ho : o ∈ m.operations) :
    ∃ s, Site.Occurs doc s ∧ o.Reads s ∧ o.security = Security.effective doc s.op := by
  obtain ⟨s, hs, hbuilt⟩ := built_of_mem_operations h ho
  exact ⟨s, hs, (Operation.build?_problems hbuilt).2.1 o rfl, (Operation.parts_of_build? hbuilt).1⟩

/-- **Operations are public where they are declared so**, and only there if and only if nothing that
the document states about their requirements is passed over.  The place of an operation is the one
that it stands for: `Model.WellFormed` has that there is no other. -/
theorem isPublic_iff_declared (doc : Json) (context : String) (m : Model)
    (h : build doc context = .ok m) : ∀ o ∈ m.operations, ∃ s, Site.Occurs doc s ∧ o.Reads s ∧
      (Security.DeclaredOpen doc s.op → o.isPublic = true) ∧
      ((o.isPublic = true → Security.DeclaredOpen doc s.op) ↔ ¬Security.PassedOver doc s.op) := by
  intro o ho
  obtain ⟨s, hs, hreads, hsecurity⟩ := exists_site_of_mem_operations h ho
  have hpublic : o.isPublic = true ↔
      Security.DeclaredOpen doc s.op ∨ Security.PassedOver doc s.op := by
    rw [← Security.effective_eq_nil_iff_declared, ← hsecurity]
    exact List.isEmpty_iff
  refine ⟨s, hs, hreads, fun hdeclared => hpublic.mpr (.inl hdeclared), ?_⟩
  constructor
  · intro honly hpassed
    exact (honly (hpublic.mpr (.inr hpassed))).not_passedOver hpassed
  · intro hno ho
    exact (hpublic.mp ho).resolve_right hno

/-! ### A name in place of an object -/

/-- A document that declares a scheme, with one operation and what this has under `security`. -/
def guardedDocument (security : Json) : Json := .obj [
  ("components", .obj [("securitySchemes", .obj [("bearerAuth", .obj [
    ("scheme", .str "bearer"), ("type", .str "http")])])]),
  ("paths", .obj [("/users", .obj [("get", .obj [
    ("operationId", .str "listUsers"), ("security", security), ("summary", .str "List users"),
    ("tags", .arr [.str "Users"])])])])]

def guardedSite (security : Json) : Site where
  path := "/users"
  method := "get"
  item := .obj [("get", .obj [
    ("operationId", .str "listUsers"), ("security", security), ("summary", .str "List users"),
    ("tags", .arr [.str "Users"])])]
  op := .obj [
    ("operationId", .str "listUsers"), ("security", security), ("summary", .str "List users"),
    ("tags", .arr [.str "Users"])]

/-- Whether the operations of a model are public, where there is one. -/
def publicOperations? (built : Except Error Model) : Option (List Bool) :=
  built.toOption.map (·.operations.map (·.isPublic))

theorem exists_of_publicOperations? {depth : Nat} {open_ : Bool}
    (h : publicOperations? (buildWithin depth doc context) = some [open_]) :
    ∃ m o, build doc context = .ok m ∧ m.operations = [o] ∧ o.isPublic = open_ := by
  obtain ⟨m, hm, hmap⟩ := exists_build_of_map h
  obtain ⟨o, ho, hpublic⟩ := List.map_eq_singleton_iff.mp hmap
  exact ⟨m, o, hm, ho, hpublic⟩

/-- With an empty object the operation is public, and it is declared so. -/
theorem isPublic_iff_declared_guarded :
    ∃ m, build (guardedDocument (.arr [.obj []])) "" = .ok m ∧ m.operations.length = 1 ∧
      ∀ o ∈ m.operations, ∃ s, Site.Occurs (guardedDocument (.arr [.obj []])) s ∧ o.Reads s ∧
        (Security.DeclaredOpen (guardedDocument (.arr [.obj []])) s.op → o.isPublic = true) ∧
        ((o.isPublic = true → Security.DeclaredOpen (guardedDocument (.arr [.obj []])) s.op) ↔
          ¬Security.PassedOver (guardedDocument (.arr [.obj []])) s.op) := by
  have h : publicOperations? (buildWithin 3 (guardedDocument (.arr [.obj []])) "") = some [true] := by
    decide +kernel
  obtain ⟨m, o, hm, ho, -⟩ := exists_of_publicOperations? h
  exact ⟨m, hm, by rw [ho]; rfl, isPublic_iff_declared _ _ m hm⟩

/-- The name of the scheme is skipped: the operation is public, and is not declared so. -/
theorem not_forall_public_declared :
    ¬∀ (doc : Json) (context : String) (m : Model), build doc context = .ok m →
      ∀ o ∈ m.operations, ∀ s, Site.Occurs doc s → o.Reads s → o.isPublic = true →
        Security.DeclaredOpen doc s.op := by
  intro h
  have hbuilt : publicOperations? (buildWithin 3 (guardedDocument (.arr [.str "bearerAuth"])) "")
      = some [true] := by
    decide +kernel
  obtain ⟨m, o, hm, ho, hpublic⟩ := exists_of_publicOperations? hbuilt
  have hmem : o ∈ m.operations := ho ▸ List.mem_singleton_self o
  obtain ⟨s, hs, hreads, -⟩ := exists_site_of_mem_operations hm hmem
  have hsite : s = guardedSite (.arr [.str "bearerAuth"]) :=
    List.mem_singleton.mp (Operation.mem_sites_iff.mpr hs)
  refine (h _ _ m hm o hmem s hs hreads hpublic).not_passedOver ?_
  rw [hsite]
  have hflag : (guardedSite (.arr [.str "bearerAuth"])).op.get? "x-public-endpoint" = none := by rfl
  refine ⟨by rw [hflag]; exact nofun,
    .entry [.str "bearerAuth"] rfl (.str "bearerAuth") (by simp) rfl ?_⟩
  intro e he fields heq
  rw [List.mem_singleton.mp he] at heq
  cases heq

end Model
end ApiScaffold
