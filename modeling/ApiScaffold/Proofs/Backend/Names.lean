import ApiScaffold.Backend.Composition
import ApiScaffold.Backend.Handlers
import ApiScaffold.Backend.Repositories
import ApiScaffold.Proofs.Code.Names
import ApiScaffold.Proofs.Operation.Public
import ApiScaffold.Proofs.Parameter.Merge
import ApiScaffold.Proofs.Schema.Built

/-!
# Names that a backend declares once

Besides the declarations of its schemas, a backend declares the fields of requests, the methods of
repositories and the packages that it composes.  All their names are made from names of the document,
and the making loses what tells those apart: `namedOnce_iff` says of which models nothing is declared
twice.  The document has each parameter once for a location, each property once and each tag once;
no more than that is known of its names.
-/

namespace ApiScaffold

/-! ### Parameters of a model -/

theorem Model.nodup_parameters {doc : Json} {context : String} {m : Model} {o : Operation}
    (h : build doc context = .ok m) (ho : o ∈ m.operations) :
    (o.parameters.map Parameter.identity).Nodup := by
  obtain ⟨s, -, hbuilt⟩ := built_of_mem_operations h ho
  obtain ⟨-, others, hmerge, hfound⟩ := Operation.parts_of_build? hbuilt
  obtain rfl := (List.append_eq_nil_iff.1 hfound.symm).2
  obtain ⟨read, hread, hparams⟩ := Parameter.merge?_eq_foldl_iff.1 hmerge
  rw [hparams]
  exact (Parameter.merged_of_reads _ hread).distinct

namespace Backend

/-! ### Methods -/

/-- The name that a signature opens with: what stands before its parameters. -/
def called (text : String) : String := String.ofList (text.toList.takeWhile (· != '('))

def Signature.name (m : Signature) : String := called m.text

/-- Behind the parenthesis nothing counts. -/
theorem called_append (text rest : String) (h : '(' ∈ text.toList) :
    called (text ++ rest) = called text := by
  unfold called
  rw [String.toList_append, List.takeWhile_append, if_neg]
  intro hlength
  have hall := List.takeWhile_eq_self_iff.1
    ((List.takeWhile_sublist (· != '(')).eq_of_length hlength) '(' h
  cases hall

theorem called_open (name : String) : called (name ++ "(") = called name := by
  have hopen : "(".toList = ['('] := rfl
  unfold called
  rw [String.toList_append, hopen, List.takeWhile_append]
  split
  · rename_i hlength
    rw [(List.takeWhile_sublist _).eq_of_length hlength]
    simp
  · rfl

def crudName : Crud → String
  | .create => "Create"
  | .read => "Get"
  | .update => "Update"
  | .delete => "Delete"
  | .list => "List"

def supported (s : Schema) : List Crud :=
  Crud.all.filter fun op => (s.extension.bind (·.repository)).all (·.supports op)

def addedMethods (s : Schema) : List Method :=
  ((s.extension.bind (·.repository)).map (·.methods)).getD []

def addedName (m : Method) : String := called (Name.pascal m.name)

theorem called_crudText (s : Schema) (op : Crud) : called (crudText s op) = crudName op := by
  unfold crudText
  simp only [String.append_assoc]
  cases op with
  | create =>
    exact (called_append "Create(ctx context.Context, entity " _ (by decide)).trans (by decide)
  | read => exact (called_append "Get(ctx context.Context, id " _ (by decide)).trans (by decide)
  | update => exact (called_append "Update(ctx context.Context, id " _ (by decide)).trans (by decide)
  | delete => exact (called_append "Delete(ctx context.Context, id " _ (by decide)).trans (by decide)
  | list =>
    exact (called_append "List(ctx context.Context, limit int32, offset int32) ([]" _
      (by decide)).trans (by decide)

theorem name_addedSignature (s : Schema) (m : Method) :
    (addedSignature s m).name = addedName m := by
  unfold addedSignature Signature.name
  simp only [toString, String.append_assoc]
  rw [← String.append_assoc, called_append, called_open]
  · rfl
  · simp

/-- **The methods of a repository** are called like the operations that it supports and those that it
adds. -/
theorem names_signatures (s : Schema) :
    (signatures s).map Signature.name = (supported s).map crudName ++ (addedMethods s).map addedName := by
  unfold signatures
  dsimp only
  rw [List.map_append, List.map_map, List.map_map]
  exact congrArg₂ (· ++ ·) (List.map_congr_left fun op _ => called_crudText s op)
    (List.map_congr_left fun a _ => name_addedSignature s a)

theorem nodup_names_signatures_iff (s : Schema) : ((signatures s).map Signature.name).Nodup ↔
    (addedMethods s).Pairwise (fun a b => addedName a ≠ addedName b) ∧
      ∀ op ∈ supported s, ∀ a ∈ addedMethods s, addedName a ≠ crudName op := by
  have hall : (Crud.all.map crudName).Nodup := by decide
  have hsupported : ((supported s).map crudName).Nodup := hall.sublist (List.filter_sublist.map _)
  rw [names_signatures, List.nodup_append, and_iff_right hsupported, List.Nodup, List.pairwise_map]
  refine and_congr_right fun _ => ?_
  simp only [List.forall_mem_map]
  exact forall₄_congr fun op _ a _ => ne_comm

/-! ### Fields of a request -/

theorem nodup_names_requestFields_iff {op : Operation}
    (hdistinct : (op.parameters.map Parameter.identity).Nodup) :
    ((requestFields op).map (·.name)).Nodup ↔
      (∀ p ∈ op.parameters, ∀ q ∈ op.parameters,
        Code.fieldName p.name = Code.fieldName q.name → p.identity = q.identity) ∧
      (op.requestBody.isSome → ∀ p ∈ op.parameters, Code.fieldName p.name ≠ "Body") := by
  have hnames : (requestFields op).map (·.name)
      = op.parameters.map (fun p => Code.fieldName p.name)
        ++ (op.requestBody.map fun _ => "Body").toList := by
    unfold requestFields
    dsimp only
    rw [List.map_append, List.map_map]
    cases op.requestBody with
    | none => rfl
    | some b => rfl
  have hparameters := nodup_map_iff_of_key hdistinct fun p => Code.fieldName p.name
  rw [hnames]
  cases op.requestBody with
  | none => simpa using hparameters
  | some b => simp [List.nodup_append, hparameters]

/-! ### The main result -/

/-- **Nothing is declared twice in one scope**: for no schema, in no request, in no repository and not
among the packages of a program that only composes packages. -/
structure NamedOnce (module : String) (m : Model) : Prop where
  declarations : ∀ s ∈ m.schemas, Code.DeclaredOnce (Code.declarations s)
  requests : ∀ op ∈ m.operations, ((requestFields op).map (·.name)).Nodup
  methods : ∀ s ∈ persisted m, ((signatures s).map Signature.name).Nodup
  packages : m.isComposition = true → ((composed module m).map (·.name)).Nodup

/-- **Names that give different names**: in each schema; of the parameters of an operation, and beside
its body; of the methods that a repository adds, and beside the standard ones that it supports; and of
the tags of composed packages. -/
structure SourcesDiffer (m : Model) : Prop where
  schemas : ∀ s ∈ m.schemas, Code.NamesDiffer s
  parameters : ∀ op ∈ m.operations, ∀ p ∈ op.parameters, ∀ q ∈ op.parameters,
    Code.fieldName p.name = Code.fieldName q.name → p.identity = q.identity
  body : ∀ op ∈ m.operations, op.requestBody.isSome →
    ∀ p ∈ op.parameters, Code.fieldName p.name ≠ "Body"
  added : ∀ s ∈ persisted m, (addedMethods s).Pairwise fun a b => addedName a ≠ addedName b
  standard : ∀ s ∈ persisted m, ∀ op ∈ supported s, ∀ a ∈ addedMethods s, addedName a ≠ crudName op
  packages : m.isComposition = true → ∀ t ∈ m.composedPackages, ∀ u ∈ m.composedPackages,
    Name.package t = Name.package u → t = u

theorem nodup_composed_iff (module : String) (m : Model) : ((composed module m).map (·.name)).Nodup ↔
    ∀ t ∈ m.composedPackages, ∀ u ∈ m.composedPackages, Name.package t = Name.package u → t = u := by
  have hnodup : (m.composedPackages.map id).Nodup := by
    rw [List.map_id]
    exact (Keyed.pairwise_keysOfList _).imp fun hlt => hlt.ne
  have hnames : (composed module m).map (·.name) = m.composedPackages.map Name.package := by
    simp only [composed, List.map_map, Function.comp_def]
  rw [hnames, nodup_map_iff_of_key hnodup]
  rfl

theorem nodup_keys_structured {doc : Json} {context : String} {m : Model}
    (h : Model.build doc context = .ok m) {s : Schema} (hs : s ∈ m.schemas) :
    ∀ b ∈ Code.structured s, (b.properties.map Prod.fst).Nodup := by
  obtain ⟨built, hbuilt, hproperties, hitems⟩ := Model.isBuilt_of_mem h hs
  -- the struct has a name of its own, and the properties of the schema
  have hkeyed : Schema.WellKeyed (Reference.components doc "schemas")
      { s with name := Name.pascal s.name } := by
    obtain ⟨hkeys, hall⟩ := hbuilt.wellKeyed
    rw [← hproperties] at hkeys hall
    exact ⟨hkeys, hall⟩
  intro b hb
  rcases Code.mem_structured_imp hb with hb | ⟨i, hi, hb⟩
  · rcases List.mem_cons.1 hb with rfl | hb
    · exact hkeyed.nodup
    · exact (hkeyed.nestedTypes b hb).nodup
  · rw [hb]
    exact (hbuilt.items (hitems ▸ hi)).wellKeyed.nodup

/-- **Of which models nothing is declared twice.** -/
theorem namedOnce_iff (doc : Json) (context : String) (m : Model)
    (h : Model.build doc context = .ok m) (module : String) :
    NamedOnce module m ↔ SourcesDiffer m := by
  have hschemas : ∀ s ∈ m.schemas, Code.DeclaredOnce (Code.declarations s) ↔ Code.NamesDiffer s :=
    fun s hs => Code.declaredOnce_iff (nodup_keys_structured h hs)
  have hrequests := fun op hop => nodup_names_requestFields_iff (Model.nodup_parameters (o := op) h hop)
  constructor
  · rintro ⟨hdeclarations, hfields, hmethods, hpackages⟩
    exact {
      schemas := fun s hs => (hschemas s hs).mp (hdeclarations s hs)
      parameters := fun op hop => ((hrequests op hop).mp (hfields op hop)).1
      body := fun op hop => ((hrequests op hop).mp (hfields op hop)).2
      added := fun s hs => ((nodup_names_signatures_iff s).mp (hmethods s hs)).1
      standard := fun s hs => ((nodup_names_signatures_iff s).mp (hmethods s hs)).2
      packages := fun hm => (nodup_composed_iff module m).mp (hpackages hm) }
  · rintro ⟨hnames, hparameters, hbody, hadded, hstandard, hpackages⟩
    exact {
      declarations := fun s hs => (hschemas s hs).mpr (hnames s hs)
      requests := fun op hop => (hrequests op hop).mpr ⟨hparameters op hop, hbody op hop⟩
      methods := fun s hs => (nodup_names_signatures_iff s).mpr ⟨hadded s hs, hstandard s hs⟩
      packages := fun hm => (nodup_composed_iff module m).mpr (hpackages hm) }

/-! ### Choices of one name -/

/-- Orders: an object with a code in place, and choices under one more property. -/
def orderDocument (property : String) : Json :=
  let choices : Json := .obj [("enum", .arr [.str "open", .str "closed"]), ("type", .str "string")]
  .obj [("components", .obj [("schemas", .obj [("Order", .obj [
    ("properties", .obj [
      ("status", .obj [("properties", .obj [("code", choices)]), ("type", .str "object")]),
      (property, choices)]),
    ("type", .str "object")])])])]

def stateSchema (name : String) : Schema :=
  { name, type := some "string", choices := ["open", "closed"] }

def statusSchema (name : String) : Schema :=
  { name, type := some "object", properties := [("code", stateSchema "code")] }

def orderSchema (property : String) : Schema where
  name := "Order"
  type := some "object"
  properties := [("status", statusSchema "status"), (property, stateSchema property)]

theorem nestedTypes_order {property : String} (h : Name.propertyLe "status" property = true) :
    (orderSchema property).nestedTypes = [statusSchema "OrderStatus"] := by
  have hsorted : (orderSchema property).sortedProperties
      = [("status", statusSchema "status"), (property, stateSchema property)] :=
    List.mergeSort_of_pairwise (by simp [orderSchema, h])
  have hcode : (statusSchema "status").sortedProperties = [("code", stateSchema "code")] :=
    List.mergeSort_singleton _
  have hstatus : (statusSchema "status").inlineBody? = some (statusSchema "status") := rfl
  have hstate : ∀ name, (stateSchema name).inlineBody? = none := fun _ => rfl
  have hname : Name.nestedType "Order" "status" = "OrderStatus" := by decide
  rw [Schema.nestedTypes, Schema.collectNested_eq, hsorted]
  simp only [List.foldl_cons, List.foldl_nil, Schema.addNested, hstatus, hstate]
  rw [Schema.collectNested_eq, hcode]
  simp only [List.foldl_cons, List.foldl_nil, Schema.addNested, hstate]
  rw [List.any_nil, if_neg Bool.false_ne_true, List.nil_append]
  exact congrArg (fun name => [statusSchema name]) hname

theorem structured_order {property : String} (h : Name.propertyLe "status" property = true) :
    Code.structured (orderSchema property) = [orderSchema property, statusSchema "OrderStatus"] := by
  have hname : Name.pascal "Order" = "Order" := by decide
  have hbodies : Code.structured (orderSchema property) = Code.bodies (orderSchema property) := rfl
  have hself : { orderSchema property with name := Name.pascal (orderSchema property).name }
      = orderSchema property := congrArg (fun name => { orderSchema property with name }) hname
  rw [hbodies, Code.bodies, hself, nestedTypes_order h]

theorem placed_order {property : String} (h : Name.propertyLe "status" property = true) :
    Code.placed (orderSchema property) = [⟨"Order", property, stateSchema property⟩,
      ⟨"OrderStatus", "code", stateSchema "code"⟩] := by
  rw [Code.placed, structured_order h]
  rfl

theorem namesDiffer_order : Code.NamesDiffer (orderSchema "status_note") := by
  have hle : Name.propertyLe "status" "status_note" = true := by decide +kernel
  have hplaced := placed_order hle
  have hstructured := structured_order hle
  have henumerated : Code.enumerated (orderSchema "status_note")
      = [(Name.nestedType "Order" "status_note", stateSchema "status_note"),
        (Name.nestedType "OrderStatus" "code", stateSchema "code")] := by
    rw [Code.enumerated, hplaced]
    rfl
  constructor
  case root =>
    intro _
    decide +kernel
  case types =>
    rw [hplaced]
    decide +kernel
  case apart =>
    rw [hplaced, hstructured]
    decide +kernel
  case fields =>
    rw [hstructured]
    decide +kernel
  case values =>
    rw [henumerated]
    decide +kernel
  case constants =>
    rw [Code.constantsOf, henumerated]
    decide +kernel

/-- With a name of their own the choices do no harm. -/
theorem namedOnce_order : ∃ m, Model.build (orderDocument "status_note") "" = .ok m ∧
    m.schemas = [orderSchema "status_note"] ∧ NamedOnce "orders" m := by
  have hbuilt : (Model.buildWithin 6 (orderDocument "status_note") "").toOption.map (·.schemas)
      = some [orderSchema "status_note"] := by rfl
  obtain ⟨m, hm, hschemas⟩ := Model.exists_build_of_map hbuilt
  -- the document has no paths, so no operation was built
  have hoperations : m.operations = [] := by
    refine List.eq_nil_iff_forall_not_mem.mpr fun o ho => ?_
    obtain ⟨s, hs, -⟩ := Model.built_of_mem_operations hm ho
    cases hs.item
  have hpersisted : persisted m = [] := by
    rw [persisted, Model.ownSchemas, hschemas]
    rfl
  have hcomposition : m.isComposition = false := by
    rw [Model.isComposition, Model.composedPackages, Model.composedOperations, hoperations, hschemas,
      Model.ownOperations, hoperations]
    rfl
  refine ⟨m, hm, hschemas, (namedOnce_iff _ _ m hm "orders").mpr ?_⟩
  constructor
  case schemas =>
    rw [hschemas, List.forall_mem_singleton]
    exact namesDiffer_order
  case parameters | body =>
    rw [hoperations]
    exact nofun
  case added | standard =>
    rw [hpersisted]
    exact nofun
  case packages =>
    rw [hcomposition]
    exact nofun

/-- The type of the choices under `status_code` is that of the code under `status`. -/
theorem not_forall_namedOnce : ¬∀ (doc : Json) (context : String) (m : Model) (module : String),
    Model.build doc context = .ok m → NamedOnce module m := by
  intro h
  have hbuilt : (Model.buildWithin 6 (orderDocument "status_code") "").toOption.map (·.schemas)
      = some [orderSchema "status_code"] := by rfl
  obtain ⟨m, hm, hschemas⟩ := Model.exists_build_of_map hbuilt
  have hmem : orderSchema "status_code" ∈ m.schemas := by
    rw [hschemas]
    exact List.mem_cons_self
  have honce := (h _ _ m "orders" hm).declarations _ hmem
  have hdiffer := (Code.declaredOnce_iff (nodup_keys_structured hm hmem)).mp honce
  have hle : Name.propertyLe "status" "status_code" = true := by decide +kernel
  have hplaced := placed_order hle
  have hsame := hdiffer.types ⟨"Order", "status_code", stateSchema "status_code"⟩ (by simp [hplaced])
    ⟨"OrderStatus", "code", stateSchema "code"⟩ (by simp [hplaced]) (by decide)
  exact absurd hsame.1 (by decide)

end Backend
end ApiScaffold
