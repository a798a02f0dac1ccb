import ApiScaffold.Backend.Routes
import ApiScaffold.Code.Declaration
import ApiScaffold.Proofs.Code.Literal
import ApiScaffold.Proofs.Operation.Public

/-!
# Texts of a document as string literals

The choices of an enumeration of strings and the texts of a route are written as quoted texts.
`literals_read_back_iff` says which of them are read as they stand in the document.
-/

namespace ApiScaffold.Backend

open Code (enumeration)
open Code.Literal

/-- **The literal means the text**: it can be read, as the bytes of the text. -/
def Means (literal text : String) : Prop := value? literal.toList = some (utf8 text.toList)

/-- All characters are written as they are, or by a sign. -/
def IsPlainText (s : String) : Prop := ∀ c ∈ s.toList, IsPlain c

instance : DecidablePred IsPlainText := fun s => List.decidableBAll _ s.toList

def routeTexts (op : Operation) : List String :=
  op.method :: op.path :: op.id :: op.tag :: op.security.map (·.name)

/-- **The route means its texts**: its literals can be read, and these are their values. -/
def RouteMeans (op : Operation) : Prop :=
  values? (routeLine op).toList = some ((routeTexts op).map fun t => utf8 t.toList)

theorem means_quote_iff (s : String) : Means (Text.quote s) s ↔ IsPlainText s := by
  rw [Means, Text.quote, String.toList_ofList, value?_quoteChars_iff, IsPlainText]

/-! ### Routes -/

/-- What stands between the tag and the schemes of a route. -/
def schemesStart (op : Operation) : String :=
  ", Public: " ++ toString op.isPublic ++ ", Schemes: []string\x7b"

theorem quote_notMem_schemesStart (op : Operation) : '"' ∉ (schemesStart op).toList := by
  unfold schemesStart
  cases op.isPublic <;> decide

theorem toList_routeLine (op : Operation) : (routeLine op).toList =
    "\t\x7bMethod: ".toList ++ (Text.quoteChars op.method.toList ++
    (", Path: ".toList ++ (Text.quoteChars op.path.toList ++
    (", OperationID: ".toList ++ (Text.quoteChars op.id.toList ++
    (", Tag: ".toList ++ (Text.quoteChars op.tag.toList ++
    ((schemesStart op).toList ++
      (", ".toList.intercalate ((op.security.map (·.name.toList)).map Text.quoteChars)
        ++ "\x7d\x7d,".toList))))))))) := by
  have hschemes : (", ".intercalate (op.security.map fun r => Text.quote r.name)).toList
      = ", ".toList.intercalate ((op.security.map (·.name.toList)).map Text.quoteChars) := by
    rw [String.toList_intercalate, List.map_map, List.map_map]
    simp only [Function.comp_def, Text.quote, String.toList_ofList]
  have hstart : (schemesStart op).toList = ", Public: ".toList ++ ((toString op.isPublic).toList ++
      (", ".toList ++ "Schemes: []string\x7b".toList)) := by
    unfold schemesStart
    cases op.isPublic <;> decide
  rw [hstart]
  unfold routeLine
  simp only [String.toList_append, hschemes, toString, List.append_assoc]
  simp only [Text.quote, String.toList_ofList]

theorem routeMeans_iff (op : Operation) : RouteMeans op ↔ ∀ t ∈ routeTexts op, IsPlainText t := by
  have hvalues : (routeTexts op).map (fun t => utf8 t.toList) = utf8 op.method.toList ::
      utf8 op.path.toList :: utf8 op.id.toList :: utf8 op.tag.toList ::
        (op.security.map (·.name.toList)).map utf8 := by
    rw [List.map_map]
    simp only [routeTexts, List.map_cons, List.map_map, Function.comp_def]
  rw [RouteMeans, toList_routeLine, hvalues, values?_quoted_iff (by decide),
    values?_quoted_iff (by decide), values?_quoted_iff (by decide), values?_quoted_iff (by decide),
    values?_listed_iff (quote_notMem_schemesStart op) (by decide) (by decide)]
  simp only [routeTexts, List.forall_mem_cons, List.forall_mem_map, IsPlainText]

theorem isPlainText_method {doc : Json} {context : String} {m : Model}
    (h : Model.build doc context = .ok m) {op : Operation} (hop : op ∈ m.operations) :
    IsPlainText op.method := by
  have hplain : ∀ method ∈ Operation.methods, IsPlainText (Text.toUpperAscii method) := by
    decide +kernel
  obtain ⟨s, hs, hreads, -⟩ := Model.exists_site_of_mem_operations h hop
  rw [hreads.method]
  exact hplain _ hs.method

/-! ### The main result -/

/-- **Which texts are read as they stand in the document**: each choice of an enumeration of strings by
itself, the texts of a route together. -/
theorem literals_read_back_iff (name : String) (s : Schema) (doc : Json) (context : String) :
    ((enumeration name s).base = "string" →
      List.Forall₂ (fun choice value => Means value.2 choice ↔ IsPlainText choice) s.choices
        (enumeration name s).values) ∧
    ∀ m, Model.build doc context = .ok m → ∀ op ∈ m.operations, RouteMeans op ↔
      IsPlainText op.path ∧ IsPlainText op.id ∧ IsPlainText op.tag ∧
        ∀ r ∈ op.security, IsPlainText r.name := by
  refine ⟨fun hbase => ?_, fun m hm op hop => ?_⟩
  · have hvalues : (enumeration name s).values
        = s.choices.map fun v => (Code.constantName name v, Text.quote v) := by
      have hstring : ((Code.scalar? s).getD "string" == "string") = true := beq_iff_eq.mpr hbase
      simp only [enumeration, hstring, if_true]
    rw [hvalues, List.forall₂_map_right_iff, List.forall₂_same]
    exact fun choice _ => means_quote_iff choice
  · rw [routeMeans_iff, routeTexts]
    simp only [List.forall_mem_cons, List.forall_mem_map, isPlainText_method hm hop, true_and]

def colour (choice : String) : Schema where
  name := "Colour"
  type := some "string"
  choices := [choice]

theorem values_colour (choice : String) : (enumeration "Colour" (colour choice)).values
    = [(Code.constantName "Colour" choice, Text.quote choice)] := rfl

/-- A colour with quotes around it, and the routes of a document without schemes. -/
theorem literals_read_back_colour :
    (enumeration "Colour" (colour "\"red\"")).base = "string" ∧
      List.Forall₂ (fun choice value => Means value.2 choice) (colour "\"red\"").choices
        (enumeration "Colour" (colour "\"red\"")).values ∧
      ∃ m, Model.build (Model.guardedDocument (.arr [.obj []])) "" = .ok m ∧
        m.operations.length = 1 ∧ ∀ op ∈ m.operations, RouteMeans op ↔
          IsPlainText op.path ∧ IsPlainText op.id ∧ IsPlainText op.tag ∧
            ∀ r ∈ op.security, IsPlainText r.name := by
  have hbuilt : Model.publicOperations? (Model.buildWithin 3
      (Model.guardedDocument (.arr [.obj []])) "") = some [true] := by
    decide +kernel
  obtain ⟨m, op, hm, ho, -⟩ := Model.exists_of_publicOperations? hbuilt
  obtain ⟨henumeration, hroutes⟩ := literals_read_back_iff "Colour" (colour "\"red\"")
    (Model.guardedDocument (.arr [.obj []])) ""
  refine ⟨rfl, ?_, m, hm, by rw [ho]; rfl, hroutes m hm⟩
  have hiff := henumeration rfl
  rw [values_colour] at hiff
  rw [values_colour]
  cases hiff with
  | cons hiff _ => exact .cons (hiff.mpr (by decide +kernel)) .nil

/-- A space without width is written by its code point in braces, and this cannot be read. -/
theorem not_forall_literals_read_back : ¬∀ (name : String) (s : Schema),
    (enumeration name s).base = "string" →
      List.Forall₂ (fun choice value => Means value.2 choice) s.choices (enumeration name s).values := by
  intro h
  have hmeans := h "Colour" (colour "light\u200bblue") rfl
  rw [values_colour] at hmeans
  cases hmeans with
  | cons hmeans _ => exact absurd ((means_quote_iff _).mp hmeans) (by decide +kernel)

end ApiScaffold.Backend
