import ApiScaffold.Backend.Source
import ApiScaffold.Code.TypeExpr

/-!
# The handlers package

One file per own operation, with its request and the interface of its handler; for a custom operation
also the file that its author goes on from, which is written only once.
-/

namespace ApiScaffold.Backend

/-- A schema without the types that it describes in place. -/
def erased (s : Schema) : Schema :=
  if s.reference.isSome then s
  else
    let items := match _h : s.items with
      | some i => some (erased i)
      | none => none
    if s.isInlineObject then { s with choices := [], properties := [], type := some "object", items }
    else { s with choices := [], items }
termination_by sizeOf s
decreasing_by exact Schema.sizeOf_items_lt _h

/-- The type of a part of a request. -/
def handlerType (s : Schema) (parent property : String) (required : Bool) : Code.TypeExpr :=
  Code.fieldType (erased s) parent property required "models."

/-- The type that a handler gives back beside the error: a declared one, or a list of it. -/
def resultType? (op : Operation) : Option Code.TypeExpr :=
  (op.success?.bind (·.schema)).map fun s =>
    match s.reference, s.items with
    | some target, _ => .pointer (.component "models." (Name.pascal target))
    | none, some items =>
      if items.reference.isSome then .slice (Code.typeOf items "" "" "models.") else .builtin "any"
    | none, none => .builtin "any"

def returns (op : Operation) : String :=
  match resultType? op with
  | some t => s!"({t.text}, error)"
  | none => "error"

structure RequestField where
  name : String
  type : Code.TypeExpr
  tag : String

def parameterField (parent : String) (p : Parameter) : RequestField :=
  let type := match p.schema with
    | some s => handlerType s parent p.name p.required
    | none => .builtin "string"
  ⟨Name.unreserved (Name.pascal p.name), type, s!"{p.location.name}:\"{p.name}\""⟩

/-- A body of a declared type is a pointer. -/
def bodyField (parent : String) (b : RequestBody) : RequestField :=
  let type := match b.schema with
    | some s => handlerType s parent "body" true
    | none => .builtin "map[string]any"
  ⟨"Body", if Text.startsWith "models." type.text then .pointer type else type, "json:\"body\""⟩

def requestFields (op : Operation) : List RequestField :=
  let parent := Name.pascal op.id ++ "Request"
  op.parameters.map (parameterField parent) ++ (op.requestBody.map (bodyField parent)).toList

/-- The models package, if one of the types needs it. -/
def modelImport (module : String) (types : List String) : List String :=
  if types.any (Text.contains "models.") then [module ++ "/models"] else []

def handlerFile (module : String) (op : Operation) : String :=
  let name := Name.pascal op.id
  let fields := requestFields op
  let types := fields.map (·.type.text) ++ [returns op]
  page <| packageLines "handlers" ++ [""]
    ++ importLines (["context"] ++ Code.importsFor types ++ modelImport module types)
    ++ ["", s!"// {name}Request carries the inputs of {op.method} {op.path}.",
      s!"type {name}Request struct \x7b"]
    ++ fields.map (fun f => s!"\t{f.name} {f.type.text} \x60{f.tag}\x60")
    ++ ["\x7d", "", s!"// {name}Handler serves {op.id}: {op.summary}",
      s!"type {name}Handler interface \x7b",
      s!"\tHandle(ctx context.Context, req *{name}Request) {returns op}", "\x7d"]

/-- A handler that says that it is not implemented. -/
def stubFile (module : String) (op : Operation) : String :=
  let name := Name.pascal op.id
  let types := [returns op]
  let missing := s!"errors.New(\"{op.id} is not implemented\")"
  page <| ["package handlers", ""]
    ++ importLines (["context", "errors"] ++ Code.importsFor types ++ modelImport module types)
    ++ ["", s!"// {name}HandlerImpl implements {name}Handler.",
      "//",
      "// This file is yours: it is created once and never overwritten. Constructor",
      "// parameters are wired by the generated bootstrap code.",
      s!"type {name}HandlerImpl struct\x7b\x7d",
      "",
      s!"// New{name}Handler creates the {op.id} handler.",
      s!"func New{name}Handler() *{name}HandlerImpl \x7b",
      s!"\treturn &{name}HandlerImpl\x7b\x7d",
      "\x7d",
      "",
      s!"// Handle implements {name}Handler.",
      s!"func (h *{name}HandlerImpl) Handle(ctx context.Context, req *{name}Request) {returns op} \x7b",
      "\treturn " ++ (if returns op == "error" then missing else "nil, " ++ missing),
      "\x7d"]

def handlerPath (op : Operation) : String := s!"handlers/{Name.snake op.id}.gen.go"

def stubPath (op : Operation) : String := s!"handlers/{Name.snake op.id}.impl.go"

/-- A file that its author has started is left alone. -/
def writeStub (module : String) (op : Operation) : Script :=
  .look ⟨stubPath op⟩ fun found => if found then .done else .put (stubPath op) (stubFile module op)

def writeHandler (module : String) (op : Operation) : Script :=
  (Script.put (handlerPath op) (handlerFile module op)).andThen
    (if op.customHandler then writeStub module op else .done)

def handlers (module : String) (m : Model) : Script :=
  .sequence (m.ownOperations.map (writeHandler module))

end ApiScaffold.Backend
