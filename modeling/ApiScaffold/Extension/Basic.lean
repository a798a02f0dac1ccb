/-!
# The code generation extension of a schema

What `x-codegen` can say of a schema: its role, its repository and its table.
-/

namespace ApiScaffold

/-- Entities have an identity and can be stored; value objects only carry data. -/
inductive Role where
  | entity
  | valueObject
  deriving DecidableEq

def Role.name : Role → String
  | .entity => "entity"
  | .valueObject => "valueobject"

/-- The five standard operations of a repository. -/
inductive Crud where
  | create
  | read
  | update
  | delete
  | list
  deriving DecidableEq

namespace Crud

def all : List Crud := [.create, .read, .update, .delete, .list]

def name : Crud → String
  | .create => "create"
  | .read => "read"
  | .update => "update"
  | .delete => "delete"
  | .list => "list"

end Crud

/-- What a repository method gives back. -/
inductive Cardinality where
  | single
  | multiple
  | void
  | exist
  | count
  deriving DecidableEq

namespace Cardinality

def all : List Cardinality := [.single, .multiple, .void, .exist, .count]

def name : Cardinality → String
  | .single => "single"
  | .multiple => "multiple"
  | .void => "void"
  | .exist => "exists"
  | .count => "count"

end Cardinality

structure MethodParam where
  name : String
  type : Option String
  deriving DecidableEq

structure Method where
  name : String
  params : List MethodParam
  returns : Cardinality
  query : Option String
  deriving DecidableEq

/-- `field` refers to `references`, with what happens there on deletion and on change. -/
structure Relation where
  field : String
  references : String
  onDelete : Option String
  onUpdate : Option String
  deriving DecidableEq

structure Index where
  name : Option String
  fields : List String
  unique : Bool
  condition : Option String
  deriving DecidableEq

/-- A query written out by hand; `kind` says what it gives back. -/
structure CustomQuery where
  name : String
  kind : String
  sql : String
  description : Option String
  deriving DecidableEq

structure Database where
  table : Option String
  relations : List Relation
  indices : List Index
  queries : List CustomQuery
  deriving DecidableEq

structure Repository where
  operations : List Crud
  indices : List String
  methods : List Method
  relations : List Relation
  deriving DecidableEq

def Repository.supports (r : Repository) (op : Crud) : Bool := r.operations.contains op

structure Extension where
  role : Role
  repository : Option Repository
  database : Option Database
  deriving DecidableEq

end ApiScaffold
