/-!
# TOML tables

The items of a document, and how key paths and headers add to its tables.  A table may be given only
once: `Item.table` keeps how it came to be, and so what may still be added to it.
-/

namespace ApiScaffold.Toml

/-- How a table came to be. -/
inductive Origin where
  /-- Only a header of a table below it has been seen. -/
  | implied
  /-- By the keys of a dotted path. -/
  | dotted
  | header
  | inline
  deriving DecidableEq

/-- Of numbers and times only that they are there. -/
inductive Item where
  | str (s : String)
  | bool (b : Bool)
  | scalar
  | array (items : List Item)
  | table (origin : Origin) (entries : List (String × Item))
  /-- Tables that have one header each. -/
  | tables (list : List (List (String × Item)))

abbrev Table := List (String × Item)

namespace Item

def str? : Item → Option String
  | str s => some s
  | _ => none

def bool? : Item → Option Bool
  | bool b => some b
  | _ => none

/-- The items of a list, in either form. -/
def items? : Item → Option (List Item)
  | array items => some items
  | tables list => some (list.map (table .header))
  | _ => none

def table? : Item → Option Table
  | table _ entries => some entries
  | _ => none

end Item

/-- What may be done to a table that is there, where a path goes on to it. -/
def mayExtend (byKey : Bool) : Origin → Bool
  | .inline => false
  | .header => !byKey
  | _ => true

namespace Table

/-- `item` under `key`, in the place of what is there. -/
def put (t : Table) (key : String) (item : Item) : Table :=
  if t.any (·.1 == key) then t.map fun e => if e.1 == key then (key, item) else e
  else t ++ [(key, item)]

/-- The table with a change to the one that a path leads to; missing tables are made, and of tables
with one header each the last one is meant. -/
def change? (byKey : Bool) (f : Origin → Table → Option Table) :
    List String → Origin → Table → Option Table
  | [], origin, t => f origin t
  | key :: path, _, t =>
    match t.lookup key with
    | none => do
      let origin : Origin := if byKey then .dotted else .implied
      return t.put key (.table origin (← change? byKey f path origin []))
    | some (.table origin inner) => do
      if mayExtend byKey origin then
        return t.put key (.table origin (← change? byKey f path origin inner))
      else none
    | some (.tables list) => do
      let inner ← change? byKey f path .header (← list.getLast?)
      return t.put key (.tables (list.dropLast ++ [inner]))
    | some _ => none

/-- A value under a path of keys.  A path of several keys adds only to tables that such paths have
made. -/
def assign? (t : Table) (path : List String) (key : String) (value : Item) : Option Table :=
  change? true (fun origin t =>
    if (origin == .dotted) == path.isEmpty || t.any (·.1 == key) then none
    else some (t.put key value)) path .header t

/-- The table of a header; only an implied one may be there. -/
def openTable? (t : Table) (path : List String) (key : String) : Option Table :=
  change? false (fun _ t =>
    match t.lookup key with
    | none => some (t.put key (.table .header []))
    | some (.table .implied inner) => some (t.put key (.table .header inner))
    | some _ => none) path .header t

/-- One more of several tables with the same header. -/
def openElement? (t : Table) (path : List String) (key : String) : Option Table :=
  change? false (fun _ t =>
    match t.lookup key with
    | none => some (t.put key (.tables [[]]))
    | some (.tables list) => some (t.put key (.tables (list ++ [[]])))
    | some _ => none) path .header t

end Table
end ApiScaffold.Toml
