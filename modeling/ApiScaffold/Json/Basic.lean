import ApiScaffold.Keyed
import ApiScaffold.Number.Binary64

/-!
# JSON values

`Json`, its numbers, and the look-ups that the rest of the library makes.  The fields of an object
stand in the order of their keys; `Json.ofFields` puts them there, `Json.Sorted` says so.
-/

namespace ApiScaffold

/-- Whole numbers of 64 bits, signed or not, are kept apart from the others. -/
inductive Number where
  | int (n : Int)
  | float (x : Binary64)
  deriving DecidableEq

inductive Json where
  | null
  | bool (b : Bool)
  | num (n : Number)
  | str (s : String)
  | arr (items : List Json)
  | obj (fields : List (String × Json))

namespace Json

instance : Inhabited Json := ⟨.null⟩

mutual

def beq : Json → Json → Bool
  | .null, .null => true
  | .bool a, .bool b => a == b
  | .num a, .num b => a == b
  | .str a, .str b => a == b
  | .arr a, .arr b => beqItems a b
  | .obj a, .obj b => beqFields a b
  | _, _ => false

def beqItems : List Json → List Json → Bool
  | [], [] => true
  | a :: as, b :: bs => beq a b && beqItems as bs
  | _, _ => false

def beqFields : List (String × Json) → List (String × Json) → Bool
  | [], [] => true
  | (k, a) :: as, (l, b) :: bs => k == l && beq a b && beqFields as bs
  | _, _ => false

end

instance : BEq Json := ⟨beq⟩

/-- The later of two fields with one key counts. -/
def ofFields (fields : List (String × Json)) : Json :=
  .obj (Keyed.ofList fields)

mutual

/-- In every object the keys increase. -/
def Sorted : Json → Prop
  | .arr items => SortedItems items
  | .obj fields => (fields.map Prod.fst).Pairwise (· < ·) ∧ SortedFields fields
  | _ => True

def SortedItems : List Json → Prop
  | [] => True
  | v :: rest => Sorted v ∧ SortedItems rest

def SortedFields : List (String × Json) → Prop
  | [] => True
  | (_, v) :: rest => Sorted v ∧ SortedFields rest

end

/-- The value of a field, if this is an object that has it. -/
def get? (v : Json) (key : String) : Option Json :=
  match v with
  | .obj fields => fields.lookup key
  | _ => none

def hasKey (v : Json) (key : String) : Bool := (v.get? key).isSome

def str? : Json → Option String
  | .str s => some s
  | _ => none

def bool? : Json → Option Bool
  | .bool b => some b
  | _ => none

def arr? : Json → Option (List Json)
  | .arr items => some items
  | _ => none

def obj? : Json → Option (List (String × Json))
  | .obj fields => some fields
  | _ => none

def isNull : Json → Bool
  | .null => true
  | _ => false

def isObj (v : Json) : Bool := v.obj?.isSome

def getStr? (v : Json) (key : String) : Option String := (v.get? key).bind str?

def getArr? (v : Json) (key : String) : Option (List Json) := (v.get? key).bind arr?

def getObj? (v : Json) (key : String) : Option (List (String × Json)) := (v.get? key).bind obj?

/-- The items of an array field, none if there is no such field. -/
def items (v : Json) (key : String) : List Json := (v.getArr? key).getD []

/-- The fields of an object field, none if there is no such field. -/
def fields (v : Json) (key : String) : List (String × Json) := (v.getObj? key).getD []

/-- The same object with one field bound anew; any other value is left alone. -/
def set (v : Json) (key : String) (value : Json) : Json :=
  match v with
  | .obj fields => .obj (Keyed.insert key value fields)
  | _ => v

theorem sizeOf_item_lt {v : Json} {items : List Json} (h : v ∈ items) :
    sizeOf v < sizeOf (arr items) := by
  have := List.sizeOf_lt_of_mem h
  rw [arr.sizeOf_spec]
  omega

theorem sizeOf_field_lt {p : String × Json} {fields : List (String × Json)} (h : p ∈ fields) :
    sizeOf p.2 < sizeOf (obj fields) := by
  have := List.sizeOf_lt_of_mem h
  have : sizeOf p = 1 + sizeOf p.1 + sizeOf p.2 := rfl
  rw [obj.sizeOf_spec]
  omega

end Json
end ApiScaffold
