import TypedClient.Decimal.Double
import TypedClient.Fault

/-! JSON values whose objects keep the order of their members. Numbers are integers of any size
or binary64 numbers, which stay apart though they may be equal. A key is mostly text, but a
specification may also use another scalar as a key. -/
namespace TypedClient

inductive Key where
  | text (value : String)
  | int (value : Int)
  | float (value : Double)
  | bool (value : Bool)
  | null
deriving DecidableEq, Repr, Inhabited

inductive Json where
  | null
  | bool (value : Bool)
  | int (value : Int)
  | float (value : Double)
  | str (value : String)
  | arr (items : List Json)
  | obj (members : List (Key × Json))
deriving Repr, Inhabited

namespace Key

instance : Coe String Key := ⟨.text⟩

/-- The numeric value of a key; the truth values count as one and zero. -/
def quantity? : Key → Option Quantity
  | .int n => some (.ofInt n)
  | .float x => some (.ofDouble x)
  | .bool b => some (.ofInt (if b then 1 else 0))
  | .text _ | .null => none

/-- Keys are the same if they are equal texts, equal numbers or both null. -/
def same (a b : Key) : Bool :=
  match a, b with
  | .text s, .text t => s == t
  | .null, .null => true
  | _, _ =>
    match a.quantity?, b.quantity? with
    | some x, some y => x.same y
    | _, _ => false

def toJson : Key → Json
  | .text s => .str s
  | .int n => .int n
  | .float x => .float x
  | .bool b => .bool b
  | .null => .null

end Key

/-- Members of an object, in order. -/
abbrev Members := List (Key × Json)

namespace Members

def get? (members : Members) (name : Key) : Option Json :=
  (members.find? fun m => m.1.same name).map (·.2)

def has (members : Members) (name : Key) : Bool :=
  (members.get? name).isSome

/-- The value of a member, or null where there is none. -/
def get (members : Members) (name : Key) : Json :=
  (members.get? name).getD .null

/-- Sets a member: in its place if there is one of that name, else at the end. -/
def set (members : Members) (name : Key) (value : Json) : Members :=
  if members.has name then members.map fun m => if m.1.same name then (m.1, value) else m
  else members ++ [(name, value)]

/-- Members with repeated names reduced to one each: the first place, the last value. -/
def ofList (members : List (Key × Json)) : Members :=
  members.foldl (fun acc m => acc.set m.1 m.2) []

end Members

namespace Json

instance : Coe String Json := ⟨.str⟩

/-- An object with text keys. -/
def ofMembers (members : List (String × Json)) : Json :=
  .obj (members.map fun m => (.text m.1, m.2))

mutual

/-- The number of values in a value, itself included. -/
def size : Json → Nat
  | .arr items => sizeItems items + 1
  | .obj members => sizeMembers members + 1
  | _ => 1

def sizeItems : List Json → Nat
  | [] => 0
  | v :: rest => v.size + sizeItems rest

def sizeMembers : List (Key × Json) → Nat
  | [] => 0
  | (_, v) :: rest => v.size + sizeMembers rest

end

/-- False, null, zero and everything empty count as false. -/
def truthy : Json → Bool
  | .null => false
  | .bool b => b
  | .int n => n != 0
  | .float x => !x.isZero
  | .str s => s != ""
  | .arr items => !items.isEmpty
  | .obj members => !members.isEmpty

/-- The value, or another if it counts as false. -/
def orElse (v other : Json) : Json :=
  if v.truthy then v else other

/-- Null means that nothing is there. -/
def nonNull? : Json → Option Json
  | .null => none
  | v => some v

def isObject : Json → Bool
  | .obj _ => true
  | _ => false

def isText (v : Json) (text : String) : Bool :=
  match v with
  | .str s => s == text
  | _ => false

/-- The value as a key, unless it is a list or an object. -/
def key? : Json → Option Key
  | .null => some .null
  | .bool b => some (.bool b)
  | .int n => some (.int n)
  | .float x => some (.float x)
  | .str s => some (.text s)
  | .arr _ | .obj _ => none

def toKey (v : Json) : Except Fault Key :=
  match v.key? with
  | some k => .ok k
  | none => .error .compoundKey

/-- The value equals a key. -/
def sameKey (v : Json) (k : Key) : Bool :=
  match v.key? with
  | some k' => k'.same k
  | none => false

/-- The members of an object; other values have none. -/
def members : Json → Except Fault Members
  | .obj ms => .ok ms
  | _ => .error .noMembers

/-- A member of an object, or null where there is none. -/
def get (v : Json) (name : String) : Except Fault Json :=
  return (← v.members).get name

/-- The elements of a list, the keys of an object or the characters of a text. -/
def elements : Json → Except Fault (List Json)
  | .arr items => .ok items
  | .obj ms => .ok (ms.map (·.1.toJson))
  | .str s => .ok (s.toList.map fun c => .str (String.singleton c))
  | _ => .error .notSequence

end Json

end TypedClient
