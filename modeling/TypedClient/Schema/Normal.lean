import TypedClient.Json.Display
import TypedClient.Schema.Union

/-! Normalisation: a schema fragment becomes a node. A fragment is first read as one layer whose
parts are smaller fragments; the spellings of a nullable type end in one flag. -/
namespace TypedClient

namespace Json

theorem size_le_sizeItems {v : Json} {items : List Json} (h : v ∈ items) :
    v.size ≤ sizeItems items := by
  induction items with
  | nil => cases h
  | cons w rest ih =>
    simp only [sizeItems]
    rcases List.mem_cons.mp h with rfl | h
    · omega
    · have := ih h; omega

theorem size_lt_arr {v : Json} {items : List Json} (h : v ∈ items) : v.size < (arr items).size := by
  have := size_le_sizeItems h
  simp only [size]; omega

theorem size_le_sizeMembers {m : Key × Json} {members : Members} (h : m ∈ members) :
    m.2.size ≤ sizeMembers members := by
  induction members with
  | nil => cases h
  | cons w rest ih =>
    simp only [sizeMembers]
    rcases List.mem_cons.mp h with rfl | h
    · omega
    · have := ih h; omega

theorem size_lt_obj {m : Key × Json} {members : Members} (h : m ∈ members) :
    m.2.size < (obj members).size := by
  have := size_le_sizeMembers h
  simp only [size]; omega

theorem sizeMembers_filter_add {m : Key × Json} {members : Members} {p : Key × Json → Bool}
    (h : m ∈ members) (hp : p m = false) :
    sizeMembers (members.filter p) + m.2.size ≤ sizeMembers members := by
  have le (ms : Members) : sizeMembers (ms.filter p) ≤ sizeMembers ms := by
    induction ms with
    | nil => simp [sizeMembers]
    | cons w rest ih =>
      simp only [List.filter_cons]
      split <;> simp only [sizeMembers] <;> omega
  induction members with
  | nil => cases h
  | cons w rest ih =>
    rcases List.mem_cons.mp h with rfl | h
    · have := le rest
      simp only [List.filter_cons, hp, Bool.false_eq_true, ↓reduceIte, sizeMembers]
      omega
    · have := ih h
      simp only [List.filter_cons]
      split <;> simp only [sizeMembers] <;> omega

theorem sizeMembers_append (a b : Members) :
    sizeMembers (a ++ b) = sizeMembers a + sizeMembers b := by
  induction a with
  | nil => simp [sizeMembers]
  | cons w rest ih => simp only [List.cons_append, sizeMembers, ih]; omega

end Json

theorem Members.exists_of_get? {members : Members} {name : Key} {v : Json}
    (h : members.get? name = some v) : ∃ m ∈ members, m.1.same name ∧ m.2 = v := by
  obtain ⟨m, hm, rfl⟩ := Option.map_eq_some_iff.mp h
  have hs := List.find?_some hm
  exact ⟨m, List.mem_of_find?_eq_some hm, hs, rfl⟩

theorem Members.size_lt_of_get? {members : Members} {name : Key} {v : Json}
    (h : members.get? name = some v) : v.size < (Json.obj members).size := by
  obtain ⟨m, hm, _, rfl⟩ := Members.exists_of_get? h
  exact Json.size_lt_obj hm

namespace Schema

/-- A fragment that is still to be normalised, and its place. -/
structure Part where
  fragment : Json
  path : String

/-- One layer of a fragment: a shape over its parts, or a union of them. -/
inductive Layer (α : Type) where
  | shape (shape : Shape α)
  | union (members : List α)

namespace Layer

def parts : Layer α → List α
  | .shape s => s.parts
  | .union members => members

def attach : (layer : Layer α) → Layer { part // part ∈ layer.parts }
  | .shape s => .shape s.attach
  | .union members => .union members.attach

/-- The node of a layer when those of its parts are known. -/
def node (f : α → Except Fault Node) : Layer α → Except Fault Node
  | .shape s => do return { shape := ← s.mapM f }
  | .union members => do return unionOf (← members.mapM f)

/-- The layer that the keywords of a fragment make; the first rule that matches wins. -/
def choose (pointer value : Option Json) (values : Json) (allOf union : Option (List α))
    (typed : Except Fault (Shape α)) : Except Fault (Layer α) :=
  match pointer, value, values, allOf, union with
  | some pointer, _, _, _, _ => .ok (.shape (.ref pointer))
  | none, some value, _, _, _ => .ok (.shape (.const value))
  | none, none, .arr values, _, _ => .ok (.shape (.enum values))
  | none, none, _, some members, _ => .ok (.shape (.allOf members))
  | none, none, _, none, some members => .ok (.union members)
  | none, none, _, none, none => .shape <$> typed

end Layer

/-- The type that a fragment names. A list of types loses its null entries, and a list of one
entry is that entry. -/
def foldType (type : Json) : Json × Bool :=
  match type with
  | .arr types =>
    let rest := types.filter (!·.isText "null")
    let hadNull := decide (rest.length < types.length)
    match rest with
    | [] => (.str "null", hadNull)
    | [only] => (only, hadNull)
    | _ => (.arr rest, hadNull)
  | _ => (type, false)

/-- The type of a fragment that names none, after the keywords that it uses. -/
def inferType (members : Members) : Json :=
  let uses (names : List String) := names.any fun name => members.has name
  let requires := match members.get "required" with
    | .arr _ => true
    | _ => false
  if uses ["properties", "additionalProperties"] || requires then .str "object"
  else if uses ["items", "prefixItems"] then .str "array"
  else if uses ["minLength", "maxLength", "pattern"] then .str "string"
  else if uses ["minimum", "maximum", "exclusiveMinimum", "exclusiveMaximum", "multipleOf"] then
    .str "number"
  else .null

/-- The type that a fragment names, or else the one that its keywords tell. -/
def typeOf (members : Members) : Json :=
  match (foldType (members.get "type")).1 with
  | .null => inferType members
  | type => type

/-- A flag in place of an exclusive bound makes the inclusive one exclusive. -/
def exclusiveBound (inclusive exclusive : Option Json) : Option Json × Option Json :=
  match exclusive, inclusive with
  | some (.bool true), some bound => (none, some bound)
  | some (.bool _), _ => (inclusive, none)
  | _, _ => (inclusive, exclusive)

/-- Constraints are read only where they apply to the type. -/
def readPrimitive (members : Members) (type : PrimitiveType) : Primitive :=
  let value (name : String) := (members.get name).nonNull?
  let base : Primitive := { type, format := value "format" }
  if type = .string then
    { base with
      minLength := value "minLength", maxLength := value "maxLength", pattern := value "pattern" }
  else if type.isNumeric then
    let (minimum, exclusiveMinimum) := exclusiveBound (value "minimum") (value "exclusiveMinimum")
    let (maximum, exclusiveMaximum) := exclusiveBound (value "maximum") (value "exclusiveMaximum")
    { base with
      minimum, exclusiveMinimum, maximum, exclusiveMaximum, multipleOf := value "multipleOf" }
  else base

/-- Keywords that a fragment of several types keeps to itself. -/
def ownKeywords : List String :=
  ["type", "nullable", "x-nullable", "default", "title", "description"]

/-- A member that the fragments of the single types share. -/
def isShared (m : Key × Json) : Bool :=
  !ownKeywords.any fun name => m.1.same name

/-- The fragment of one type among several. -/
def withType (members : Members) (type : Json) : Members :=
  members.filter isShared ++ [(.text "type", type)]

/-- Every type that can be left after folding is smaller than the type that was named. -/
theorem size_foldType_le (type : Json) : (foldType type).1.size ≤ type.size := by
  have filtered (types : List Json) (p : Json → Bool) :
      Json.sizeItems (types.filter p) ≤ Json.sizeItems types := by
    induction types with
    | nil => simp [Json.sizeItems]
    | cons w rest ih => simp only [List.filter_cons]; split <;> simp only [Json.sizeItems] <;> omega
  unfold foldType
  split
  · next types =>
    have le := filtered types (fun t => !t.isText "null")
    dsimp only
    split
    · simp [Json.size]
    · next only h => rw [h] at le; simp only [Json.sizeItems, Json.size] at *; omega
    · simp only [Json.size]; omega
  · exact Nat.le_refl _

theorem size_withType_lt {members : Members} {type t : Json}
    (h : members.get? "type" = some type) (ht : t.size < type.size) :
    (Json.obj (withType members t)).size < (Json.obj members).size := by
  obtain ⟨m, hm, hs, rfl⟩ := Members.exists_of_get? h
  have hk : isShared m = false := by
    have : m.1.same (Key.text "type") = true := hs
    simp [isShared, ownKeywords, this]
  have := Json.sizeMembers_filter_add hm hk
  simp only [withType, Json.size, Json.sizeMembers_append, Json.sizeMembers]
  omega

/-- Numbered parts. -/
def parts (items : List Json) (path : String) : List Part :=
  items.mapIdx fun i v => ⟨v, s!"{path}/{i}"⟩

/-- The value of a keyword as items: a truth value allows all or none, anything else is a schema.
Without it every item is allowed. -/
def itemsAt (members : Members) (name path : String) : Items Part :=
  match members.get? name with
  | none | some (.bool true) => .anything
  | some (.bool false) => .nothing
  | some schema => .each ⟨schema, s!"{path}/{name}"⟩

/-- A list value of a keyword, as numbered parts. -/
def listAt? (members : Members) (name path : String) : Option (List Part) :=
  match members.get? name with
  | some (.arr items) => some (parts items s!"{path}/{name}")
  | _ => none

/-- A list with leading items of their own schemas, spelt in either of two ways, or a list of
items of one schema. -/
def arrayLayer (members : Members) (path : String) : Shape Part :=
  match listAt? members "prefixItems" path, listAt? members "items" path with
  | some lead, _ => .tuple lead (itemsAt members "items" path)
  | none, some lead => .tuple lead (itemsAt members "additionalItems" path)
  | none, none =>
    .array (itemsAt members "items" path) (members.get "minItems").nonNull?
      (members.get "maxItems").nonNull?

/-- The properties that a fragment requires; what is no text names none. -/
def requiredOf (members : Members) : List String :=
  match members.get "required" with
  | .arr items => items.filterMap fun
    | .str s => some s
    | _ => none
  | _ => []

/-- The schema of all other properties. -/
def additionalAt? (members : Members) (path : String) : Option Part :=
  match members.get? "additionalProperties" with
  | some (.obj (p :: ps)) => some ⟨.obj (p :: ps), s!"{path}/additionalProperties"⟩
  | _ => none

/-- The named properties, if there are any. -/
def propertiesAt? (members : Members) (path : String) : Option (List (Key × Part)) :=
  match members.get? "properties" with
  | some (.obj (p :: ps)) => some <| (p :: ps).map fun m =>
    (m.1, ⟨m.2, s!"{path}/properties/{m.1.display}"⟩)
  | _ => none

/-- An object with properties, or a record whose values may have a schema. -/
def objectLayer (members : Members) (path : String) : Shape Part :=
  match propertiesAt? members path with
  | some properties => .object { properties, required := requiredOf members, explicit := true }
  | none => .object { required := requiredOf members, additional := additionalAt? members path }

/-- The layer of a type that a fragment names. -/
def typeLayer (members : Members) (type : Json) (path : String) : Except Fault (Shape Part) :=
  match type with
  | .str "array" => .ok (arrayLayer members path)
  | .str "object" => .ok (objectLayer members path)
  | .str name =>
    match PrimitiveType.ofName? name with
    | some type => .ok (.primitive (readPrimitive members type))
    | none => .ok (.always true)
  | .arr _ | .obj _ => .error .compoundKey
  | _ => .ok (.always true)

/-- A fragment of several types, one part for each. -/
def typesLayer (members : Members) (path : String) : Option (List Part) :=
  match (foldType (members.get "type")).1 with
  | .arr types => some <| types.map fun t =>
    ⟨.obj (withType members t), s!"{path}/type/{t.display}"⟩
  | _ => none

/-- The members of a union, under either keyword or one for each type. -/
def unionAt? (members : Members) (path : String) : Option (List Part) :=
  ((listAt? members "anyOf" path).or (listAt? members "oneOf" path)).or (typesLayer members path)

/-- Reads one layer of a fragment. -/
def layer (members : Members) (path : String) : Except Fault (Layer Part) :=
  Layer.choose (members.get? "$ref") (members.get? "const") (members.get "enum")
    (listAt? members "allOf" path) (unionAt? members path)
    (typeLayer members (typeOf members) path)

section Parts

variable {members : Members} {name path : String}

/-- The values that are parts of a fragment. -/
inductive PartOf (members : Members) : Json → Prop where
  | value {name : Key} {v : Json} (found : members.get? name = some v) : PartOf members v
  | item {name : Key} {items : List Json} {v : Json} (found : members.get? name = some (.arr items))
      (listed : v ∈ items) : PartOf members v
  | entry {name : Key} {inner : Members} {m : Key × Json}
      (found : members.get? name = some (.obj inner)) (listed : m ∈ inner) : PartOf members m.2
  | typed {types : List Json} {t : Json} (folded : (foldType (members.get "type")).1 = .arr types)
      (listed : t ∈ types) : PartOf members (.obj (withType members t))

theorem get?_of_foldType {types : List Json} (folded : (foldType (members.get "type")).1 = .arr types) :
    members.get? "type" = some (members.get "type") := by
  unfold Members.get at folded ⊢
  cases found : members.get? "type" with
  | none => simp [found, foldType] at folded
  | some type => rfl

theorem PartOf.size_lt {v : Json} (part : PartOf members v) : v.size < (Json.obj members).size := by
  cases part with
  | value found => exact Members.size_lt_of_get? found
  | item found listed => exact Nat.lt_trans (Json.size_lt_arr listed) (Members.size_lt_of_get? found)
  | entry found listed => exact Nat.lt_trans (Json.size_lt_obj listed) (Members.size_lt_of_get? found)
  | typed folded listed =>
    refine size_withType_lt (get?_of_foldType folded) ?_
    exact Nat.lt_of_lt_of_le (Json.size_lt_arr listed) (folded ▸ size_foldType_le _)

theorem listAt?_partOf {read : List Part} (listed : listAt? members name path = some read) :
    ∀ part ∈ read, PartOf members part.fragment := by
  unfold listAt? at listed
  split at listed
  · rename_i items found
    cases listed
    intro part member
    obtain ⟨i, bound, rfl⟩ := List.mem_mapIdx.mp member
    exact .item found (List.getElem_mem bound)
  · cases listed

theorem itemsAt_partOf : ∀ part ∈ (itemsAt members name path).parts, PartOf members part.fragment := by
  unfold itemsAt
  split
  · simp [Items.parts]
  · simp [Items.parts]
  · simp [Items.parts]
  · rename_i found
    intro part member
    obtain rfl := List.mem_singleton.mp member
    exact .value found

theorem arrayLayer_partOf : ∀ part ∈ (arrayLayer members path).parts, PartOf members part.fragment := by
  intro part member
  unfold arrayLayer at member
  split at member
  · rcases List.mem_append.mp member with leading | further
    · exact listAt?_partOf (by assumption) part leading
    · exact itemsAt_partOf part further
  · rcases List.mem_append.mp member with leading | further
    · exact listAt?_partOf (by assumption) part leading
    · exact itemsAt_partOf part further
  · exact itemsAt_partOf part member

theorem propertiesAt?_partOf {read : List (Key × Part)}
    (found : propertiesAt? members path = some read) : ∀ p ∈ read, PartOf members p.2.fragment := by
  unfold propertiesAt? at found
  split at found
  · cases found
    intro p member
    obtain ⟨entry, listed, rfl⟩ := List.mem_map.mp member
    exact .entry (by assumption) listed
  · cases found

theorem objectLayer_partOf :
    ∀ part ∈ (objectLayer members path).parts, PartOf members part.fragment := by
  intro part member
  unfold objectLayer at member
  split at member
  · simp only [Shape.parts, Option.toList_none, List.append_nil, List.mem_map] at member
    obtain ⟨p, listed, rfl⟩ := member
    exact propertiesAt?_partOf (by assumption) p listed
  · unfold additionalAt? at member
    split at member
    · rename_i p ps found
      obtain rfl := List.mem_singleton.mp member
      exact .value found
    · cases member

theorem typeLayer_partOf {type : Json} {shape : Shape Part}
    (read : typeLayer members type path = .ok shape) :
    ∀ part ∈ shape.parts, PartOf members part.fragment := by
  unfold typeLayer at read
  split at read
  · cases read
    exact arrayLayer_partOf
  · cases read
    exact objectLayer_partOf
  · split at read <;> cases read <;> simp [Shape.parts]
  · cases read
  · cases read
  · cases read
    simp [Shape.parts]

theorem typesLayer_partOf {read : List Part} (typed : typesLayer members path = some read) :
    ∀ part ∈ read, PartOf members part.fragment := by
  unfold typesLayer at typed
  split at typed
  · rename_i types folded
    cases typed
    intro part member
    obtain ⟨t, listed, rfl⟩ := List.mem_map.mp member
    exact .typed folded listed
  · cases typed

theorem unionAt?_partOf {read : List Part} (joined : unionAt? members path = some read) :
    ∀ part ∈ read, PartOf members part.fragment := by
  rcases Option.or_eq_some_iff.mp joined with listed | ⟨_, typed⟩
  · rcases Option.or_eq_some_iff.mp listed with anyOf | ⟨_, oneOf⟩
    · exact listAt?_partOf anyOf
    · exact listAt?_partOf oneOf
  · exact typesLayer_partOf typed

theorem layer_partOf {read : Layer Part} (layered : layer members path = .ok read) :
    ∀ part ∈ read.parts, PartOf members part.fragment := by
  unfold layer Layer.choose at layered
  split at layered
  case h_1 | h_2 | h_3 =>
    cases layered
    simp [Layer.parts, Shape.parts]
  case h_4 =>
    cases layered
    exact listAt?_partOf (by assumption)
  case h_5 =>
    cases layered
    exact unionAt?_partOf (by assumption)
  case h_6 =>
    cases typed : typeLayer members (typeOf members) path with
    | error fault =>
      rw [typed] at layered
      cases layered
    | ok shape =>
      rw [typed] at layered
      cases layered
      exact typeLayer_partOf typed

end Parts

/-- The fragment allows null besides what its layer says. -/
def saysNullable (members : Members) : Bool :=
  let set (name : String) := match members.get name with
    | .bool b => b
    | _ => false
  set "nullable" || set "x-nullable" || (foldType (members.get "type")).2

/-- Adds what a fragment says besides its shape. The null type needs no flag. -/
def annotate (node : Node) (members : Members) (path : String) : Node :=
  let text (name : String) := match members.get name with
    | .str s => some s
    | _ => none
  { node with
    notes :=
      { path
        nullable := node.nullable || (saysNullable members && !node.isNull)
        defaultValue := members.get? "default" <|> node.notes.defaultValue
        title := text "title" <|> node.notes.title
        description := text "description" <|> node.notes.description } }

/-- The node of a fragment found at a path. A fragment that is no object accepts everything, the
value false nothing. -/
def normalize (fragment : Json) (path : String) : Except Fault Node :=
  match fragment with
  | .bool b => .ok { notes := { path }, shape := .always b }
  | .obj members =>
    match _ : layer members path with
    | .error fault => .error fault
    | .ok read => do
      let node ← read.attach.node fun part => normalize part.val.fragment part.val.path
      return annotate node members path
  | _ => .ok { notes := { path }, shape := .always true }
termination_by fragment.size
decreasing_by exact (layer_partOf (by assumption) part.val part.property).size_lt

end Schema

end TypedClient
