import TypedClient.Proofs.Schema.Reading

/-! The spellings of a nullable schema: a flag under either name, a null among the types, and a
union with the null type. They end in the same node, up to its places. -/
namespace TypedClient

theorem Key.same_text {key : Key} {name : String} : key.same name = true ↔ key = name := by
  cases key <;> simp [Key.same, Key.quantity?]

namespace Members

theorem get?_nil (name : Key) : get? [] name = none :=
  rfl

theorem get?_cons (m : Key × Json) (rest : Members) (name : String) :
    get? (m :: rest) name = if m.1 = name then some m.2 else rest.get? name := by
  unfold get?
  rw [List.find?_cons]
  by_cases own : m.1 = name
  · simp [own, Key.same_text.mpr]
  · simp [own, Bool.eq_false_iff.mpr (own ∘ Key.same_text.mp)]

theorem get?_append (first second : Members) (name : String) :
    get? (first ++ second) name = (first.get? name).or (second.get? name) := by
  induction first with
  | nil => rfl
  | cons m rest ih =>
    rw [List.cons_append, get?_cons, get?_cons, ih]
    split <;> rfl

theorem get?_replace (members : Members) (name : String) (value : Json) (other : String) :
    get? (members.map fun m => if m.1.same name then (m.1, value) else m) other =
      if other = name then (members.get? other).map fun _ => value else members.get? other := by
  induction members with
  | nil => simp [get?_nil]
  | cons m rest ih =>
    have key : (if m.1.same name then (m.1, value) else m).1 = m.1 := by split <;> rfl
    rw [List.map_cons, get?_cons, get?_cons, ih, key]
    by_cases own : m.1 = other
    · by_cases same : other = name <;> simp [own, same, Key.same_text]
    · simp [own]

theorem get?_set (members : Members) (name : String) (value : Json) (other : String) :
    (members.set name value).get? other = if other = name then some value else members.get? other := by
  unfold set has
  split
  · rename_i found
    rw [get?_replace]
    by_cases same : other = name
    · obtain ⟨old, held⟩ := Option.isSome_iff_exists.mp found
      simp [same, held]
    · simp [same]
  · rename_i absent
    rw [get?_append, get?_cons, get?_nil]
    by_cases same : other = name
    · simp_all
    · simp [same, Ne.symm same]

end Members

namespace Schema

open Node

section Shared

variable {first second : Members} {path : String}

theorem isShared_iff {m : Key × Json} : isShared m = true ↔ ∀ name ∈ ownKeywords, m.1 ≠ name := by
  simp [isShared, ← Key.same_text]

theorem get?_shared (members : Members) {name : String} (other : name ∉ ownKeywords) :
    Members.get? (members.filter isShared) name = members.get? name := by
  induction members with
  | nil => rfl
  | cons m rest ih =>
    rw [List.filter_cons, Members.get?_cons]
    by_cases found : m.1 = name
    · have shared : isShared m = true := by
        rw [isShared_iff]
        rintro own member same
        cases found.symm.trans same
        exact other member
      simp [shared, Members.get?_cons, found]
    · split <;> simp [Members.get?_cons, found, ih]

theorem filter_set (members : Members) {name : String} (own : name ∈ ownKeywords) (value : Json) :
    (members.set name value).filter isShared = members.filter isShared := by
  have dropped {m : Key × Json} (same : m.1 = name) : isShared m = false :=
    Bool.eq_false_iff.mpr fun shared => isShared_iff.mp shared name own same
  have replaced (members : Members) :
      (members.map fun m => if m.1.same name then (m.1, value) else m).filter isShared =
        members.filter isShared := by
    induction members with
    | nil => rfl
    | cons m rest ih =>
      rw [List.map_cons, List.filter_cons, List.filter_cons, ih]
      by_cases same : m.1 = name
      · rw [if_pos (Key.same_text.mpr same), dropped same, dropped (m := (m.1, value)) same]
        rfl
      · rw [if_neg (same ∘ Key.same_text.mp)]
  unfold Members.set
  split
  · exact replaced members
  · rw [List.filter_append, List.filter_singleton, dropped rfl]
    simp

/-- A layer depends on the shared members and on the type. -/
theorem layer_of_shared (shared : first.filter isShared = second.filter isShared)
    (type : (foldType (first.get "type")).1 = (foldType (second.get "type")).1) :
    layer first path = layer second path := by
  have get {name : String} (other : name ∉ ownKeywords) : first.get? name = second.get? name := by
    rw [← get?_shared first other, shared, get?_shared second other]
  have read {name : String} {names : List String} (member : name ∈ names)
      (others : ∀ name ∈ names, name ∉ ownKeywords) : first.get? name = second.get? name :=
    get (others name member)
  have alike : ReadAlike id first second path path :=
    { plain := fun name member => read member (by decide)
      uses := fun name member => by rw [Members.has, Members.has, read member (by decide)]
      type
      types := by simp only [typesLayer, type, withType, shared]
      lists := fun name member => by rw [listAt?, listAt?, read member (by decide)]
      items := fun name member => by rw [itemsAt, itemsAt, read member (by decide)]
      properties := by rw [propertiesAt?, propertiesAt?, get (by decide)]
      additional := by rw [additionalAt?, additionalAt?, get (by decide)] }
  simpa [Layer.map_id] using alike.layer

end Shared

section Spellings

variable (members : Members) (path : String)

/-- Fragments of one layer differ in what they say besides. -/
theorem normalize_of_shared {first second : Members} {f : Node → Node}
    (shared : first.filter isShared = second.filter isShared)
    (type : (foldType (first.get "type")).1 = (foldType (second.get "type")).1)
    (notes : ∀ node, annotate node second path = f (annotate node first path)) :
    normalize (.obj second) path = f <$> normalize (.obj first) path := by
  rw [normalize_obj, normalize_obj, layer_of_shared shared type]
  simp [notes]

/-- The node that accepts null besides; the null type needs no flag. -/
def Node.orNull (node : Node) : Node :=
  if node.isNull then node else node.withNullable true

theorem annotate_flagged {first second : Members} (flagged : saysNullable second = true)
    (others : ∀ name ∈ ["default", "title", "description"], second.get? name = first.get? name)
    (node : Node) : annotate node second path = (annotate node first path).orNull := by
  have get (name : String) (member : name ∈ ["default", "title", "description"]) :
      second.get name = first.get name := by
    rw [Members.get, Members.get, others name member]
  have null : (annotate node first path).isNull = node.isNull := rfl
  unfold Node.orNull
  rw [null]
  cases isNull : node.isNull with
  | true => simp [annotate, get, others, isNull]
  | false => simp [annotate, get, others, isNull, flagged, withNullable]

/-- A flag under either name sets the flag of the node. -/
theorem normalize_flag {name : String} (flag : name = "nullable" ∨ name = "x-nullable") :
    normalize (.obj (members.set name (.bool true))) path =
      Node.orNull <$> normalize (.obj members) path := by
  have own : name ∈ ownKeywords := by rcases flag with rfl | rfl <;> decide
  have get {other : String} (apart : other ≠ name) :
      (members.set name (.bool true)).get? other = members.get? other := by
    rw [Members.get?_set, if_neg apart]
  refine normalize_of_shared path (filter_set members own _).symm ?_ (annotate_flagged path ?_ ?_)
  · rw [Members.get, Members.get, get (by rcases flag with rfl | rfl <;> decide)]
  · rcases flag with rfl | rfl <;> simp [saysNullable, Members.get, Members.get?_set]
  · intro other member
    refine get ?_
    rcases flag with rfl | rfl <;> revert other <;> decide

/-- A list of types without its null; one that is left alone is no list. -/
def withoutNull (types : List String) : Json :=
  match types.filter (· ≠ "null") with
  | [only] => .str only
  | rest => .arr (rest.map .str)

theorem foldType_withoutNull {types : List String} (null : "null" ∈ types)
    (other : ∃ t ∈ types, t ≠ "null") :
    foldType (.arr (types.map .str)) = (withoutNull types, true) ∧
      foldType (withoutNull types) = (withoutNull types, false) := by
  have kept (names : List String) : (names.map Json.str).filter (!·.isText "null") =
      (names.filter (· ≠ "null")).map Json.str := by
    rw [List.filter_map]
    congr 1
    refine List.filter_congr fun name _ => ?_
    rw [Bool.eq_iff_iff]
    simp [Json.isText]
  have stable : (types.filter (· ≠ "null")).filter (· ≠ "null") = types.filter (· ≠ "null") := by
    simp [List.filter_filter]
  have fewer : (types.filter (· ≠ "null")).length < types.length :=
    List.length_filter_lt_length_iff_exists.mpr ⟨"null", null, by simp⟩
  obtain ⟨t, member, apart⟩ := other
  have left : t ∈ types.filter (· ≠ "null") := by simp [member, apart]
  unfold withoutNull foldType
  simp only [kept, List.length_map]
  generalize types.filter (· ≠ "null") = rest at stable fewer left
  rcases rest with _ | ⟨only, _ | ⟨second, more⟩⟩
  · cases left
  · simpa using fewer
  · dsimp only
    rw [kept, stable]
    exact ⟨congrArg _ (decide_eq_true fewer), congrArg _ (decide_eq_false (by simp))⟩

/-- A null among the types sets the flag of the node. -/
theorem normalize_types {types : List String} (null : "null" ∈ types)
    (other : ∃ t ∈ types, t ≠ "null") (listed : members.get? "type" = some (.arr (types.map .str))) :
    normalize (.obj members) path =
      Node.orNull <$> normalize (.obj (members.set "type" (withoutNull types))) path := by
  obtain ⟨folded, stable⟩ := foldType_withoutNull null other
  have named : members.get "type" = .arr (types.map .str) := by rw [Members.get, listed]; rfl
  have plain : (members.set "type" (withoutNull types)).get "type" = withoutNull types := by
    rw [Members.get, Members.get?_set, if_pos rfl]
    rfl
  refine normalize_of_shared path (filter_set members (by decide) _) ?_ (annotate_flagged path ?_ ?_)
  · rw [named, plain, folded, stable]
  · simp [saysNullable, named, folded]
  · intro name member
    rw [Members.get?_set, if_neg (by revert name; decide)]

end Spellings

section Unions

def nullSchema : Json :=
  .obj [("type", .str "null")]

theorem unionOf_nulls {node : Node} {before after : List Node} (notNull : node.isNull = false)
    (nulls : ∀ member ∈ before ++ after, member.isNull = true) (nonempty : before ++ after ≠ []) :
    unionOf (before ++ node :: after) = node.withNullable true := by
  have dropped {side : List Node} (part : side ⊆ before ++ after) :
      side.filter (!·.isNull) = [] := by
    rw [List.filter_eq_nil_iff]
    intro member listed
    simp [nulls member (part listed)]
  have left : (before ++ node :: after).filter (!·.isNull) = [node] := by
    rw [List.filter_append, List.filter_cons, dropped (List.subset_append_left _ _),
      dropped (List.subset_append_right _ _)]
    simp [notNull]
  have fewer : [node].length < (before ++ node :: after).length := by
    have := List.length_pos_iff.mpr nonempty
    simp only [List.length_append, List.length_cons, List.length_nil] at this ⊢
    omega
  unfold unionOf
  rw [left]
  dsimp only
  rw [decide_eq_true fewer, Bool.or_true]

theorem layer_union {keyword : String} (union : keyword = "anyOf" ∨ keyword = "oneOf")
    (members : List Json) (path : String) : layer [(.text keyword, .arr members)] path =
      .ok (.union (parts members s!"{path}/{keyword}")) := by
  rcases union with rfl | rfl <;>
    simp [layer, Layer.choose, listAt?, unionAt?, Members.get, Members.get?_cons, Members.get?_nil]

theorem annotate_union {keyword : String} (union : keyword = "anyOf" ∨ keyword = "oneOf")
    (value : Json) (node : Node) :
    (annotate node [(.text keyword, value)] "").unplaced = node.unplaced := by
  rw [unplaced_eq_iff]
  rcases union with rfl | rfl <;>
    simp [annotate, saysNullable, foldType, Members.get, Members.get?_cons, Members.get?_nil, nullable]

theorem form_union {keyword : String} (union : keyword = "anyOf" ∨ keyword = "oneOf")
    (members : List Json) : form (.obj [(.text keyword, .arr members)]) =
      (fun nodes => (unionOf nodes).unplaced) <$> members.mapM form := by
  rw [← unplaced_form, form_obj, formOver, layer_union union]
  change unplaced <$> (((parts members _).map fun part => form part.fragment).mapM id >>=
    (fun nodes => pure (unionOf nodes)) >>= fun node => pure (annotate node _ "")) = _
  rw [map_parts, List.mapM_map]
  simp [annotate_union union]

theorem form_nullSchema : form nullSchema = .ok { shape := .primitive { type := .null } } := by
  rw [nullSchema, form_obj]
  rfl

theorem mapM_nulls (members : List Json) (nulls : ∀ member ∈ members, member = nullSchema) :
    ∃ nodes, members.mapM form = .ok nodes ∧ nodes.length = members.length ∧
      ∀ node ∈ nodes, node.isNull = true := by
  induction members with
  | nil => exact ⟨[], rfl, rfl, by simp⟩
  | cons member rest ih =>
    obtain ⟨nodes, read, length, null⟩ := ih fun other listed => nulls other (by simp [listed])
    refine ⟨{ shape := .primitive { type := .null } } :: nodes, ?_, by simp [length], ?_⟩
    · rw [List.mapM_cons, nulls member (by simp), form_nullSchema, read]
      rfl
    · simpa using ⟨rfl, null⟩

/-- To be no null is no matter of the place. -/
theorem isNull_of_form {schema : Json} {path : String} {node : Node}
    (notNull : ∀ node, normalize schema path = .ok node → node.isNull = false)
    (read : form schema = .ok node) : node.isNull = false := by
  rw [← unplaced_normalize schema path] at read
  obtain ⟨placed, normal, rfl⟩ := except_map_eq_ok.mp read
  rw [isNull_unplaced]
  exact notNull placed normal

/-- A schema and nulls, in any order, are the schema with its flag set. -/
theorem form_nullUnion {keyword : String} (union : keyword = "anyOf" ∨ keyword = "oneOf")
    {schema : Json} {before after : List Json}
    (nulls : ∀ member ∈ before ++ after, member = nullSchema) (nonempty : before ++ after ≠ [])
    (notNull : ∀ node, form schema = .ok node → node.isNull = false) :
    form (.obj [(.text keyword, .arr (before ++ schema :: after))]) =
      (·.withNullable true) <$> form schema := by
  obtain ⟨lead, leads, leadLength, leadNull⟩ := mapM_nulls before fun member listed =>
    nulls member (List.mem_append_left _ listed)
  obtain ⟨rest, rests, restLength, restNull⟩ := mapM_nulls after fun member listed =>
    nulls member (List.mem_append_right _ listed)
  rw [form_union union, List.mapM_append, List.mapM_cons, leads, rests]
  cases read : form schema with
  | error fault => rfl
  | ok node =>
    have same : node.unplaced = node := by
      have again := unplaced_form schema
      rw [read] at again
      exact Except.ok.inj again
    have nodeNulls : ∀ member ∈ lead ++ rest, member.isNull = true := by
      intro member listed
      exact (List.mem_append.mp listed).elim (leadNull member) (restNull member)
    have nodes : lead ++ rest ≠ [] := by
      rw [← List.length_pos_iff, List.length_append, leadLength, restLength, ← List.length_append]
      exact List.length_pos_iff.mpr nonempty
    have joined := unionOf_nulls (notNull node read) nodeNulls nodes
    change Except.ok (unionOf (lead ++ node :: rest)).unplaced = Except.ok (node.withNullable true)
    rw [joined, withNullable_unplaced, same]

end Unions

inductive SpellsNullable : Json → Json → Prop where
  | flag (members : Members) {name : String} (flag : name = "nullable" ∨ name = "x-nullable") :
      SpellsNullable (.obj members) (.obj (members.set name (.bool true)))
  | types (members : Members) {types : List String}
      (listed : members.get? "type" = some (.arr (types.map .str))) (null : "null" ∈ types)
      (other : ∃ t ∈ types, t ≠ "null") :
      SpellsNullable (.obj (members.set "type" (withoutNull types))) (.obj members)
  | union (schema : Json) {keyword : String} (union : keyword = "anyOf" ∨ keyword = "oneOf")
      {before after : List Json} (nulls : ∀ member ∈ before ++ after, member = nullSchema)
      (nonempty : before ++ after ≠ []) {place : String}
      (notNull : ∀ node, normalize schema place = .ok node → node.isNull = false) :
      SpellsNullable schema (.obj [(.text keyword, .arr (before ++ schema :: after))])

namespace SpellsNullable

variable {schema fragment : Json}

theorem form_orNull (spells : SpellsNullable schema fragment) :
    form fragment = Node.orNull <$> form schema := by
  have moved (node : Node) : node.orNull.unplaced = node.unplaced.orNull := by
    unfold Node.orNull
    rw [isNull_unplaced]
    split
    · rfl
    · exact withNullable_unplaced node true
  cases spells with
  | flag members flag =>
    rw [form, normalize_flag members "" flag, form]
    simp [moved]
  | types members listed null other =>
    rw [form, normalize_types members "" null other listed, form]
    simp [moved]
  | @union schema keyword union before after nulls nonempty place notNull =>
    have never (node : Node) (read : form schema = .ok node) : node.isNull = false :=
      isNull_of_form notNull read
    rw [form_nullUnion union nulls nonempty never]
    cases read : form schema with
    | error fault => rfl
    | ok node => exact congrArg Except.ok (by simp [Node.orNull, never node read])

/-- Every spelling is an object with members. -/
theorem exists_members (spells : SpellsNullable schema fragment) :
    ∃ m rest, fragment = .obj (m :: rest) := by
  have nonempty {members : Members} {name : String} {value : Json}
      (found : members.get? name = some value) : ∃ m rest, Json.obj members = .obj (m :: rest) := by
    cases members with
    | nil => cases found
    | cons m rest => exact ⟨m, rest, rfl⟩
  cases spells with
  | @flag members name flag =>
    exact nonempty ((Members.get?_set members name (.bool true) name).trans (if_pos rfl))
  | types members listed null other => exact nonempty listed
  | union => exact ⟨_, _, rfl⟩

end SpellsNullable

end Schema

end TypedClient
