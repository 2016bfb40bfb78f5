import TypedClient.Proofs.Schema.Meaning

/-! Normal forms. Whatever a fragment says, its node and all that the node holds keep to a few
rules: null stands in one place, a union is a choice, constraints go with their types, and an object
names its properties or describes the values of a record. -/
namespace TypedClient

inductive Json.Has : Json → Key → Json → Prop
  | here {members : Members} {name : Key} {m : Key × Json} (listed : m ∈ members)
      (named : m.1.same name = true) : Json.Has (.obj members) name m.2
  | member {members : Members} {name : Key} {m : Key × Json} {v : Json} (listed : m ∈ members)
      (inner : Json.Has m.2 name v) : Json.Has (.obj members) name v
  | item {items : List Json} {name : Key} {w v : Json} (listed : w ∈ items)
      (inner : Json.Has w name v) : Json.Has (.arr items) name v

theorem Json.Has.of_get? {members : Members} {name other : Key} {v w : Json} (inner : w.Has name v)
    (found : members.get? other = some w) : (Json.obj members).Has name v := by
  obtain ⟨m, listed, _, rfl⟩ := Members.exists_of_get? found
  exact .member listed inner

namespace Schema

open Node

variable {members : Members} {path : String}

/-- Constraints stand only where they apply to the type. -/
structure Primitive.Normal (p : Primitive) : Prop where
  named : p.type.name ∈ ["string", "integer", "number", "boolean", "null"]
  lengths : p.type ≠ .string → p.minLength = none ∧ p.maxLength = none ∧ p.pattern = none
  bounds : p.type ≠ .integer → p.type ≠ .number → p.minimum = none ∧ p.maximum = none ∧
    p.exclusiveMinimum = none ∧ p.exclusiveMaximum = none ∧ p.multipleOf = none

/-- An object names properties, or it is a record whose values may have a schema. -/
structure Fields.Normal (fields : Fields α) : Prop where
  explicit : fields.explicit = true ↔ fields.properties ≠ []
  additional : fields.additional.isSome = true → fields.explicit = false

structure Node.Normal (node : Node) : Prop where
  null : node.isNull = true → node.nullable = false
  union : ∀ members, node.shape = .anyOf members → 2 ≤ members.length ∧
    ∀ member ∈ members, member.isNull = false ∧ member.nullable = false
  primitive : ∀ p, node.shape = .primitive p → p.Normal
  object : ∀ fields, node.shape = .object fields → fields.Normal

/-- What an object requires is what a list of the fragment requires, without all that is no text. -/
def Node.RequiresFrom (fragment : Json) (node : Node) : Prop :=
  ∀ fields, node.shape = .object fields → fields.required = [] ∨
    ∃ items, fragment.Has "required" (.arr items) ∧
      fields.required = items.filterMap fun
        | .str s => some s
        | _ => none

section Layers

/-- A shape as it is read from a fragment: constraints and properties follow the rules, and unions
are still to be made. -/
def Shape.Regular (members : Members) : Shape α → Prop
  | .primitive p => p.Normal
  | .object fields => fields.Normal ∧ fields.required = requiredOf members
  | .anyOf _ => False
  | _ => True

theorem readPrimitive_normal (type : PrimitiveType) : (readPrimitive members type).Normal := by
  cases type <;> constructor <;> simp [readPrimitive, PrimitiveType.isNumeric, PrimitiveType.name]

theorem objectLayer_regular : (objectLayer members path).Regular members := by
  unfold objectLayer
  split
  · rename_i properties found
    have nonempty : properties ≠ [] := by
      unfold propertiesAt? at found
      split at found <;> cases found
      simp
    exact ⟨⟨by simp [nonempty], by simp⟩, rfl⟩
  · exact ⟨⟨by simp, by simp⟩, rfl⟩

theorem arrayLayer_regular : (arrayLayer members path).Regular members := by
  unfold arrayLayer
  split <;> trivial

theorem typeLayer_regular {type : Json} {shape : Shape Part}
    (read : typeLayer members type path = .ok shape) : shape.Regular members := by
  unfold typeLayer at read
  split at read
  · cases read
    exact arrayLayer_regular
  · cases read
    exact objectLayer_regular
  · split at read
    · cases read
      exact readPrimitive_normal _
    · cases read
      trivial
  · cases read
  · cases read
  · cases read
    trivial

theorem layer_regular {shape : Shape Part} (layered : layer members path = .ok (.shape shape)) :
    shape.Regular members := by
  unfold layer Layer.choose at layered
  split at layered
  case h_5 => cases layered
  case h_6 =>
    obtain ⟨_, typed, same⟩ := except_map_eq_ok.mp layered
    cases same
    exact typeLayer_regular typed
  all_goals
    cases layered
    trivial

theorem ne_nil_of_mapM {f : α → Except Fault β} {items : List α} {results : List β}
    (done : items.mapM f = .ok results) : results ≠ [] ↔ items ≠ [] := by
  have length := (except_mapM_eq_ok.mp done).length_eq
  rw [← List.length_pos_iff, ← List.length_pos_iff, length]

/-- The parts do not matter for the rules. -/
theorem Shape.Regular.mapM {f : α → Except Fault β} {shape : Shape α} {result : Shape β}
    (regular : shape.Regular members) (done : shape.mapM f = .ok result) : result.Regular members := by
  cases shape with
  | anyOf => exact regular.elim
  | object fields =>
    obtain ⟨normal, required⟩ := regular
    obtain ⟨properties, found, done⟩ := except_bind_eq_ok.mp done
    obtain ⟨additional, foundAdditional, done⟩ := except_bind_eq_ok.mp done
    cases done
    have explicit := normal.explicit.trans (ne_nil_of_mapM found).symm
    refine ⟨⟨explicit, fun extended => normal.additional ?_⟩, required⟩
    cases extra : fields.additional with
    | none =>
      rw [extra] at foundAdditional
      cases foundAdditional
      exact extended
    | some part => rfl
  | allOf =>
    obtain ⟨_, _, rfl⟩ := except_map_eq_ok.mp done
    trivial
  | array items minItems maxItems =>
    obtain ⟨_, _, done⟩ := except_bind_eq_ok.mp done
    cases done
    trivial
  | tuple lead rest =>
    obtain ⟨_, _, done⟩ := except_bind_eq_ok.mp done
    obtain ⟨_, _, done⟩ := except_bind_eq_ok.mp done
    cases done
    trivial
  | primitive =>
    cases done
    exact regular
  | enum | const | ref | always =>
    cases done
    trivial

theorem Shape.Regular.normal {notes : Notes} {shape : Shape Node} (regular : shape.Regular members)
    (null : isNull { notes, shape } = true → notes.nullable = false) :
    Node.Normal { notes, shape } where
  null := null
  union members same := by
    cases same
    exact regular.elim
  primitive p same := by
    cases same
    exact regular
  object fields same := by
    cases same
    exact regular.1

theorem has_of_get {name : String} {items : List Json} (read : members.get name = .arr items) :
    (Json.obj members).Has name (.arr items) := by
  unfold Members.get at read
  cases found : members.get? name with
  | none =>
    rw [found] at read
    cases read
  | some v =>
    rw [found] at read
    obtain ⟨m, listed, named, rfl⟩ := Members.exists_of_get? found
    rw [← show m.2 = .arr items from read]
    exact .here listed named

theorem requiredOf_cases (members : Members) : requiredOf members = [] ∨
    ∃ items, (Json.obj members).Has "required" (.arr items) ∧
      requiredOf members = items.filterMap fun
        | .str s => some s
        | _ => none := by
  unfold requiredOf
  split
  · rename_i items read
    exact .inr ⟨items, has_of_get read, rfl⟩
  · exact .inl rfl

theorem Shape.Regular.requiresFrom {notes : Notes} {shape : Shape Node}
    (regular : shape.Regular members) : RequiresFrom (.obj members) { notes, shape } := by
  intro fields same
  cases same
  rw [regular.2]
  exact requiredOf_cases members

end Layers

section Unions

variable {nodes : List Node} {fragment : Json}

/-- Normality is a matter of the shape but for the flag of the null type. -/
theorem Node.Normal.congr {node other : Node} (normal : node.Normal) (same : other.shape = node.shape)
    (null : other.isNull = true → other.nullable = false) : other.Normal where
  null := null
  union members shape := normal.union members (same ▸ shape)
  primitive p shape := normal.primitive p (same ▸ shape)
  object fields shape := normal.object fields (same ▸ shape)

theorem isNull_withNullable (node : Node) (nullable : Bool) :
    (node.withNullable nullable).isNull = node.isNull :=
  rfl

/-- Null and the flags of the members move to one flag, which is not on the null type. -/
theorem unionOf_normal (each : ∀ node ∈ nodes, node.Normal) : (unionOf nodes).Normal := by
  rcases left : remaining nodes with _ | ⟨only, _ | ⟨second, rest⟩⟩
  · rw [unionOf_none left]
    refine ⟨fun _ => rfl, by simp, fun p same => ?_, by simp⟩
    cases same
    constructor <;> simp [PrimitiveType.name]
  · rw [unionOf_only left]
    obtain ⟨listed, other⟩ := mem_remaining.mp (left ▸ List.mem_singleton_self only)
    refine (each only listed).congr rfl fun null => ?_
    rw [isNull_withNullable, other] at null
    cases null
  · have several : 2 ≤ (remaining nodes).length := by simp [left]
    rw [unionOf_several several]
    refine ⟨by simp [isNull], fun members same => ?_, by simp, by simp⟩
    cases same
    refine ⟨by simpa using several, fun member listed => ?_⟩
    obtain ⟨old, kept, rfl⟩ := List.mem_map.mp listed
    exact ⟨(mem_remaining.mp kept).2, rfl⟩

theorem annotate_normal {node : Node} (normal : node.Normal) : (annotate node members path).Normal := by
  refine normal.congr rfl fun null => ?_
  have own : node.isNull = true := null
  change (node.nullable || (saysNullable members && !node.isNull)) = false
  rw [normal.null own, own, Bool.not_true, Bool.and_false, Bool.or_false]

/-- What is held by a node and by the parts of its shape. -/
theorem forall_subnodes_iff {P : Node → Prop} {node : Node} : (∀ other ∈ node.subnodes, P other) ↔
    P node ∧ ∀ part ∈ node.shape.parts, ∀ other ∈ part.subnodes, P other := by
  constructor
  · intro all
    refine ⟨all node (self_mem_subnodes node), fun part member other inner => ?_⟩
    exact all other (subnodes_part_subset member inner)
  · rintro ⟨own, parts⟩ other inner
    rcases mem_subnodes.mp inner with rfl | ⟨part, member, inner⟩
    · exact own
    · exact parts part member other inner

/-- The parts of a union are those of its only member, or its members without their flags. -/
theorem forall_parts_unionOf {P : Node → Prop} (each : ∀ node ∈ nodes, ∀ other ∈ node.subnodes, P other)
    (cleared : ∀ node, P node → P (node.withNullable false)) :
    ∀ part ∈ (unionOf nodes).shape.parts, ∀ other ∈ part.subnodes, P other := by
  rcases shape_unionOf nodes with shape | ⟨member, listed, shape⟩ | ⟨chosen, listed, shape⟩
  · simp [shape, Shape.parts]
  · rw [shape]
    exact (forall_subnodes_iff.mp (each member listed)).2
  · rw [shape]
    intro part inside
    obtain ⟨old, member, rfl⟩ := List.mem_map.mp inside
    obtain ⟨own, parts⟩ := forall_subnodes_iff.mp (each old (listed member))
    exact forall_subnodes_iff.mpr ⟨cleared old own, parts⟩

theorem unionOf_requiresFrom (each : ∀ node ∈ nodes, node.RequiresFrom fragment) :
    (unionOf nodes).RequiresFrom fragment := by
  rcases shape_unionOf nodes with shape | ⟨member, listed, shape⟩ | ⟨chosen, _, shape⟩
  · simp [RequiresFrom, shape]
  · intro fields same
    exact each member listed fields (shape ▸ same)
  · simp [RequiresFrom, shape]

end Unions

/-- The types that are left after folding are among those that were named. -/
theorem has_of_foldType {type v : Json} {name : Key} (inner : (foldType type).1.Has name v) :
    type.Has name v := by
  unfold foldType at inner
  split at inner
  · rename_i types
    have kept : ∀ t ∈ types.filter (!·.isText "null"), t ∈ types :=
      fun t member => (List.mem_filter.mp member).1
    dsimp only at inner
    split at inner
    · cases inner
    · rename_i only left
      exact .item (kept only (by simp [left])) inner
    · cases inner with
      | item listed deeper => exact .item (kept _ listed) deeper
  · exact inner

/-- A part of a fragment has no member that the fragment does not have. Where a fragment of several
types is split, only the type is new. -/
theorem PartOf.has {name : String} {v w : Json} (part : PartOf members v) (other : name ≠ "type")
    (inner : v.Has name w) : (Json.obj members).Has name w := by
  cases part with
  | value found => exact inner.of_get? found
  | item found listed => exact (Json.Has.item listed inner).of_get? found
  | entry found listed => exact (Json.Has.member listed inner).of_get? found
  | @typed types t folded listed =>
    have shared {m : Key × Json} (member : m ∈ withType members t) :
        m ∈ members ∨ m = (.text "type", t) := by
      rcases List.mem_append.mp member with kept | own
      · exact .inl (List.mem_filter.mp kept).1
      · exact .inr (List.mem_singleton.mp own)
    cases inner with
    | here member named =>
      rcases shared member with old | rfl
      · exact .here old named
      · exact absurd (by simpa [Key.same] using named) (Ne.symm other)
    | member member deeper =>
      rcases shared member with old | rfl
      · exact .member old deeper
      · have inside : (foldType (members.get "type")).1.Has name w := folded ▸ .item listed deeper
        exact (has_of_foldType inside).of_get? (get?_of_foldType folded)

theorem Node.RequiresFrom.of_part {node : Node} {v : Json} (requires : node.RequiresFrom v)
    (part : PartOf members v) : node.RequiresFrom (.obj members) := by
  intro fields shape
  refine (requires fields shape).imp_right fun ⟨items, inner, same⟩ => ?_
  exact ⟨items, part.has (by simp) inner, same⟩

/-- A layer over parts that follow the rules follows them, with what its fragment says of itself. -/
theorem annotate_node_rules {read : Layer Part} {inner : Node} (layered : layer members path = .ok read)
    (built : read.node (fun part => normalize part.fragment part.path) = .ok inner)
    (part : ∀ p ∈ read.parts, ∀ result, normalize p.fragment p.path = .ok result →
      ∀ other ∈ result.subnodes, other.Normal ∧ other.RequiresFrom (.obj members)) :
    ∀ other ∈ (annotate inner members path).subnodes,
      other.Normal ∧ other.RequiresFrom (.obj members) := by
  cases read with
  | shape shape =>
    obtain ⟨result, mapped, same⟩ := except_bind_eq_ok.mp built
    cases same
    have regular := (layer_regular layered).mapM mapped
    refine forall_subnodes_iff.mpr ⟨⟨?_, regular.requiresFrom⟩, fun other member => ?_⟩
    · exact annotate_normal (regular.normal fun _ => rfl)
    · obtain ⟨p, listed, step⟩ := Shape.exists_part_of_mapM mapped member
      exact part p listed other step
  | union parts =>
    obtain ⟨nodes, mapped, same⟩ := except_bind_eq_ok.mp built
    cases same
    have each : ∀ node ∈ nodes, ∀ other ∈ node.subnodes,
        other.Normal ∧ other.RequiresFrom (.obj members) := by
      intro node member
      obtain ⟨p, listed, step⟩ := exists_of_mapM_eq_ok mapped member
      exact part p listed node step
    have own (node : Node) (member : node ∈ nodes) := each node member node (self_mem_subnodes node)
    refine forall_subnodes_iff.mpr ⟨⟨?_, ?_⟩, ?_⟩
    · exact annotate_normal (unionOf_normal fun node member => (own node member).1)
    · exact unionOf_requiresFrom fun node member => (own node member).2
    · refine forall_parts_unionOf each fun node rules => ⟨?_, rules.2⟩
      exact rules.1.congr rfl fun _ => rfl

/-- Every node of a normal form follows the rules, at every depth and whatever the fragment says:
the null type has no flag; a union has two members or more, which are neither null nor flagged;
constraints go with their types; an object names properties, or may describe the values of a record,
and requires only texts that the fragment lists. -/
theorem normalize_normal (fragment : Json) (path : String) (node : Node)
    (done : normalize fragment path = .ok node) :
    ∀ other ∈ node.subnodes, other.Normal ∧ other.RequiresFrom fragment := by
  induction h : fragment.size using Nat.strong_induction_on generalizing fragment path node with
  | _ n ih =>
    rcases normalize_cases done with ⟨accepts, rfl⟩ | ⟨members, read, inner, rfl, layered, built, rfl⟩
    · refine forall_subnodes_iff.mpr ⟨⟨⟨fun _ => rfl, ?_, ?_, ?_⟩, ?_⟩, ?_⟩
      all_goals simp [RequiresFrom, Shape.parts]
    · refine annotate_node_rules layered built fun p member result step other held => ?_
      have part := layer_partOf layered p member
      obtain ⟨normal, requires⟩ := ih _ (h ▸ part.size_lt) _ _ _ step rfl other held
      exact ⟨normal, requires.of_part part⟩

/-- Several types with constraints for some of them, unions in unions and null in many places. -/
def raggedSchema : Json :=
  let type (name : String) : String × Json := ("type", name)
  .ofMembers [("type", .arr ["object", "null", "integer"]), ("minLength", .int 3), ("minimum", .int 1),
    ("required", .arr ["a", .int 5]),
    ("properties", .ofMembers [("a", .ofMembers [("anyOf", .arr [.ofMembers [type "null"],
      .ofMembers [type "string", ("nullable", .bool true), ("maximum", .int 4)],
      .ofMembers [("oneOf", .arr [.ofMembers [type "integer"], .ofMembers [type "null"]])]])])])]

theorem normalize_normal_ragged :
    ∃ node, normalize raggedSchema "#" = .ok node ∧ node.nullable = true ∧
      node.subnodes.length = 6 ∧
      ∀ other ∈ node.subnodes, other.Normal ∧ other.RequiresFrom raggedSchema := by
  have evaluated : (normalize raggedSchema "#").toOption.any
      (fun node => node.nullable && node.subnodes.length == 6) = true := by
    decide +kernel
  cases done : normalize raggedSchema "#" with
  | error fault =>
    rw [done] at evaluated
    cases evaluated
  | ok node =>
    simp only [done, Except.toOption, Option.any_some, Bool.and_eq_true, beq_iff_eq] at evaluated
    exact ⟨node, rfl, evaluated.1, evaluated.2, normalize_normal raggedSchema "#" node done⟩

end Schema

end TypedClient
