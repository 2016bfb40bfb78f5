import TypedClient.Proofs.Schema.Parts

/-! What a node accepts. Null may be accepted by a flag, by the null type or by a member of a union,
and taking the null members out of a union moves it between these places. What the union accepts
stays the same, whatever the other shapes mean. -/
namespace TypedClient.Schema

open Node

/-- A shape whose meaning is left open: neither the null type nor a union. -/
def Shape.Open : Shape Node → Prop
  | .primitive p => p.type ≠ .null
  | .anyOf _ => False
  | _ => True

mutual

/-- A node accepts null if its flag is set, and what its shape accepts. -/
inductive Node.Accepts (meaning : Shape Node → Json → Prop) : Node → Json → Prop
  | flag {node : Node} (nullable : node.nullable = true) : Node.Accepts meaning node .null
  | shape {node : Node} {v : Json} (inner : Shape.Accepts meaning node.shape v) :
      Node.Accepts meaning node v

/-- The null type accepts null alone, and a union what one of its members accepts. A meaning of all
other shapes sees neither the flag of their node nor what else it notes. -/
inductive Shape.Accepts (meaning : Shape Node → Json → Prop) : Shape Node → Json → Prop
  | null {p : Primitive} (type : p.type = .null) : Shape.Accepts meaning (.primitive p) .null
  | union {members : List Node} {member : Node} {v : Json} (listed : member ∈ members)
      (inner : Node.Accepts meaning member v) : Shape.Accepts meaning (.anyOf members) v
  | other {shape : Shape Node} {v : Json} (unread : shape.Open) (holds : meaning shape v) :
      Shape.Accepts meaning shape v

end

variable {meaning : Shape Node → Json → Prop} {node : Node} {members : List Node} {v : Json}

theorem Node.accepts_iff : node.Accepts meaning v ↔
    node.nullable = true ∧ v = .null ∨ node.shape.Accepts meaning v := by
  constructor
  · intro accepted
    cases accepted with
    | flag nullable => exact .inl ⟨nullable, rfl⟩
    | shape inner => exact .inr inner
  · rintro (⟨nullable, rfl⟩ | inner)
    · exact .flag nullable
    · exact .shape inner

theorem Shape.accepts_anyOf :
    (Shape.anyOf members).Accepts meaning v ↔ ∃ member ∈ members, member.Accepts meaning v := by
  constructor
  · intro accepted
    cases accepted with
    | union listed inner => exact ⟨_, listed, inner⟩
    | other unread => exact unread.elim
  · rintro ⟨member, listed, inner⟩
    exact .union listed inner

theorem Shape.accepts_null {p : Primitive} (type : p.type = .null) :
    (Shape.primitive p).Accepts meaning v ↔ v = .null := by
  constructor
  · intro accepted
    cases accepted with
    | null => rfl
    | other unread => exact absurd type unread
  · rintro rfl
    exact .null type

theorem Shape.accepts_other {shape : Shape Node} (unread : shape.Open) :
    shape.Accepts meaning v ↔ meaning shape v := by
  constructor
  · intro accepted
    cases accepted with
    | null type => exact absurd type unread
    | union => exact unread.elim
    | other _ holds => exact holds
  · exact .other unread

theorem Node.isNull_iff : node.isNull = true ↔ ∃ p, node.shape = .primitive p ∧ p.type = .null := by
  unfold isNull
  split <;> simp_all

/-- A node of the null type accepts null alone, with or without a flag. -/
theorem Node.accepts_of_isNull (null : node.isNull = true) : node.Accepts meaning v ↔ v = .null := by
  obtain ⟨p, shape, type⟩ := isNull_iff.mp null
  rw [accepts_iff, shape, Shape.accepts_null type]
  tauto

def remaining (members : List Node) : List Node :=
  members.filter (!·.isNull)

theorem mem_remaining : node ∈ remaining members ↔ node ∈ members ∧ node.isNull = false := by
  simp [remaining]

/-- Members were taken out. -/
theorem length_remaining_lt :
    (remaining members).length < members.length ↔ ∃ member ∈ members, member.isNull = true := by
  rw [remaining, List.length_filter_lt_length_iff_exists]
  simp

/-- Null is accepted by a member that was taken out or by the flag of one that is left; all else is
accepted by the shape of one that is left. -/
theorem exists_accepts_iff : (∃ member ∈ members, member.Accepts meaning v) ↔
    v = .null ∧ ((remaining members).length < members.length ∨
      ∃ member ∈ remaining members, member.nullable = true) ∨
    ∃ member ∈ remaining members, member.shape.Accepts meaning v := by
  rw [length_remaining_lt]
  constructor
  · rintro ⟨member, listed, accepted⟩
    cases null : member.isNull with
    | true => exact .inl ⟨(accepts_of_isNull null).mp accepted, .inl ⟨member, listed, null⟩⟩
    | false =>
      have left := mem_remaining.mpr ⟨listed, null⟩
      rcases accepts_iff.mp accepted with ⟨nullable, isNull⟩ | inner
      · exact .inl ⟨isNull, .inr ⟨member, left, nullable⟩⟩
      · exact .inr ⟨member, left, inner⟩
  · rintro (⟨rfl, ⟨member, listed, null⟩ | ⟨member, left, nullable⟩⟩ | ⟨member, left, inner⟩)
    · exact ⟨member, listed, (accepts_of_isNull null).mpr rfl⟩
    · exact ⟨member, (mem_remaining.mp left).1, .flag nullable⟩
    · exact ⟨member, (mem_remaining.mp left).1, .shape inner⟩

section Cases

theorem unionOf_none (empty : remaining members = []) :
    unionOf members = { shape := .primitive { type := .null } } := by
  rw [remaining] at empty
  simp only [unionOf, empty]

theorem unionOf_only {only : Node} (left : remaining members = [only]) :
    unionOf members =
      only.withNullable (only.nullable || decide ((remaining members).length < members.length)) := by
  rw [remaining] at left ⊢
  simp only [unionOf, left]

theorem unionOf_several (several : 2 ≤ (remaining members).length) :
    unionOf members =
      { notes := { nullable := decide ((remaining members).length < members.length) ||
          (remaining members).any (·.nullable) }
        shape := .anyOf ((remaining members).map (·.withNullable false)) } := by
  rw [remaining] at several ⊢
  simp only [unionOf]
  split
  · rename_i empty
    simp [empty] at several
  · rename_i only left
    simp [left] at several
  · rfl

end Cases

/-- The flag of the union is set where a member was taken out or had a flag of its own, so the
members need none. -/
theorem accepts_unionOf_several (several : 2 ≤ (remaining members).length) :
    (unionOf members).Accepts meaning v ↔
      v = .null ∧ ((remaining members).length < members.length ∨
        ∃ member ∈ remaining members, member.nullable = true) ∨
      ∃ member ∈ remaining members, member.shape.Accepts meaning v := by
  have cleared (member : Node) :
      (member.withNullable false).Accepts meaning v ↔ member.shape.Accepts meaning v := by
    rw [accepts_iff]
    simp [Node.nullable, withNullable]
  rw [unionOf_several several, accepts_iff, Shape.accepts_anyOf]
  simp only [Node.nullable, List.mem_map, exists_exists_and_eq_and, cleared, Bool.or_eq_true,
    decide_eq_true_eq, List.any_eq_true]
  rw [and_comm]

/-- A union of one or more members means the same without its null members: it accepts a value if
and only if one of the members does. Nothing else is lost or moved: it is the null type, the only
shape that is left, or a union of the shapes that are left in their order. -/
theorem accepts_unionOf (meaning : Shape Node → Json → Prop) (members : List Node)
    (nonempty : members ≠ []) :
    (∀ v, (unionOf members).Accepts meaning v ↔ ∃ member ∈ members, member.Accepts meaning v) ∧
      (remaining members = [] → (unionOf members).shape = .primitive { type := .null }) ∧
      (∀ only, remaining members = [only] → (unionOf members).shape = only.shape) ∧
      (2 ≤ (remaining members).length → ∃ alternatives,
        (unionOf members).shape = .anyOf alternatives ∧
          alternatives.map (·.shape) = (remaining members).map (·.shape)) := by
  refine ⟨fun v => ?_, fun empty => by rw [unionOf_none empty], fun only left => ?_, fun several => ?_⟩
  · rw [exists_accepts_iff]
    rcases left : remaining members with _ | ⟨only, _ | ⟨second, rest⟩⟩
    · have taken : 0 < members.length := List.length_pos_iff.mpr nonempty
      rw [unionOf_none left, accepts_of_isNull rfl]
      simp [taken]
    · rw [unionOf_only left, accepts_iff, left]
      simp only [Node.nullable, withNullable, Bool.or_eq_true, decide_eq_true_eq, List.mem_singleton,
        exists_eq_left]
      tauto
    · rw [← left]
      exact accepts_unionOf_several (by simp [left])
  · rw [unionOf_only left]
    rfl
  · refine ⟨_, by rw [unionOf_several several], ?_⟩
    rw [List.map_map]
    rfl

def scalarMeaning : Shape Node → Json → Prop
  | .primitive { type := .string, .. }, .str _ => True
  | .primitive { type := .integer, .. }, .int _ => True
  | _, _ => False

/-- An integer, the null type, and a union of texts and truth values that may be null. -/
def scalarMembers : List Node :=
  let primitive (type : PrimitiveType) : Node := { shape := .primitive { type } }
  [primitive .integer, primitive .null,
    { notes := { nullable := true }, shape := .anyOf [primitive .string, primitive .boolean] }]

theorem accepts_unionOf_scalars :
    let union := unionOf scalarMembers
    scalarMembers ≠ [] ∧ union.Accepts scalarMeaning .null ∧ union.Accepts scalarMeaning (.str "a") ∧
      ¬ union.Accepts scalarMeaning (.bool true) ∧
      ∃ alternatives, union.shape = .anyOf alternatives ∧
        alternatives.map (·.shape) = (remaining scalarMembers).map (·.shape) := by
  have nonempty : scalarMembers ≠ [] := by simp [scalarMembers]
  obtain ⟨accepts, _, _, several⟩ := accepts_unionOf scalarMeaning scalarMembers nonempty
  refine ⟨nonempty, (accepts _).mpr ?_, (accepts _).mpr ?_, ?_, several (by decide)⟩
  · exact ⟨_, List.mem_of_getElem? (i := 1) rfl, .shape (.null rfl)⟩
  · refine ⟨_, List.mem_of_getElem? (i := 2) rfl, .shape (.union List.mem_cons_self (.shape ?_))⟩
    exact .other (by simp [Shape.Open]) trivial
  · have refused {type : PrimitiveType} (other : type ≠ .null) :
        ¬ (Shape.primitive { type }).Accepts scalarMeaning (.bool true) := by
      have unread : (Shape.primitive { type }).Open := other
      rw [Shape.accepts_other unread]
      simp [scalarMeaning]
    rw [accepts]
    simp [scalarMembers, Node.accepts_iff, Shape.accepts_anyOf, Shape.accepts_null, refused]

end TypedClient.Schema
