import TypedClient.Proofs.Builder.Coherence

/-! Properties that the expression of a node refers to by a brand. An expression does not say which
node it was built from, so it is taken apart along with its node: what leads nowhere has no place in
a struct or a union, and all else stands in order. -/
namespace TypedClient.Builder

open Schema Node

variable {document : Json} {known : List (String × String)} {node : Node} {type : TypeExpr}
  {brand : String} {base : PrimitiveType}

section Loss

/-- The reference is neither known by a name nor does it lead into the document. -/
def Absent (document : Json) (known : List (String × String)) (pointer : Json) : Prop :=
  (∀ p, pointer = .str p → p ∉ known.map (·.1)) ∧ Pointer.resolve pointer document = .ok none

/-- The node leads nowhere, where references may be known from other documents. -/
inductive Lost (document : Json) (known : List (String × String)) : Node → Prop
  | ref {node : Node} {pointer : Json} (shape : node.shape = .ref pointer)
      (absent : Absent document known pointer) : Lost document known node
  | wrapped {node member : Node} (wraps : node.singleRef? = some member)
      (lost : Lost document known member) : Lost document known node
  | merged {node result : Node} (merging : node.merges = true)
      (merges : MergesTo document node result) (lost : Lost document known result) :
      Lost document known node
  | union {node : Node} {members : List Node} (shape : node.shape = .anyOf members)
      (lost : ∀ member ∈ members, Lost document known member) : Lost document known node
  | items {node item : Node} {minItems maxItems : Option Json}
      (shape : node.shape = .array (.each item) minItems maxItems)
      (lost : Lost document known item) : Lost document known node

open Classical in
noncomputable def leads (document : Json) (known : List (String × String)) (node : Node) : Bool :=
  !decide (Lost document known node)

@[simp] theorem leads_eq_true : leads document known node = true ↔ ¬ Lost document known node := by
  simp [leads]

theorem merges_iff : node.merges = true ↔
    ∃ members, node.shape = .allOf members ∧ node.singleRef? = none := by
  simp only [merges, Bool.and_eq_true, isAllOf_eq_true, Option.isNone_iff_eq_none, exists_and_right]

theorem lost_iff : Lost document known node ↔
    match node.shape with
    | .ref pointer => Absent document known pointer
    | .allOf _ =>
      match node.singleRef? with
      | some member => Lost document known member
      | none => ∃ result, MergesTo document node result ∧ Lost document known result
    | .anyOf members => ∀ member ∈ members, Lost document known member
    | .array (.each item) _ _ => Lost document known item
    | _ => False := by
  constructor
  · intro lost
    cases lost with
    | ref shape absent => simpa [shape] using absent
    | wrapped wraps lost => simpa [(singleRef?_eq_some.mp wraps).1, wraps] using lost
    | merged merging merges lost =>
      obtain ⟨members, shape, wraps⟩ := merges_iff.mp merging
      simp only [shape, wraps]
      exact ⟨_, merges, lost⟩
    | union shape lost => simpa [shape] using lost
    | items shape lost => simpa [shape] using lost
  · intro lost
    split at lost
    · exact .ref ‹_› lost
    · rename_i members shape
      split at lost
      · exact .wrapped ‹_› lost
      · rename_i wraps
        obtain ⟨result, merges, lost⟩ := lost
        exact .merged (merges_iff.mpr ⟨members, shape, wraps⟩) merges lost
    · exact .union ‹_› lost
    · exact .items ‹_› lost
    · exact lost.elim

end Loss

section Replacing

/-- Where the expression has its place for a primitive property, it refers to the brand. The base is
the type of the property. -/
inductive Replaces (document : Json) (known : List (String × String)) :
    Node → TypeExpr → String → PrimitiveType → Prop
  | brand {node : Node} {type : TypeExpr} {object : Fields Node} {property : Key × Node}
      {field : Field} {p : Primitive} {brand : String} {nullable : Bool}
      (shape : node.shape = .object object)
      (paired : (property, field) ∈
        (object.properties.filter (leads document known ·.2)).zip type.fields)
      (plain : property.2.shape = .primitive p)
      (refers : field.type = some (.ref brand nullable)) :
      Replaces document known node type brand p.type
  | property {node : Node} {type inner : TypeExpr} {object : Fields Node} {property : Key × Node}
      {field : Field} {brand : String} {base : PrimitiveType} (shape : node.shape = .object object)
      (paired : (property, field) ∈
        (object.properties.filter (leads document known ·.2)).zip type.fields)
      (typed : field.type = some inner)
      (within : Replaces document known property.2 inner brand base) :
      Replaces document known node type brand base
  | value {node item : Node} {type inner : TypeExpr} {object : Fields Node} {brand : String}
      {base : PrimitiveType} (shape : node.shape = .object object)
      (additional : object.additional = some item) (args : type.args = [inner])
      (within : Replaces document known item inner brand base) :
      Replaces document known node type brand base
  | item {node item : Node} {type inner : TypeExpr} {minItems maxItems : Option Json}
      {brand : String} {base : PrimitiveType}
      (shape : node.shape = .array (.each item) minItems maxItems) (args : type.args = [inner])
      (within : Replaces document known item inner brand base) :
      Replaces document known node type brand base
  | lead {node item : Node} {type inner : TypeExpr} {lead : List Node} {rest : Items Node}
      {brand : String} {base : PrimitiveType} (shape : node.shape = .tuple lead rest)
      (paired : (item, inner) ∈ lead.zip type.args)
      (within : Replaces document known item inner brand base) :
      Replaces document known node type brand base
  | rest {node item : Node} {type inner : TypeExpr} {lead : List Node} {brand : String}
      {base : PrimitiveType} (shape : node.shape = .tuple lead (.each item))
      (further : type.rest = some inner)
      (within : Replaces document known item inner brand base) :
      Replaces document known node type brand base
  | only {node member : Node} {type : TypeExpr} {members : List Node} {brand : String}
      {base : PrimitiveType} (shape : node.shape = .anyOf members)
      (alone : members.filter (leads document known) = [member])
      (within : Replaces document known member type brand base) :
      Replaces document known node type brand base
  | union {node member : Node} {type inner : TypeExpr} {members : List Node} {brand : String}
      {base : PrimitiveType} (shape : node.shape = .anyOf members)
      (several : (members.filter (leads document known)).length ≠ 1)
      (paired : (member, inner) ∈ (members.filter (leads document known)).zip type.args)
      (within : Replaces document known member inner brand base) :
      Replaces document known node type brand base
  | merged {node result : Node} {type : TypeExpr} {brand : String} {base : PrimitiveType}
      (merging : node.merges = true) (merges : MergesTo document node result)
      (within : Replaces document known result type brand base) :
      Replaces document known node type brand base

def FieldReplaces (document : Json) (known : List (String × String)) (node : Node) (field : Field)
    (brand : String) (base : PrimitiveType) : Prop :=
  (∃ p nullable, node.shape = .primitive p ∧ field.type = some (.ref brand nullable) ∧
    p.type = base) ∨
  ∃ inner, field.type = some inner ∧ Replaces document known node inner brand base

theorem replaces_iff : Replaces document known node type brand base ↔
    match node.shape with
    | .object object =>
      (∃ pair ∈ (object.properties.filter (leads document known ·.2)).zip type.fields,
        FieldReplaces document known pair.1.2 pair.2 brand base) ∨
      ∃ item inner, object.additional = some item ∧ type.args = [inner] ∧
        Replaces document known item inner brand base
    | .array (.each item) _ _ =>
      ∃ inner, type.args = [inner] ∧ Replaces document known item inner brand base
    | .tuple lead rest =>
      (∃ pair ∈ lead.zip type.args, Replaces document known pair.1 pair.2 brand base) ∨
      ∃ item inner, rest = .each item ∧ type.rest = some inner ∧
        Replaces document known item inner brand base
    | .anyOf members =>
      match members.filter (leads document known) with
      | [member] => Replaces document known member type brand base
      | several => ∃ pair ∈ several.zip type.args,
        Replaces document known pair.1 pair.2 brand base
    | .allOf _ => node.singleRef? = none ∧
      ∃ result, MergesTo document node result ∧ Replaces document known result type brand base
    | _ => False := by
  constructor
  · intro replaces
    cases replaces with
    | brand shape paired plain refers =>
      simp only [shape]
      exact .inl ⟨_, paired, .inl ⟨_, _, plain, refers, rfl⟩⟩
    | property shape paired typed within =>
      simp only [shape]
      exact .inl ⟨_, paired, .inr ⟨_, typed, within⟩⟩
    | value shape additional args within =>
      simp only [shape]
      exact .inr ⟨_, _, additional, args, within⟩
    | item shape args within =>
      simp only [shape]
      exact ⟨_, args, within⟩
    | lead shape paired within =>
      simp only [shape]
      exact .inl ⟨_, paired, within⟩
    | rest shape further within =>
      simp only [shape]
      exact .inr ⟨_, _, rfl, further, within⟩
    | only shape alone within => simpa only [shape, alone] using within
    | union shape several paired within =>
      simp only [shape]
      split
      · rename_i alone
        simp [alone] at several
      · exact ⟨_, paired, within⟩
    | merged merging merges within =>
      obtain ⟨members, shape, wraps⟩ := merges_iff.mp merging
      simp only [shape]
      exact ⟨wraps, _, merges, within⟩
  · intro replaces
    split at replaces
    · rename_i object shape
      rcases replaces with ⟨⟨property, field⟩, paired, own | ⟨inner, typed, within⟩⟩ |
        ⟨item, inner, additional, args, within⟩
      · obtain ⟨p, nullable, plain, refers, rfl⟩ := own
        exact .brand shape paired plain refers
      · exact .property shape paired typed within
      · exact .value shape additional args within
    · obtain ⟨inner, args, within⟩ := replaces
      exact .item ‹_› args within
    · rename_i shape
      rcases replaces with ⟨⟨item, inner⟩, paired, within⟩ | ⟨item, inner, rfl, further, within⟩
      · exact .lead shape paired within
      · exact .rest shape further within
    · rename_i members shape
      split at replaces
      · exact .only shape ‹_› replaces
      · rename_i several
        obtain ⟨⟨member, inner⟩, paired, within⟩ := replaces
        refine .union shape (fun single => ?_) paired within
        obtain ⟨only, alone⟩ := List.length_eq_one_iff.mp single
        exact several only alone
    · rename_i members shape
      obtain ⟨wraps, result, merges, within⟩ := replaces
      exact .merged (merges_iff.mpr ⟨members, shape, wraps⟩) merges within
    · exact replaces.elim

/-- Only the parts of an expression matter, not its head. -/
theorem Replaces.of_parts {other : TypeExpr}
    (replaces : Replaces document known node type brand base) (args : other.args = type.args)
    (rest : other.rest = type.rest)
    (fields : other.fields = type.fields) : Replaces document known node other brand base := by
  induction replaces with
  | brand shape paired plain refers => exact .brand shape (fields ▸ paired) plain refers
  | property shape paired typed within => exact .property shape (fields ▸ paired) typed within
  | value shape additional single within => exact .value shape additional (args.trans single) within
  | item shape single within => exact .item shape (args.trans single) within
  | lead shape paired within => exact .lead shape (args ▸ paired) within
  | rest shape further within => exact .rest shape (rest.trans further) within
  | only shape alone _ ih => exact .only shape alone (ih args rest fields)
  | union shape several paired within => exact .union shape several (args ▸ paired) within
  | merged merging merges _ ih => exact .merged merging merges (ih args rest fields)

theorem replaces_orNull :
    Replaces document known node type.orNull brand base ↔
      Replaces document known node type brand base :=
  ⟨fun replaces => replaces.of_parts rfl rfl rfl, fun replaces => replaces.of_parts rfl rfl rfl⟩

/-- An expression without parts has no place for a property. -/
theorem not_replaces_of_leaf {head : TypeHead} :
    ¬ Replaces document known node { head } brand base := by
  intro replaces
  generalize leaf : ({ head } : TypeExpr) = type at replaces
  induction replaces with
  | only _ _ _ ih | merged _ _ _ ih => exact ih leaf
  | _ => subst leaf; simp_all

def ReplacesIn (document : Json) (known : List (String × String)) (node : Node)
    (type : Option TypeExpr) (brand : String) (base : PrimitiveType) : Prop :=
  ∃ result ∈ type, Replaces document known node result brand base

theorem replacesIn_some :
    ReplacesIn document known node (some type) brand base ↔
      Replaces document known node type brand base := by
  simp [ReplacesIn]

theorem replacesIn_none : ¬ ReplacesIn document known node none brand base := by
  simp [ReplacesIn]

/-- Any JSON value stands for what leads nowhere. -/
theorem replaces_getD {type : Option TypeExpr} :
    Replaces document known node (type.getD .json) brand base ↔
      ReplacesIn document known node type brand base := by
  cases type with
  | none => exact iff_of_false not_replaces_of_leaf replacesIn_none
  | some type => exact replacesIn_some.symm

end Replacing

section Pairing

variable {lost : α → Prop} {keep : α → Bool} {holds : α → β → Prop}

/-- Pairs of items with their results, where nothing comes of the items that are lost. -/
theorem exists_zip_filterMap (claims : α → β → Prop) {items : List α} {results : List (Option β)}
    (decides : ∀ a, keep a = true ↔ ¬ lost a)
    (each : List.Forall₂ (fun a => Kept (lost a) (holds a)) items results) :
    (∃ pair ∈ (items.filter keep).zip (results.filterMap id), claims pair.1 pair.2) ↔
      ∃ pair ∈ items.zip results, ∃ b ∈ pair.2, claims pair.1 b := by
  induction each with
  | nil => simp
  | @cons a r items results first _ ih =>
    cases r with
    | none =>
      have drop : ¬ keep a = true := fun kept => (decides a).mp kept first
      rw [List.filter_cons_of_neg drop, List.filterMap_cons_none (f := id) rfl, ih]
      simp
    | some b =>
      rw [List.filter_cons_of_pos ((decides a).mpr first.1), List.filterMap_cons_some (f := id) rfl]
      rw [List.zip_cons_cons, List.zip_cons_cons, List.exists_mem_cons_iff,
        List.exists_mem_cons_iff, ih]
      simp

end Pairing

end TypedClient.Builder
