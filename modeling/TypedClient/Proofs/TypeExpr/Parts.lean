import Mathlib
import TypedClient.Declaration

/-! The parts of a type expression. All children count for its references, which a loop with a stack
collects, but only some are shown when it is written, by its kind. An expression is tidy if no part
hides a child. -/
namespace TypedClient.TypeExpr

def shown (type : TypeExpr) : List TypeExpr :=
  match type.kind with
  | .array | .record => type.args.take 1
  | .tuple => type.args ++ type.rest.toList
  | .union => type.args
  | .struct => type.fields.filterMap (·.type)
  | _ => []

variable {type child part : TypeExpr} {name : String}

theorem mem_children : child ∈ type.children ↔
    child ∈ type.args ∨ type.rest = some child ∨
      ∃ field ∈ type.fields, field.type = some child := by
  simp [children]

theorem shown_subset (type : TypeExpr) : type.shown ⊆ type.children := by
  intro child member
  rw [mem_children]
  unfold shown at member
  split at member
  · exact .inl (List.mem_of_mem_take member)
  · exact .inl (List.mem_of_mem_take member)
  · exact (List.mem_append.mp member).imp id fun further => .inl (Option.mem_toList.mp further)
  · exact .inl member
  · exact .inr (.inr (List.mem_filterMap.mp member))
  · cases member

theorem size_le_sizeOfAll {types : List TypeExpr} (member : type ∈ types) :
    type.size ≤ sizeOfAll types := by
  induction member with
  | head => exact Nat.le_add_right _ _
  | tail _ _ ih => exact ih.trans (Nat.le_add_left _ _)

theorem size_child (member : child ∈ type.children) : child.size < type.size := by
  rw [size_eq type]
  exact Nat.lt_succ_of_le (size_le_sizeOfAll member)

/-- What holds of an expression if it holds of its children holds of every expression. -/
theorem children_induction {P : TypeExpr → Prop}
    (step : ∀ type, (∀ child ∈ type.children, P child) → P type) (type : TypeExpr) : P type :=
  step type fun child member =>
    have := size_child member
    children_induction step child
termination_by type.size

/-- The part is met on a way down from the expression. -/
def Reaches : TypeExpr → TypeExpr → Prop :=
  Relation.ReflTransGen fun type child => child ∈ type.children

/-- The part is met when the expression is written. -/
def Shows : TypeExpr → TypeExpr → Prop :=
  Relation.ReflTransGen fun type child => child ∈ type.shown

theorem Shows.reaches (shows : Shows type part) : Reaches type part := by
  refine Relation.ReflTransGen.mono (fun _ _ member => ?_) _ _ shows
  exact shown_subset _ member

def RefersTo (part : TypeExpr) (name : String) : Prop :=
  part.kind = .ref ∧ part.head.name = name

/-- A reference among the parts is the expression itself or a part of a child. -/
theorem exists_part_iff (type : TypeExpr) : (∃ part, Reaches type part ∧ part.RefersTo name) ↔
    type.RefersTo name ∨ ∃ child ∈ type.children, ∃ part, Reaches child part ∧ part.RefersTo name := by
  constructor
  · rintro ⟨part, reaches, refers⟩
    rcases Relation.ReflTransGen.cases_head reaches with rfl | ⟨child, member, later⟩
    · exact .inl refers
    · exact .inr ⟨child, member, part, later, refers⟩
  · rintro (refers | ⟨child, member, part, reaches, refers⟩)
    · exact ⟨type, .refl, refers⟩
    · exact ⟨part, .head member reaches, refers⟩

theorem mem_noteRef {names : List String} :
    name ∈ noteRef names type ↔ name ∈ names ∨ type.RefersTo name := by
  unfold noteRef RefersTo
  split
  · next kind => simp [kind, or_comm, eq_comm]
  · next kind => simp [kind]

/-- The loop finds the references among all parts of what is on the stack. -/
theorem mem_refsFrom {names : List String} {stack : List TypeExpr} :
    name ∈ refsFrom names stack ↔
      name ∈ names ∨ ∃ type ∈ stack, ∃ part, Reaches type part ∧ part.RefersTo name := by
  fun_induction refsFrom names stack with
  | case1 => simp
  | case2 names type stack ih =>
    rw [ih, mem_noteRef, or_assoc]
    refine or_congr_right ?_
    simp only [List.mem_append, List.mem_reverse, List.mem_cons, or_and_right, exists_or,
      exists_eq_left, exists_part_iff type, or_assoc]

/-- The names of an expression are those of the references among its parts. -/
theorem mem_refs_iff : name ∈ type.refs ↔ ∃ part, Reaches type part ∧ part.RefersTo name := by
  simp [refs, mem_refsFrom]

theorem mem_refs :
    name ∈ type.refs ↔ type.RefersTo name ∨ ∃ child ∈ type.children, name ∈ child.refs := by
  simp only [mem_refs_iff]
  exact exists_part_iff type

section Tidy

/-- No part hides a child when it is written. -/
def Tidy (type : TypeExpr) : Prop :=
  ∀ part, Reaches type part → part.children ⊆ part.shown

theorem tidy_iff :
    Tidy type ↔ type.children ⊆ type.shown ∧ ∀ child ∈ type.children, Tidy child := by
  constructor
  · intro tidy
    exact ⟨tidy type .refl, fun child member part reaches => tidy part (.head member reaches)⟩
  · rintro ⟨own, inner⟩ part reaches
    rcases Relation.ReflTransGen.cases_head reaches with rfl | ⟨child, member, later⟩
    · exact own
    · exact inner child member part later

theorem Tidy.of_reaches (tidy : Tidy type) (reaches : Reaches type part) : Tidy part :=
  fun inner further => tidy inner (reaches.trans further)

/-- All parts of a tidy expression are shown. -/
theorem Tidy.shows_iff (tidy : Tidy type) : Shows type part ↔ Reaches type part := by
  refine ⟨Shows.reaches, fun reaches => ?_⟩
  induction reaches with
  | refl => exact .refl
  | tail earlier member ih => exact ih.tail (tidy _ earlier member)

end Tidy

end TypedClient.TypeExpr
