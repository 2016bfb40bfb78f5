import TypedClient.OutputKind
import TypedClient.Proofs.Render.Plain
import TypedClient.Proofs.Render.Schema

/-! Leaves of what is written. Either kind of output holds the names and values of just those parts
that it meets on its way through the shown children: the targets of references, and the values that
a part spells out. -/
namespace TypedClient

def FieldOf.default? (field : FieldOf α) : Option Json :=
  match field.wrapper with
  | .decodingDefault | .constructorDefault => some field.defaultValue
  | .none | .optional => none

namespace TypeExpr

/-- What the checks of an expression compare with. Of a UUID nothing is written. -/
def bounds (type : TypeExpr) : List Json :=
  (type.head.checks.filter (·.kind != .uuid)).map (·.value)

/-- The values that an expression spells out itself, apart from its children. -/
def spelled (kind : OutputKind) (type : TypeExpr) : List Json :=
  match kind, type.kind with
  | .schema, .literal => type.head.values.take 1 ++ type.bounds
  | .schema, .literals => type.head.values ++ type.bounds
  | .schema, .struct => type.fields.filterMap (·.default?) ++ type.bounds
  | .schema, _ => type.bounds
  | .type, .literal | .type, .literals => type.head.values
  | .type, _ => []

end TypeExpr

namespace Render

open TypeExpr

variable {scope : Scope} {β : Type} {b : β}

def Written (write : TypeExpr → Except Fault α) : List TypeExpr → List α → Prop :=
  List.Forall₂ fun type part => write type = .ok part

/-- The result has what the expression has of its own and what the results of the shown children
have. -/
def Composed (own : TypeExpr → β → Prop) (write : TypeExpr → Except Fault α) (has : α → β → Prop)
    (type : TypeExpr) (result : α) : Prop :=
  ∃ parts, Written write type.shown parts ∧
    ∀ b, has result b ↔ own type b ∨ ∃ part ∈ parts, has part b

def Renders (own : TypeExpr → β → Prop) (write : TypeExpr → Except Fault α) (has : α → β → Prop) :
    Prop :=
  ∀ type result, write type = .ok result → Composed own write has type result

/-- What is written has what the shown parts have of their own. -/
theorem Renders.has_iff {own : TypeExpr → β → Prop} {write : TypeExpr → Except Fault α}
    {has : α → β → Prop} {type : TypeExpr} {result : α} (renders : Renders own write has)
    (written : write type = .ok result) : has result b ↔ ∃ part, Shows type part ∧ own part b := by
  induction type using children_induction generalizing result with
  | step type ih =>
    obtain ⟨parts, inner, composed⟩ := renders type result written
    rw [composed]
    constructor
    · rintro (own | ⟨part, listed, occurs⟩)
      · exact ⟨type, .refl, own⟩
      · obtain ⟨child, member, same⟩ := exists_of_forall₂ inner listed
        obtain ⟨deep, shows, own⟩ := (ih child (type.shown_subset member) same).mp occurs
        exact ⟨deep, .head member shows, own⟩
    · rintro ⟨deep, shows, own⟩
      rcases Relation.ReflTransGen.cases_head shows with rfl | ⟨child, member, later⟩
      · exact .inl own
      · obtain ⟨part, listed, same⟩ := exists_of_forall₂ inner.flip member
        exact .inr ⟨part, listed, (ih child (type.shown_subset member) same).mpr ⟨deep, later, own⟩⟩

/-- What a part has of its own: what the target of its reference has, and what the values have that
it spells out. -/
def Own (kind : OutputKind) (scope : Scope) (named : String → β → Prop) (valued : Json → β → Prop)
    (type : TypeExpr) (b : β) : Prop :=
  (∃ ref, type.RefersTo ref ∧ named (scope.target ref) b) ∨ ∃ value ∈ type.spelled kind, valued value b

theorem own_of_ne_ref {kind : OutputKind} {named : String → β → Prop} {valued : Json → β → Prop}
    {type : TypeExpr} (other : type.kind ≠ .ref) :
    Own kind scope named valued type b ↔ ∃ value ∈ type.spelled kind, valued value b :=
  or_iff_right fun ⟨_, refers, _⟩ => other refers.1

section Schema

namespace SchemaCode

/-- A relation that is known from the leaves of expressions: their names and their literals. -/
structure Gathers (has : SchemaCode → β → Prop) (named : String → β → Prop)
    (valued : Json → β → Prop) : Prop where
  word : ∀ text b, ¬ has (.word text) b
  reference : ∀ name b, has (.reference name) b ↔ named name b
  suspended : ∀ name b, has (.suspended name) b ↔ named name b
  literal : ∀ value b, has (.literal value) b ↔ valued value b
  call : ∀ function args b, has (.call function args) b ↔ ∃ code ∈ args, has code b
  list : ∀ items b, has (.list items) b ↔ ∃ code ∈ items, has code b
  object : ∀ members b, has (.object members) b ↔ ∃ member ∈ members, has member.2 b
  thunk : ∀ body b, has (.thunk body) b ↔ has body b
  pipe : ∀ receiver steps b, has (.pipe receiver steps) b ↔ has receiver b ∨ ∃ code ∈ steps, has code b

namespace Gathers

variable {has : SchemaCode → β → Prop} {named : String → β → Prop} {valued : Json → β → Prop}
  (gathers : Gathers has named valued)
include gathers

theorem call_one (function : String) (code : SchemaCode) (b : β) :
    has (.call function [code]) b ↔ has code b := by
  simp [gathers.call]

theorem referenceCode (scope : Scope) (ref : String) (b : β) :
    has (referenceCode scope ref) b ↔ named (scope.target ref) b := by
  unfold Render.referenceCode
  dsimp only
  split
  · exact gathers.suspended _ b
  · exact gathers.reference _ b

theorem checkCode (check : Check) (b : β) :
    has (checkCode check) b ↔ check.kind ≠ .uuid ∧ valued check.value b := by
  unfold Render.checkCode
  dsimp only
  rw [gathers.call_one]
  cases check.kind <;> simp [gathers.call_one, gathers.literal, gathers.word]

theorem refine (type : TypeExpr) (code : SchemaCode) (b : β) :
    has (refine type.head code) b ↔ has code b ∨ ∃ value ∈ type.bounds, valued value b := by
  have checked : has (if type.head.checks.isEmpty then code
      else .pipe code (type.head.checks.map Render.checkCode)) b ↔
        has code b ∨ ∃ value ∈ type.bounds, valued value b := by
    split
    · rename_i unchecked
      simp [bounds, List.isEmpty_iff.mp unchecked]
    · simp [gathers.pipe, gathers.checkCode, bounds, and_assoc]
  unfold Render.refine
  dsimp only
  split
  · rw [gathers.call_one, checked]
  · exact checked

theorem wrap (field : FieldOf TypeExpr) (code : SchemaCode) (b : β) :
    has (wrap field.wrapper field.defaultValue code) b ↔
      has code b ∨ ∃ value ∈ field.default?, valued value b := by
  unfold Render.wrap FieldOf.default?
  cases field.wrapper <;>
    simp [gathers.call_one, gathers.pipe, gathers.thunk, gathers.literal]

end Gathers

end SchemaCode

open SchemaCode

theorem schemaCodes_eq_mapM (scope : Scope) (types : List TypeExpr) :
    schemaCodes scope types = types.mapM (schemaCode scope) := by
  induction types with
  | nil => rfl
  | cons type rest ih => rw [schemaCodes, ih, List.mapM_cons]

theorem written_schemaCodes {types : List TypeExpr} {codes : List SchemaCode}
    (written : schemaCodes scope types = .ok codes) : Written (schemaCode scope) types codes :=
  except_mapM_eq_ok.mp (schemaCodes_eq_mapM scope types ▸ written)

theorem written_schemaCodeOfFirst {types : List TypeExpr} {code : SchemaCode}
    (written : schemaCodeOfFirst scope types = .ok code) :
    Written (schemaCode scope) (types.take 1) [code] := by
  cases types with
  | nil => cases written
  | cons type rest => exact .cons written .nil

theorem written_schemaCodeOfOption {type : Option TypeExpr} {code : Option SchemaCode}
    (written : schemaCodeOfOption scope type = .ok code) :
    Written (schemaCode scope) type.toList code.toList := by
  cases type with
  | none =>
    cases written
    exact .nil
  | some type =>
    obtain ⟨inner, done, same⟩ := except_bind_eq_ok.mp written
    cases same
    exact .cons done .nil

variable {has : SchemaCode → β → Prop} {named : String → β → Prop} {valued : Json → β → Prop}

/-- Members are the fields, each with what its type is written as in a wrapper. -/
theorem SchemaCode.Gathers.schemaFields (gathers : Gathers has named valued) {fields : List Field}
    {members : List (String × SchemaCode)} (written : schemaFields scope fields = .ok members) :
    ∃ codes, Written (schemaCode scope) (fields.filterMap (·.type)) codes ∧
      ∀ b, (∃ member ∈ members, has member.2 b) ↔
        (∃ value ∈ fields.filterMap (·.default?), valued value b) ∨ ∃ code ∈ codes, has code b := by
  induction fields generalizing members with
  | nil =>
    cases written
    exact ⟨[], .nil, by simp⟩
  | cons field rest ih =>
    obtain ⟨key, type, wrapper, defaultValue, description⟩ := field
    rw [Render.schemaFields] at written
    obtain ⟨code, first, written⟩ := except_bind_eq_ok.mp written
    cases type with
    | none =>
      cases first
      cases written
    | some type =>
      obtain ⟨inner, done, same⟩ := except_bind_eq_ok.mp first
      cases same
      obtain ⟨others, later, same⟩ := except_bind_eq_ok.mp written
      cases same
      obtain ⟨codes, tail, composed⟩ := ih later
      refine ⟨inner :: codes, .cons done tail, fun b => ?_⟩
      have wrapped := gathers.wrap ⟨key, some type, wrapper, defaultValue, description⟩ inner b
      have defaults : (∃ value ∈ (⟨key, some type, wrapper, defaultValue, description⟩ :: rest :
          List Field).filterMap (·.default?), valued value b) ↔
            (∃ value ∈ (⟨key, some type, wrapper, defaultValue, description⟩ : Field).default?,
              valued value b) ∨ ∃ value ∈ rest.filterMap (·.default?), valued value b := by
        rw [List.filterMap_cons]
        split <;> simp [*]
      rw [List.exists_mem_cons_iff, List.exists_mem_cons_iff, wrapped, composed, defaults]
      simp only [or_assoc, or_left_comm]

/-- What an expression shows of its own are the values that stand in it besides its children, and
those of its checks. -/
theorem SchemaCode.Gathers.composed (gathers : Gathers has named valued) (type : TypeExpr)
    (code : SchemaCode) (values : List Json) (parts : List SchemaCode) (other : type.kind ≠ .ref)
    (spells : type.spelled .schema = values ++ type.bounds)
    (written : Written (schemaCode scope) type.shown parts)
    (inside : ∀ b, has code b ↔ (∃ value ∈ values, valued value b) ∨ ∃ part ∈ parts, has part b) :
    Composed (Own .schema scope named valued) (schemaCode scope) has type
      (Render.refine type.head code) := by
  refine ⟨parts, written, fun b => ?_⟩
  rw [gathers.refine, own_of_ne_ref other, spells, inside]
  simp only [List.mem_append, or_and_right, exists_or]
  exact or_right_comm

/-- Schemas hold what they show. -/
theorem SchemaCode.Gathers.renders (gathers : Gathers has named valued) (scope : Scope) :
    Renders (Own .schema scope named valued) (schemaCode scope) has := by
  rintro ⟨head, args, rest, fields⟩ result written
  cases kind : head.kind with
  | primitive | binary | json | never =>
    simp only [schemaCode, kind] at written
    cases written
    refine gathers.composed ⟨head, args, rest, fields⟩ _ [] [] (by simp [TypeExpr.kind, kind])
      (by simp [spelled, TypeExpr.kind, kind]) ?_ (by simp [gathers.call, gathers.word])
    simp only [shown, TypeExpr.kind, kind]
    exact .nil
  | literal =>
    cases values : head.values with
    | nil =>
      simp only [schemaCode, kind, values] at written
      cases written
    | cons value more =>
      simp only [schemaCode, kind, values] at written
      cases written
      refine gathers.composed ⟨head, args, rest, fields⟩ _ [value] [] (by simp [TypeExpr.kind, kind])
        (by simp [spelled, TypeExpr.kind, kind, values]) ?_ (by simp [gathers.call, gathers.literal])
      simp only [shown, TypeExpr.kind, kind]
      exact .nil
  | literals =>
    simp only [schemaCode, kind] at written
    cases written
    refine gathers.composed ⟨head, args, rest, fields⟩ _ head.values [] (by simp [TypeExpr.kind, kind])
      (by simp [spelled, TypeExpr.kind, kind]) ?_
      (by simp [gathers.call, gathers.list, gathers.literal])
    simp only [shown, TypeExpr.kind, kind]
    exact .nil
  | array | record =>
    simp only [schemaCode, kind] at written
    obtain ⟨item, first, same⟩ := except_bind_eq_ok.mp written
    cases same
    refine gathers.composed ⟨head, args, rest, fields⟩ _ [] [item] (by simp [TypeExpr.kind, kind])
      (by simp [spelled, TypeExpr.kind, kind]) ?_ (by simp [gathers.call, gathers.word])
    simp only [shown, TypeExpr.kind, kind]
    exact written_schemaCodeOfFirst first
  | tuple =>
    simp only [schemaCode, kind] at written
    obtain ⟨items, listed, written⟩ := except_bind_eq_ok.mp written
    obtain ⟨more, further, same⟩ := except_bind_eq_ok.mp written
    have shows : Written (schemaCode scope) (shown ⟨head, args, rest, fields⟩) (items ++ more.toList) := by
      simp only [shown, TypeExpr.kind, kind]
      exact List.rel_append (written_schemaCodes listed) (written_schemaCodeOfOption further)
    cases more with
    | none =>
      cases same
      exact gathers.composed ⟨head, args, rest, fields⟩ _ [] _ (by simp [TypeExpr.kind, kind])
        (by simp [spelled, TypeExpr.kind, kind]) shows (by simp [gathers.call, gathers.list])
    | some code =>
      cases same
      exact gathers.composed ⟨head, args, rest, fields⟩ _ [] _ (by simp [TypeExpr.kind, kind])
        (by simp [spelled, TypeExpr.kind, kind]) shows
        (by simp [gathers.call, gathers.list, or_and_right, exists_or])
  | struct =>
    simp only [schemaCode, kind] at written
    obtain ⟨members, listed, same⟩ := except_bind_eq_ok.mp written
    cases same
    obtain ⟨codes, inner, composed⟩ := gathers.schemaFields listed
    refine gathers.composed ⟨head, args, rest, fields⟩ _ (fields.filterMap (·.default?)) codes
      (by simp [TypeExpr.kind, kind]) (by simp [spelled, TypeExpr.kind, kind]) ?_ fun b => ?_
    · simp only [shown, TypeExpr.kind, kind]
      exact inner
    · rw [gathers.call_one, gathers.object, composed]
  | union =>
    simp only [schemaCode, kind] at written
    obtain ⟨items, listed, same⟩ := except_bind_eq_ok.mp written
    cases same
    refine gathers.composed ⟨head, args, rest, fields⟩ _ [] items (by simp [TypeExpr.kind, kind])
      (by simp [spelled, TypeExpr.kind, kind]) ?_ (by simp [gathers.call, gathers.list])
    simp only [shown, TypeExpr.kind, kind]
    exact written_schemaCodes listed
  | ref =>
    simp only [schemaCode, kind] at written
    cases written
    refine ⟨[], ?_, fun b => ?_⟩
    · simp only [shown, TypeExpr.kind, kind]
      exact .nil
    · rw [gathers.refine ⟨head, args, rest, fields⟩, gathers.referenceCode]
      simp [Own, spelled, RefersTo, TypeExpr.kind, kind]

end Schema

section Plain

namespace PlainType

structure Gathers (has : PlainType → β → Prop) (named : String → β → Prop)
    (valued : Json → β → Prop) : Prop where
  word : ∀ text b, ¬ has (.word text) b
  reference : ∀ name b, has (.reference name) b ↔ named name b
  literal : ∀ value b, has (.literal value) b ↔ valued value b
  union : ∀ members b, has (.union members) b ↔ ∃ type ∈ members, has type b
  group : ∀ type b, has (.group type) b ↔ has type b
  tuple : ∀ elements b, has (.tuple elements) b ↔ ∃ type ∈ elements, has type b
  spread : ∀ type b, has (.spread type) b ↔ has type b
  generic : ∀ name args b, has (.generic name args) b ↔ ∃ type ∈ args, has type b
  object : ∀ members b, has (.object members) b ↔ ∃ member ∈ members, has member.2.2 b

namespace Gathers

variable {has : PlainType → β → Prop} {named : String → β → Prop} {valued : Json → β → Prop}
  (gathers : Gathers has named valued)
include gathers

theorem grouped (type : PlainType) (b : β) : has type.grouped b ↔ has type b := by
  unfold PlainType.grouped
  split
  · exact gathers.group type b
  · rfl

theorem orNull (nullable : Bool) (type : PlainType) (b : β) :
    has (if nullable then .union [type, .word "null"] else type) b ↔ has type b := by
  split
  · simp [gathers.union, gathers.word]
  · rfl

end Gathers

end PlainType

open PlainType

theorem plainTypes_eq_mapM (scope : Scope) (types : List TypeExpr) :
    plainTypes scope types = types.mapM (plainType scope) := by
  induction types with
  | nil => rfl
  | cons type rest ih => rw [plainTypes, ih, List.mapM_cons]

theorem written_plainTypes {types : List TypeExpr} {plains : List PlainType}
    (written : plainTypes scope types = .ok plains) : Written (plainType scope) types plains :=
  except_mapM_eq_ok.mp (plainTypes_eq_mapM scope types ▸ written)

theorem written_plainTypeOfFirst {types : List TypeExpr} {plain : PlainType}
    (written : plainTypeOfFirst scope types = .ok plain) :
    Written (plainType scope) (types.take 1) [plain] := by
  cases types with
  | nil => cases written
  | cons type rest => exact .cons written .nil

theorem written_plainTypeOfOption {type : Option TypeExpr} {plain : Option PlainType}
    (written : plainTypeOfOption scope type = .ok plain) :
    Written (plainType scope) type.toList plain.toList := by
  cases type with
  | none =>
    cases written
    exact .nil
  | some type =>
    obtain ⟨inner, done, same⟩ := except_bind_eq_ok.mp written
    cases same
    exact .cons done .nil

theorem written_plainFields {fields : List Field} {members : List (String × Bool × PlainType)}
    (written : plainFields scope fields = .ok members) :
    Written (plainType scope) (fields.filterMap (·.type)) (members.map (·.2.2)) := by
  induction fields generalizing members with
  | nil =>
    cases written
    exact .nil
  | cons field rest ih =>
    obtain ⟨key, type, wrapper, defaultValue, description⟩ := field
    rw [plainFields] at written
    obtain ⟨plain, first, written⟩ := except_bind_eq_ok.mp written
    cases type with
    | none =>
      cases first
      cases written
    | some type =>
      obtain ⟨inner, done, same⟩ := except_bind_eq_ok.mp first
      cases same
      obtain ⟨others, later, same⟩ := except_bind_eq_ok.mp written
      cases same
      exact .cons done (ih later)

variable {has : PlainType → β → Prop} {named : String → β → Prop} {valued : Json → β → Prop}

theorem PlainType.Gathers.composed (gathers : Gathers has named valued) (type : TypeExpr)
    (plain : PlainType) (parts : List PlainType) (other : type.kind ≠ .ref)
    (written : Written (plainType scope) type.shown parts)
    (inside : ∀ b, has plain b ↔
      (∃ value ∈ type.spelled .type, valued value b) ∨ ∃ part ∈ parts, has part b) :
    Composed (Own .type scope named valued) (plainType scope) has type
      (if type.head.nullable then .union [plain, .word "null"] else plain) := by
  refine ⟨parts, written, fun b => ?_⟩
  rw [gathers.orNull, own_of_ne_ref other, inside]

/-- Plain types hold what they show. -/
theorem PlainType.Gathers.renders (gathers : Gathers has named valued) (scope : Scope) :
    Renders (Own .type scope named valued) (plainType scope) has := by
  rintro ⟨head, args, rest, fields⟩ result written
  cases kind : head.kind with
  | primitive | binary | json | never =>
    simp only [plainType, kind] at written
    cases written
    refine gathers.composed ⟨head, args, rest, fields⟩ _ [] (by simp [TypeExpr.kind, kind]) ?_
      (by simp [spelled, TypeExpr.kind, kind, gathers.word])
    simp only [shown, TypeExpr.kind, kind]
    exact .nil
  | literal | literals =>
    have shows : Written (plainType scope) (shown ⟨head, args, rest, fields⟩) [] := by
      simp only [shown, TypeExpr.kind, kind]
      exact .nil
    cases values : head.values with
    | nil =>
      simp only [plainType, kind, values] at written
      cases written
      exact gathers.composed ⟨head, args, rest, fields⟩ _ [] (by simp [TypeExpr.kind, kind]) shows
        (by simp [spelled, TypeExpr.kind, kind, values, gathers.word])
    | cons value more =>
      simp only [plainType, kind, values] at written
      cases written
      exact gathers.composed ⟨head, args, rest, fields⟩ _ [] (by simp [TypeExpr.kind, kind]) shows
        (by simp [spelled, TypeExpr.kind, kind, values, gathers.union, gathers.literal])
  | array =>
    simp only [plainType, kind] at written
    obtain ⟨item, first, same⟩ := except_bind_eq_ok.mp written
    cases same
    refine gathers.composed ⟨head, args, rest, fields⟩ _ [item] (by simp [TypeExpr.kind, kind]) ?_
      fun b => ?_
    · simp only [shown, TypeExpr.kind, kind]
      exact written_plainTypeOfFirst first
    · -- an array that is not empty is written with its item twice
      split <;> simp [spelled, TypeExpr.kind, kind, gathers.tuple, gathers.spread, gathers.generic]
  | record =>
    simp only [plainType, kind] at written
    obtain ⟨item, first, same⟩ := except_bind_eq_ok.mp written
    cases same
    refine gathers.composed ⟨head, args, rest, fields⟩ _ [item] (by simp [TypeExpr.kind, kind]) ?_
      (by simp [spelled, TypeExpr.kind, kind, gathers.generic, gathers.word])
    simp only [shown, TypeExpr.kind, kind]
    exact written_plainTypeOfFirst first
  | tuple =>
    simp only [plainType, kind] at written
    obtain ⟨elements, listed, written⟩ := except_bind_eq_ok.mp written
    obtain ⟨more, further, same⟩ := except_bind_eq_ok.mp written
    cases same
    refine gathers.composed ⟨head, args, rest, fields⟩ _ (elements ++ more.toList)
      (by simp [TypeExpr.kind, kind]) ?_ fun b => ?_
    · simp only [shown, TypeExpr.kind, kind]
      exact List.rel_append (written_plainTypes listed) (written_plainTypeOfOption further)
    · cases more <;> simp [spelled, TypeExpr.kind, kind, gathers.tuple, gathers.spread]
  | struct =>
    simp only [plainType, kind] at written
    obtain ⟨members, listed, same⟩ := except_bind_eq_ok.mp written
    cases same
    refine gathers.composed ⟨head, args, rest, fields⟩ _ (members.map (·.2.2))
      (by simp [TypeExpr.kind, kind]) ?_ fun b => ?_
    · simp only [shown, TypeExpr.kind, kind]
      exact written_plainFields listed
    · rw [gathers.object]
      simp only [spelled, TypeExpr.kind, kind, List.not_mem_nil, false_and, exists_false, false_or,
        List.mem_map, exists_exists_and_eq_and]
  | union =>
    simp only [plainType, kind] at written
    obtain ⟨members, listed, same⟩ := except_bind_eq_ok.mp written
    cases same
    refine gathers.composed ⟨head, args, rest, fields⟩ _ members (by simp [TypeExpr.kind, kind]) ?_
      (by simp [spelled, TypeExpr.kind, kind, gathers.union, gathers.grouped])
    simp only [shown, TypeExpr.kind, kind]
    exact written_plainTypes listed
  | ref =>
    simp only [plainType, kind] at written
    cases written
    refine ⟨[], ?_, fun b => ?_⟩
    · simp only [shown, TypeExpr.kind, kind]
      exact .nil
    · rw [gathers.orNull, gathers.reference]
      simp [Own, spelled, RefersTo, TypeExpr.kind, kind]

end Plain

end Render

end TypedClient
