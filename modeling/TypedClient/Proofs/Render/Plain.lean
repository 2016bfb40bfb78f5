import TypedClient.Generator
import TypedClient.Proofs.TypeExpr.Fit

/-! What is written as plain types. An expression that fits is written without a fault, and it has
every property that its parts hand on. In particular every name in it is where a reference leads. -/
namespace TypedClient.Render

open TypeExpr

variable {scope : Scope} {names : List String} {name : String}

namespace PlainType

theorem mem_mentionsAll {types : List PlainType} :
    name ∈ mentionsAll types ↔ ∃ type ∈ types, name ∈ type.mentions := by
  induction types with
  | nil => simp [mentionsAll]
  | cons type rest ih => simp [mentionsAll, ih]

theorem mem_mentionsMembers {members : List (String × Bool × PlainType)} :
    name ∈ mentionsMembers members ↔ ∃ member ∈ members, name ∈ member.2.2.mentions := by
  induction members with
  | nil => simp [mentionsMembers]
  | cons member rest ih => simp [mentionsMembers, ih]

def words : List String :=
  ["string", "number", "boolean", "null", "unknown", "never", "Blob"]

def constructors : List String := ["ReadonlyArray", "Record"]

/-- A property that plain types over some names have if their parts have it. -/
structure Keeps (scope : Scope) (names : List String) (P : PlainType → Prop) : Prop where
  word : ∀ text ∈ words, P (.word text)
  reference : ∀ name ∈ names, P (.reference (scope.target name))
  literal : ∀ value, P (.literal value)
  union : ∀ members, (∀ type ∈ members, P type) → P (.union members)
  group : ∀ type, P type → P (.group type)
  tuple : ∀ elements, (∀ type ∈ elements, P type) → P (.tuple elements)
  spread : ∀ type, P type → P (.spread type)
  generic : ∀ name ∈ constructors, ∀ args, (∀ type ∈ args, P type) → P (.generic name args)
  object : ∀ members, (∀ member ∈ members, P member.2.2) → P (.object members)

namespace Keeps

variable {P : PlainType → Prop} (keeps : Keeps scope names P)
include keeps

theorem primitive (name : String) : P (.word (primitivePlain name)) := by
  apply keeps.word
  unfold primitivePlain
  split <;> decide

theorem literals (values : List Json) : P (.union (values.map PlainType.literal)) := by
  refine keeps.union _ fun type member => ?_
  obtain ⟨value, _, rfl⟩ := List.mem_map.mp member
  exact keeps.literal value

theorem grouped {type : PlainType} (holds : P type) : P type.grouped := by
  unfold PlainType.grouped
  split
  · exact keeps.group _ holds
  · exact holds

theorem nullable {type : PlainType} (holds : P type) : P (.union [type, .word "null"]) :=
  keeps.union _ (List.forall_mem_cons.mpr
    ⟨holds, List.forall_mem_singleton.mpr (keeps.word "null" (by decide))⟩)

theorem array {item : PlainType} (holds : P item) (nonEmpty : Bool) :
    P (if nonEmpty then .tuple [item, .spread item] else .generic "ReadonlyArray" [item]) := by
  split
  · exact keeps.tuple _ (List.forall_mem_cons.mpr
      ⟨holds, List.forall_mem_singleton.mpr (keeps.spread _ holds)⟩)
  · exact keeps.generic _ (by decide) _ (List.forall_mem_singleton.mpr holds)

theorem record {value : PlainType} (holds : P value) :
    P (.generic "Record" [.word "string", value]) :=
  keeps.generic _ (by decide) _ (List.forall_mem_cons.mpr
    ⟨keeps.word "string" (by decide), List.forall_mem_singleton.mpr holds⟩)

end Keeps

def Cites (scope : Scope) (names : List String) (type : PlainType) : Prop :=
  type.mentions ⊆ names.map scope.target

theorem cites_all {types : List PlainType} (cite : ∀ type ∈ types, type.Cites scope names) :
    mentionsAll types ⊆ names.map scope.target := by
  intro name occurs
  obtain ⟨type, member, occurs⟩ := mem_mentionsAll.mp occurs
  exact cite type member occurs

theorem cites_keeps (scope : Scope) (names : List String) :
    Keeps scope names (Cites scope names) where
  word _ _ := List.nil_subset _
  reference _ declared := List.forall_mem_singleton.mpr (List.mem_map_of_mem declared)
  literal _ := List.nil_subset _
  union _ := cites_all
  group _ cites := cites
  tuple _ := cites_all
  spread _ cites := cites
  generic _ _ _ := cites_all
  object _ cite := by
    intro name occurs
    obtain ⟨member, listed, occurs⟩ := mem_mentionsMembers.mp occurs
    exact cite member listed occurs

end PlainType

open PlainType

section Types

variable {P : PlainType → Prop}

mutual

/-- An expression that fits becomes a plain type, with whatever is kept on the way. -/
theorem plainType_keeps (keeps : Keeps scope names P) : ∀ type : TypeExpr, FitsIn names type →
    ∃ plain, plainType scope type = .ok plain ∧ P plain
  | ⟨head, args, rest, fields⟩, fits => by
    obtain ⟨whole, declared, argsFit, restFits, fieldsFit⟩ := fitsIn_mk.mp fits
    suffices ∃ plain : PlainType, P plain ∧
        plainType scope ⟨head, args, rest, fields⟩ =
          .ok (if head.nullable then .union [plain, .word "null"] else plain) by
      obtain ⟨plain, holds, written⟩ := this
      refine ⟨_, written, ?_⟩
      split
      · exact keeps.nullable holds
      · exact holds
    cases kind : head.kind with
    | primitive => exact ⟨_, keeps.primitive head.name, by simp only [plainType, kind]; rfl⟩
    | binary => exact ⟨_, keeps.word "Blob" (by decide), by simp only [plainType, kind]; rfl⟩
    | json => exact ⟨_, keeps.word "unknown" (by decide), by simp only [plainType, kind]; rfl⟩
    | never => exact ⟨_, keeps.word "never" (by decide), by simp only [plainType, kind]; rfl⟩
    | literal | literals =>
      cases values : head.values with
      | nil =>
        exact ⟨_, keeps.word "never" (by decide), by simp only [plainType, kind, values]; rfl⟩
      | cons value more =>
        exact ⟨_, keeps.literals (value :: more), by simp only [plainType, kind, values]; rfl⟩
    | array =>
      obtain ⟨item, written, holds⟩ := plainTypeOfFirst_keeps keeps args
        (headComplete_args whole (.inl kind)) argsFit
      exact ⟨_, keeps.array holds head.nonEmpty, by simp only [plainType, kind, written]; rfl⟩
    | tuple =>
      obtain ⟨elements, written, each⟩ := plainTypes_keeps keeps args argsFit
      obtain ⟨more, moreWritten, moreHolds⟩ := plainTypeOfOption_keeps keeps rest restFits
      refine ⟨.tuple (elements ++ more.toList.map .spread), keeps.tuple _ ?_,
        by simp only [plainType, kind, written, moreWritten]; rfl⟩
      refine List.forall_mem_append.mpr ⟨each, ?_⟩
      intro type member
      obtain ⟨plain, listed, rfl⟩ := List.mem_map.mp member
      exact keeps.spread _ (moreHolds plain (Option.mem_toList.mp listed))
    | record =>
      obtain ⟨value, written, holds⟩ := plainTypeOfFirst_keeps keeps args
        (headComplete_args whole (.inr kind)) argsFit
      exact ⟨_, keeps.record holds, by simp only [plainType, kind, written]; rfl⟩
    | struct =>
      obtain ⟨members, written, each⟩ := plainFields_keeps keeps fields fieldsFit
      exact ⟨_, keeps.object members each, by simp only [plainType, kind, written]; rfl⟩
    | union =>
      obtain ⟨members, written, each⟩ := plainTypes_keeps keeps args argsFit
      refine ⟨.union (members.map (·.grouped)), keeps.union _ ?_,
        by simp only [plainType, kind, written]; rfl⟩
      intro type member
      obtain ⟨plain, listed, rfl⟩ := List.mem_map.mp member
      exact keeps.grouped (each plain listed)
    | ref => exact ⟨_, keeps.reference _ (declared kind), by simp only [plainType, kind]; rfl⟩

theorem plainTypeOfFirst_keeps (keeps : Keeps scope names P) : ∀ types : List TypeExpr,
    types ≠ [] → (∀ type ∈ types, FitsIn names type) →
      ∃ plain, plainTypeOfFirst scope types = .ok plain ∧ P plain
  | [], nonempty, _ => absurd rfl nonempty
  | type :: _, _, fit => plainType_keeps keeps type (fit type (by simp))

theorem plainTypes_keeps (keeps : Keeps scope names P) : ∀ types : List TypeExpr,
    (∀ type ∈ types, FitsIn names type) →
      ∃ plains, plainTypes scope types = .ok plains ∧ ∀ plain ∈ plains, P plain
  | [], _ => ⟨[], rfl, by simp⟩
  | type :: rest, fit => by
    obtain ⟨plain, written, holds⟩ := plainType_keeps keeps type (fit type (by simp))
    obtain ⟨plains, restWritten, each⟩ := plainTypes_keeps keeps rest
      fun other member => fit other (List.mem_cons_of_mem _ member)
    refine ⟨plain :: plains, ?_, List.forall_mem_cons.mpr ⟨holds, each⟩⟩
    simp only [plainTypes, written, restWritten]
    rfl

theorem plainTypeOfOption_keeps (keeps : Keeps scope names P) : ∀ type : Option TypeExpr,
    (∀ t ∈ type, FitsIn names t) →
      ∃ plain, plainTypeOfOption scope type = .ok plain ∧ ∀ p ∈ plain, P p
  | none, _ => ⟨none, rfl, by simp⟩
  | some type, fit => by
    obtain ⟨plain, written, holds⟩ := plainType_keeps keeps type (fit type rfl)
    refine ⟨some plain, ?_, by simpa using holds⟩
    simp only [plainTypeOfOption, written]
    rfl

theorem plainFields_keeps (keeps : Keeps scope names P) : ∀ fields : List Field,
    (∀ field ∈ fields, ∃ type, field.type = some type ∧ FitsIn names type) →
      ∃ members, plainFields scope fields = .ok members ∧ ∀ member ∈ members, P member.2.2
  | [], _ => ⟨[], rfl, by simp⟩
  | ⟨key, none, wrapper, defaultValue, description⟩ :: rest, fit => by
    obtain ⟨type, typed, _⟩ := fit _ List.mem_cons_self
    cases typed
  | ⟨key, some type, wrapper, defaultValue, description⟩ :: rest, fit => by
    obtain ⟨same, typed, fits⟩ := fit _ List.mem_cons_self
    obtain rfl := Option.some.inj typed
    obtain ⟨plain, written, holds⟩ := plainType_keeps keeps type fits
    obtain ⟨members, restWritten, each⟩ := plainFields_keeps keeps rest
      fun field member => fit field (List.mem_cons_of_mem _ member)
    refine ⟨(key, wrapper == .optional, plain) :: members, ?_,
      List.forall_mem_cons.mpr ⟨holds, each⟩⟩
    simp only [plainFields, plainTypeOfOption, written, restWritten]
    rfl

end

theorem plainMembers_keeps (keeps : Keeps scope names P) {fields : List Field}
    (fit : ∀ field ∈ fields, ∃ type, field.type = some type ∧ FitsIn names type) :
    ∃ members, plainMembers scope fields = .ok members ∧ ∀ member ∈ members, P member.type := by
  obtain ⟨types, written, each⟩ := plainFields_keeps keeps fields fit
  refine ⟨List.zipWith (fun m f => ⟨m.1, m.2.1, m.2.2, f.description⟩) types fields, ?_, ?_⟩
  · simp only [plainMembers, written]
    rfl
  · intro member listed
    rw [← List.map_uncurry_zip_eq_zipWith] at listed
    obtain ⟨⟨type, field⟩, pair, rfl⟩ := List.mem_map.mp listed
    exact each type (List.of_mem_zip pair).1

def PlainItem.types : PlainItem → List PlainType
  | .interface members => members.map (·.type)
  | .taggedError _ => []
  | .brand type | .named type => type.toList

def PlainItem.body? : PlainItem → Option String
  | .taggedError body => body
  | _ => none

/-- A declaration that fits is written, with what is kept and with its own body if any. -/
theorem plainItem_keeps (keeps : Keeps scope names P) {declaration : Declaration}
    (fits : ∀ type ∈ declaration.type, FitsIn names type) :
    ∃ item, plainItem scope declaration = .ok item ∧ (∀ type ∈ item.types, P type) ∧
      ∀ body ∈ item.body?, declaration.body = some body := by
  obtain ⟨members, membersWritten, membersHold⟩ : ∃ members, _ ∧ _ :=
    plainMembers_keeps keeps (Declaration.fields_fit fits)
  obtain ⟨plain, written, holds⟩ := plainTypeOfOption_keeps keeps declaration.type fits
  have ofMembers : ∀ type ∈ members.map (·.type), P type := by
    intro type listed
    obtain ⟨member, inside, rfl⟩ := List.mem_map.mp listed
    exact membersHold member inside
  have ofType : ∀ type ∈ plain.toList, P type :=
    fun type listed => holds type (Option.mem_toList.mp listed)
  cases kind : declaration.kind with
  | classStruct | struct =>
    refine ⟨.interface members, ?_, ofMembers, nofun⟩
    simp only [plainItem, kind, membersWritten]
    rfl
  | taggedError =>
    refine ⟨.taggedError declaration.body, ?_, nofun, fun body wraps => wraps⟩
    simp only [plainItem, kind]
    rfl
  | brand =>
    refine ⟨.brand plain, ?_, ofType, nofun⟩
    simp only [plainItem, kind, written]
    rfl
  | schema =>
    refine ⟨.named plain, ?_, ofType, nofun⟩
    simp only [plainItem, kind, written]
    rfl

end Types

/-- The declarations that an item mentions, the body of an error among them. -/
def PlainItem.mentions : PlainItem → List String
  | .interface members => members.flatMap (·.type.mentions)
  | .taggedError body => body.toList
  | .brand type | .named type => type.toList.flatMap (·.mentions)

theorem PlainItem.mentions_eq (item : PlainItem) :
    item.mentions = item.types.flatMap (·.mentions) ++ item.body?.toList := by
  cases item <;> simp [mentions, types, body?, List.flatMap_map]

/-- What an item mentions is a target of a reference or the body of an error. -/
theorem plainItem_cites (scope : Scope) {declaration : Declaration}
    (fits : ∀ type ∈ declaration.type, FitsIn names type) :
    ∃ item, plainItem scope declaration = .ok item ∧ ∀ name ∈ item.mentions,
      name ∈ names.map scope.target ∨ declaration.body = some name := by
  obtain ⟨item, written, cite, wraps⟩ := plainItem_keeps (cites_keeps scope names) fits
  refine ⟨item, written, ?_⟩
  rw [item.mentions_eq, List.forall_mem_append]
  refine ⟨fun name occurs => .inl ?_, fun name wrapped => .inr ?_⟩
  · obtain ⟨type, listed, occurs⟩ := List.mem_flatMap.mp occurs
    exact cite type listed occurs
  · exact wraps name (Option.mem_toList.mp wrapped)

def plainItems (aliases : List (String × String)) (declarations : List Declaration) :
    Except Fault (List PlainItem) :=
  declarations.mapM (plainItem ⟨aliases, []⟩)

/-- Declarations whose types fit are all written, and what an item mentions is one of its
references or its body. -/
theorem plainItems_cites (aliases : List (String × String)) :
    ∀ declarations : List Declaration,
      (∀ d ∈ declarations, ∀ type ∈ d.type, FitsIn d.refs type) →
        ∃ items, plainItems aliases declarations = .ok items ∧
          items.length = declarations.length ∧
          declarations.mapM (plainDeclaration ⟨aliases, []⟩) =
            (List.zipWith PlainItem.block items declarations).mapM id ∧
          ∀ (i : Nat) d item, declarations[i]? = some d → items[i]? = some item →
            ∀ name ∈ PlainItem.mentions item,
              name ∈ d.refs.map (Scope.target ⟨aliases, []⟩) ∨ d.body = some name
  | [], _ => ⟨[], rfl, rfl, rfl, by simp⟩
  | declaration :: rest, fit => by
    obtain ⟨item, written, cites⟩ :=
      plainItem_cites ⟨aliases, []⟩ (fit declaration (by simp))
    obtain ⟨items, restWritten, length, restText, cite⟩ := plainItems_cites aliases rest
      fun d member => fit d (List.mem_cons_of_mem _ member)
    rw [plainItems] at restWritten
    refine ⟨item :: items, ?_, by simp [length], ?_, ?_⟩
    · rw [plainItems, List.mapM_cons, written, restWritten]
      rfl
    · rw [List.mapM_cons, plainDeclaration, written, restText, List.zipWith_cons_cons, List.mapM_cons]
      rfl
    · rintro (_ | i) d other found otherFound
      · obtain rfl := Option.some.inj found
        obtain rfl := Option.some.inj otherFound
        exact cites
      · exact cite i d other found otherFound

end TypedClient.Render
