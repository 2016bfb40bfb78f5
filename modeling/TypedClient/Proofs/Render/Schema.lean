import TypedClient.Generator
import TypedClient.Proofs.Session.Outcome
import TypedClient.Proofs.TypeExpr.Fit

/-! What is written as schemas. An expression that fits is written without a fault, and it has every
property that its parts hand on. In particular every name in it is where a reference leads, and it
is used at once unless it is deferred. -/
namespace TypedClient.Render

open TypeExpr

variable {scope : Scope} {names : List String} {name : String}

namespace SchemaCode

theorem mem_bareAll {codes : List SchemaCode} :
    name ∈ bareAll codes ↔ ∃ code ∈ codes, name ∈ code.bare := by
  induction codes with
  | nil => simp [bareAll]
  | cons code rest ih => simp [bareAll, ih]

theorem mem_bareMembers {members : List (String × SchemaCode)} :
    name ∈ bareMembers members ↔ ∃ member ∈ members, name ∈ member.2.bare := by
  induction members with
  | nil => simp [bareMembers]
  | cons member rest ih => simp [bareMembers, ih]

theorem mem_delayedAll {codes : List SchemaCode} :
    name ∈ delayedAll codes ↔ ∃ code ∈ codes, name ∈ code.delayed := by
  induction codes with
  | nil => simp [delayedAll]
  | cons code rest ih => simp [delayedAll, ih]

theorem mem_delayedMembers {members : List (String × SchemaCode)} :
    name ∈ delayedMembers members ↔ ∃ member ∈ members, name ∈ member.2.delayed := by
  induction members with
  | nil => simp [delayedMembers]
  | cons member rest ih => simp [delayedMembers, ih]

def words : List String :=
  ["Schema.String", "Schema.Number", "Schema.Int", "Schema.Boolean", "Schema.Null", "Schema.Json",
   "Schema.Never", "globalThis.Blob", "undefined"]

def functions : List String :=
  ["Schema.instanceOf", "Schema.Literal", "Schema.Literals", "Schema.Array", "Schema.NonEmptyArray",
   "Schema.Tuple", "Schema.TupleWithRest", "Schema.Record", "Schema.Struct", "Schema.Union",
   "Schema.NullOr", "Schema.optionalKey", "Schema.withDecodingDefault",
   "Schema.withConstructorDefault", "Option.some", "Schema.check", "Schema.isUUID",
   "Schema.isPattern", "new RegExp", "Schema.isMinLength", "Schema.isMaxLength",
   "Schema.isGreaterThan", "Schema.isGreaterThanOrEqualTo", "Schema.isLessThan",
   "Schema.isLessThanOrEqualTo", "Schema.isMultipleOf"]

structure Keeps (scope : Scope) (names : List String) (P : SchemaCode → Prop) : Prop where
  word : ∀ text ∈ words, P (.word text)
  reference : ∀ name ∈ names, P (referenceCode scope name)
  literal : ∀ value, P (.literal value)
  call : ∀ function ∈ functions, ∀ args, (∀ code ∈ args, P code) → P (.call function args)
  list : ∀ items, (∀ code ∈ items, P code) → P (.list items)
  object : ∀ members, (∀ member ∈ members, P member.2) → P (.object members)
  thunk : ∀ body, P body → P (.thunk body)
  pipe : ∀ receiver steps, P receiver → (∀ step ∈ steps, P step) → P (.pipe receiver steps)

namespace Keeps

variable {P : SchemaCode → Prop} (keeps : Keeps scope names P)
include keeps

theorem call_one (function : String) (listed : function ∈ functions) {code : SchemaCode}
    (holds : P code) : P (.call function [code]) :=
  keeps.call function listed _ (List.forall_mem_singleton.mpr holds)

theorem call_two (function : String) (listed : function ∈ functions) {code other : SchemaCode}
    (holds : P code) (otherHolds : P other) : P (.call function [code, other]) :=
  keeps.call function listed _
    (List.forall_mem_cons.mpr ⟨holds, List.forall_mem_singleton.mpr otherHolds⟩)

theorem checkCode (check : Check) : P (checkCode check) := by
  obtain ⟨kind, value⟩ := check
  have test {name : String} (listed : name ∈ functions) : P (.call name [.literal value]) :=
    keeps.call_one name listed (keeps.literal value)
  apply keeps.call_one _ (by decide)
  cases kind with
  | uuid => exact keeps.call_one _ (by decide) (keeps.word _ (by decide))
  | pattern => exact keeps.call_one _ (by decide) (test (by decide))
  | _ => exact test (by decide)

theorem refine (head : TypeHead) {code : SchemaCode} (holds : P code) :
    P (refine head code) := by
  have checked : P (if head.checks.isEmpty then code
      else .pipe code (head.checks.map Render.checkCode)) := by
    split
    · exact holds
    · refine keeps.pipe _ _ holds fun step member => ?_
      obtain ⟨check, _, rfl⟩ := List.mem_map.mp member
      exact keeps.checkCode check
  unfold Render.refine
  dsimp only
  split
  · exact keeps.call_one _ (by decide) checked
  · exact checked

theorem wrap (wrapper : Wrapper) (defaultValue : Json) {code : SchemaCode} (holds : P code) :
    P (wrap wrapper defaultValue code) := by
  have value := keeps.literal defaultValue
  cases wrapper with
  | none => exact holds
  | optional => exact keeps.call_one _ (by decide) holds
  | decodingDefault =>
    exact keeps.pipe _ _ holds (List.forall_mem_singleton.mpr
      (keeps.call_one _ (by decide) (keeps.thunk _ value)))
  | constructorDefault =>
    exact keeps.pipe _ _ holds (List.forall_mem_singleton.mpr
      (keeps.call_one _ (by decide) (keeps.thunk _ (keeps.call_one _ (by decide) value))))

theorem primitive (name : String) : P (.word (primitiveSchema name)) := by
  apply keeps.word
  unfold primitiveSchema
  split <;> decide

end Keeps

/-- The expression uses targets of the given names, at once just those that are not deferred. -/
structure Cites (scope : Scope) (names : List String) (code : SchemaCode) : Prop where
  bare : ∀ name ∈ code.bare, name ∈ names.map scope.target ∧ name ∉ scope.deferred
  delayed : ∀ name ∈ code.delayed, name ∈ names.map scope.target ∧ name ∈ scope.deferred

theorem cites_closed {code : SchemaCode} (bare : code.bare = []) (delayed : code.delayed = []) :
    code.Cites scope names :=
  ⟨by simp [bare], by simp [delayed]⟩

theorem cites_all {codes : List SchemaCode} (cites : ∀ code ∈ codes, code.Cites scope names) :
    (∀ name ∈ bareAll codes, name ∈ names.map scope.target ∧ name ∉ scope.deferred) ∧
      ∀ name ∈ delayedAll codes, name ∈ names.map scope.target ∧ name ∈ scope.deferred := by
  constructor
  · intro name occurs
    obtain ⟨code, member, occurs⟩ := mem_bareAll.mp occurs
    exact (cites code member).bare name occurs
  · intro name occurs
    obtain ⟨code, member, occurs⟩ := mem_delayedAll.mp occurs
    exact (cites code member).delayed name occurs

theorem cites_object {members : List (String × SchemaCode)}
    (cites : ∀ member ∈ members, member.2.Cites scope names) :
    (object members).Cites scope names := by
  constructor
  · intro name occurs
    obtain ⟨code, member, occurs⟩ := mem_bareMembers.mp occurs
    exact (cites code member).bare name occurs
  · intro name occurs
    obtain ⟨code, member, occurs⟩ := mem_delayedMembers.mp occurs
    exact (cites code member).delayed name occurs

theorem cites_reference (declared : name ∈ names) :
    (referenceCode scope name).Cites scope names := by
  have led : scope.target name ∈ names.map scope.target := List.mem_map_of_mem declared
  unfold referenceCode
  by_cases later : scope.target name ∈ scope.deferred
  · constructor <;> simp [later, SchemaCode.bare, SchemaCode.delayed]
    simpa using led
  · constructor <;> simp [later, SchemaCode.bare, SchemaCode.delayed]
    simpa using led

theorem cites_keeps (scope : Scope) (names : List String) :
    Keeps scope names (Cites scope names) where
  word _ _ := cites_closed rfl rfl
  reference _ := cites_reference
  literal _ := cites_closed rfl rfl
  call _ _ _ cites := ⟨(cites_all cites).1, (cites_all cites).2⟩
  list _ cites := ⟨(cites_all cites).1, (cites_all cites).2⟩
  object _ := cites_object
  thunk _ cites := ⟨cites.bare, cites.delayed⟩
  pipe _ _ receiver steps :=
    ⟨List.forall_mem_append.mpr ⟨receiver.bare, (cites_all steps).1⟩,
      List.forall_mem_append.mpr ⟨receiver.delayed, (cites_all steps).2⟩⟩

end SchemaCode

open SchemaCode

section Types

variable {P : SchemaCode → Prop}

mutual

/-- An expression that fits becomes a schema, with whatever is kept on the way. -/
theorem schemaCode_keeps (keeps : Keeps scope names P) : ∀ type : TypeExpr, FitsIn names type →
    ∃ code, schemaCode scope type = .ok code ∧ P code
  | ⟨head, args, rest, fields⟩, fits => by
    obtain ⟨whole, declared, argsFit, restFits, fieldsFit⟩ := fitsIn_mk.mp fits
    suffices ∃ code : SchemaCode, P code ∧
        schemaCode scope ⟨head, args, rest, fields⟩ = .ok (refine head code) by
      obtain ⟨code, holds, written⟩ := this
      exact ⟨_, written, keeps.refine head holds⟩
    cases kind : head.kind with
    | primitive => exact ⟨_, keeps.primitive head.name, by simp only [schemaCode, kind]; rfl⟩
    | binary =>
      have blob := keeps.word "globalThis.Blob" (by decide)
      exact ⟨_, keeps.call_one "Schema.instanceOf" (by decide) blob,
        by simp only [schemaCode, kind]; rfl⟩
    | json => exact ⟨_, keeps.word "Schema.Json" (by decide), by simp only [schemaCode, kind]; rfl⟩
    | never =>
      exact ⟨_, keeps.word "Schema.Never" (by decide), by simp only [schemaCode, kind]; rfl⟩
    | literal =>
      cases values : head.values with
      | nil => simp [headComplete, kind, values] at whole
      | cons value more =>
        exact ⟨_, keeps.call_one "Schema.Literal" (by decide) (keeps.literal value),
          by simp only [schemaCode, kind, values]; rfl⟩
    | literals =>
      have each : ∀ code ∈ head.values.map SchemaCode.literal, P code := by
        intro code member
        obtain ⟨value, _, rfl⟩ := List.mem_map.mp member
        exact keeps.literal value
      exact ⟨_, keeps.call_one "Schema.Literals" (by decide) (keeps.list _ each),
        by simp only [schemaCode, kind]; rfl⟩
    | array =>
      obtain ⟨item, written, holds⟩ := schemaCodeOfFirst_keeps keeps args
        (headComplete_args whole (.inl kind)) argsFit
      have listed :
          (if head.nonEmpty then "Schema.NonEmptyArray" else "Schema.Array") ∈ functions := by
        split <;> decide
      exact ⟨_, keeps.call_one _ listed holds, by simp only [schemaCode, kind, written]; rfl⟩
    | tuple =>
      obtain ⟨items, written, each⟩ := schemaCodes_keeps keeps args argsFit
      obtain ⟨more, moreWritten, moreHolds⟩ := schemaCodeOfOption_keeps keeps rest restFits
      have elements : P (.call "Schema.Tuple" [.list items]) :=
        keeps.call_one _ (by decide) (keeps.list _ each)
      cases more with
      | none =>
        exact ⟨_, elements, by simp only [schemaCode, kind, written, moreWritten]; rfl⟩
      | some code =>
        have tail : P (.list [code]) := keeps.list _ (by simpa using moreHolds)
        exact ⟨_, keeps.call_two "Schema.TupleWithRest" (by decide) elements tail,
          by simp only [schemaCode, kind, written, moreWritten]; rfl⟩
    | record =>
      obtain ⟨value, written, holds⟩ := schemaCodeOfFirst_keeps keeps args
        (headComplete_args whole (.inr kind)) argsFit
      have key := keeps.word "Schema.String" (by decide)
      exact ⟨_, keeps.call_two "Schema.Record" (by decide) key holds,
        by simp only [schemaCode, kind, written]; rfl⟩
    | struct =>
      obtain ⟨members, written, each⟩ := schemaFields_keeps keeps fields fieldsFit
      exact ⟨_, keeps.call_one "Schema.Struct" (by decide) (keeps.object _ each),
        by simp only [schemaCode, kind, written]; rfl⟩
    | union =>
      obtain ⟨items, written, each⟩ := schemaCodes_keeps keeps args argsFit
      exact ⟨_, keeps.call_one "Schema.Union" (by decide) (keeps.list _ each),
        by simp only [schemaCode, kind, written]; rfl⟩
    | ref => exact ⟨_, keeps.reference _ (declared kind), by simp only [schemaCode, kind]; rfl⟩

theorem schemaCodeOfFirst_keeps (keeps : Keeps scope names P) : ∀ types : List TypeExpr,
    types ≠ [] → (∀ type ∈ types, FitsIn names type) →
      ∃ code, schemaCodeOfFirst scope types = .ok code ∧ P code
  | [], nonempty, _ => absurd rfl nonempty
  | type :: _, _, fit => schemaCode_keeps keeps type (fit type (by simp))

theorem schemaCodes_keeps (keeps : Keeps scope names P) : ∀ types : List TypeExpr,
    (∀ type ∈ types, FitsIn names type) →
      ∃ codes, schemaCodes scope types = .ok codes ∧ ∀ code ∈ codes, P code
  | [], _ => ⟨[], rfl, by simp⟩
  | type :: rest, fit => by
    obtain ⟨code, written, holds⟩ := schemaCode_keeps keeps type (fit type (by simp))
    obtain ⟨codes, restWritten, each⟩ := schemaCodes_keeps keeps rest
      fun other member => fit other (List.mem_cons_of_mem _ member)
    refine ⟨code :: codes, ?_, List.forall_mem_cons.mpr ⟨holds, each⟩⟩
    simp only [schemaCodes, written, restWritten]
    rfl

theorem schemaCodeOfOption_keeps (keeps : Keeps scope names P) : ∀ type : Option TypeExpr,
    (∀ t ∈ type, FitsIn names t) →
      ∃ code, schemaCodeOfOption scope type = .ok code ∧ ∀ c ∈ code, P c
  | none, _ => ⟨none, rfl, by simp⟩
  | some type, fit => by
    obtain ⟨code, written, holds⟩ := schemaCode_keeps keeps type (fit type rfl)
    refine ⟨some code, ?_, by simpa using holds⟩
    simp only [schemaCodeOfOption, written]
    rfl

theorem schemaFields_keeps (keeps : Keeps scope names P) : ∀ fields : List Field,
    (∀ field ∈ fields, ∃ type, field.type = some type ∧ FitsIn names type) →
      ∃ members, schemaFields scope fields = .ok members ∧ ∀ member ∈ members, P member.2
  | [], _ => ⟨[], rfl, by simp⟩
  | ⟨key, none, wrapper, defaultValue, description⟩ :: rest, fit => by
    obtain ⟨type, typed, _⟩ := fit _ List.mem_cons_self
    cases typed
  | ⟨key, some type, wrapper, defaultValue, description⟩ :: rest, fit => by
    obtain ⟨same, typed, fits⟩ := fit _ List.mem_cons_self
    obtain rfl := Option.some.inj typed
    obtain ⟨code, written, holds⟩ := schemaCode_keeps keeps type fits
    obtain ⟨members, restWritten, each⟩ := schemaFields_keeps keeps rest
      fun field member => fit field (List.mem_cons_of_mem _ member)
    refine ⟨(key, wrap wrapper defaultValue code) :: members, ?_,
      List.forall_mem_cons.mpr ⟨keeps.wrap wrapper defaultValue holds, each⟩⟩
    simp only [schemaFields, schemaCodeOfOption, written, restWritten]
    rfl

end

theorem schemaMembers_keeps (keeps : Keeps scope names P) {fields : List Field}
    (fit : ∀ field ∈ fields, ∃ type, field.type = some type ∧ FitsIn names type) :
    ∃ members, schemaMembers scope fields = .ok members ∧ ∀ member ∈ members, P member.code := by
  obtain ⟨codes, written, each⟩ := schemaFields_keeps keeps fields fit
  refine ⟨List.zipWith (fun m f => ⟨m.1, m.2, f.description⟩) codes fields, ?_, ?_⟩
  · simp only [schemaMembers, written]
    rfl
  · intro member listed
    rw [← List.map_uncurry_zip_eq_zipWith] at listed
    obtain ⟨⟨code, field⟩, pair, rfl⟩ := List.mem_map.mp listed
    exact each code (List.of_mem_zip pair).1

def SchemaItem.codes : SchemaItem → List SchemaCode
  | .classStruct members | .struct members => members.map (·.code)
  | .taggedError _ => []
  | .brand code | .schema code => code.toList

def SchemaItem.body? : SchemaItem → Option String
  | .taggedError body => body
  | _ => none

/-- A declaration that fits is written, with what is kept and with its own body if any. -/
theorem schemaItem_keeps (keeps : Keeps scope names P) {declaration : Declaration}
    (fits : ∀ type ∈ declaration.type, FitsIn names type) :
    ∃ item, schemaItem scope declaration = .ok item ∧ (∀ code ∈ item.codes, P code) ∧
      ∀ body ∈ item.body?, declaration.body = some body := by
  obtain ⟨members, membersWritten, membersHold⟩ : ∃ members, _ ∧ _ :=
    schemaMembers_keeps keeps (Declaration.fields_fit fits)
  obtain ⟨code, written, holds⟩ := schemaCodeOfOption_keeps keeps declaration.type fits
  have ofMembers : ∀ code ∈ members.map (·.code), P code := by
    intro code listed
    obtain ⟨member, inside, rfl⟩ := List.mem_map.mp listed
    exact membersHold member inside
  have ofCode : ∀ c ∈ code.toList, P c := fun c listed => holds c (Option.mem_toList.mp listed)
  cases kind : declaration.kind with
  | classStruct =>
    refine ⟨.classStruct members, ?_, ofMembers, nofun⟩
    simp only [schemaItem, kind, membersWritten]
    rfl
  | struct =>
    refine ⟨.struct members, ?_, ofMembers, nofun⟩
    simp only [schemaItem, kind, membersWritten]
    rfl
  | taggedError =>
    refine ⟨.taggedError declaration.body, ?_, nofun, fun body wraps => wraps⟩
    simp only [schemaItem, kind]
    rfl
  | brand =>
    refine ⟨.brand code, ?_, ofCode, nofun⟩
    simp only [schemaItem, kind, written]
    rfl
  | schema =>
    refine ⟨.schema code, ?_, ofCode, nofun⟩
    simp only [schemaItem, kind, written]
    rfl

end Types

/-- The declarations that an item uses at once. The fields of a body are among them. -/
def SchemaItem.bare : SchemaItem → List String
  | .classStruct members | .struct members => members.flatMap (·.code.bare)
  | .taggedError body => body.toList
  | .brand code | .schema code => code.toList.flatMap (·.bare)

def SchemaItem.delayed : SchemaItem → List String
  | .classStruct members | .struct members => members.flatMap (·.code.delayed)
  | .taggedError _ => []
  | .brand code | .schema code => code.toList.flatMap (·.delayed)

theorem SchemaItem.bare_eq (item : SchemaItem) :
    item.bare = item.codes.flatMap (·.bare) ++ item.body?.toList := by
  cases item <;> simp [bare, codes, body?, List.flatMap_map]

theorem SchemaItem.delayed_eq (item : SchemaItem) :
    item.delayed = item.codes.flatMap (·.delayed) := by
  cases item <;> simp [delayed, codes, List.flatMap_map]

/-- What an item uses is a target of a reference or the body of an error. A body is always used at
once. -/
theorem schemaItem_cites (scope : Scope) {declaration : Declaration}
    (fits : ∀ type ∈ declaration.type, FitsIn names type) :
    ∃ item, schemaItem scope declaration = .ok item ∧
      (∀ name ∈ item.bare, (name ∈ names.map scope.target ∧ name ∉ scope.deferred) ∨
        declaration.body = some name) ∧
      ∀ name ∈ item.delayed, name ∈ names.map scope.target ∧ name ∈ scope.deferred := by
  obtain ⟨item, written, cite, wraps⟩ := schemaItem_keeps (cites_keeps scope names) fits
  refine ⟨item, written, ?_, ?_⟩
  · rw [item.bare_eq, List.forall_mem_append]
    refine ⟨fun name occurs => .inl ?_, fun name wrapped => .inr ?_⟩
    · obtain ⟨code, listed, occurs⟩ := List.mem_flatMap.mp occurs
      exact (cite code listed).bare name occurs
    · exact wraps name (Option.mem_toList.mp wrapped)
  · rw [item.delayed_eq]
    intro name occurs
    obtain ⟨code, listed, occurs⟩ := List.mem_flatMap.mp occurs
    exact (cite code listed).delayed name occurs

section Blocks

variable {aliases : List (String × String)} {declarations : List Declaration}
  {items : List SchemaItem}

/-- What declarations say one after the other, each while itself and the later ones are
deferred. -/
def schemaItems (aliases : List (String × String)) :
    List Declaration → Except Fault (List SchemaItem)
  | [] => pure []
  | declaration :: rest => do
    let item ← schemaItem ⟨aliases, (declaration :: rest).map (·.name)⟩ declaration
    return item :: (← schemaItems aliases rest)

theorem schemaItems_cons {declaration : Declaration} {item : SchemaItem}
    (written : schemaItem ⟨aliases, (declaration :: declarations).map (·.name)⟩ declaration =
      .ok item)
    (rest : schemaItems aliases declarations = .ok items) :
    schemaItems aliases (declaration :: declarations) = .ok (item :: items) := by
  simp only [schemaItems, written, rest]
  rfl

/-- Under distinct names the deferred names are those of the declarations that are left. -/
theorem schemaBlocks_eq (distinct : (declarations.map (·.name)).Nodup)
    (written : schemaItems aliases declarations = .ok items) :
    schemaBlocks aliases declarations (declarations.map (·.name)) =
      (List.zipWith SchemaItem.block items declarations).mapM id := by
  induction declarations generalizing items with
  | nil =>
    cases written
    rfl
  | cons declaration rest ih =>
    have fresh : declaration.name ∉ rest.map (·.name) := (List.nodup_cons.mp distinct).1
    have left : ((declaration :: rest).map (·.name)).filter (· != declaration.name) =
        rest.map (·.name) := by
      rw [List.map_cons, List.filter_cons_of_neg (by simp), List.filter_eq_self]
      rintro name member
      have : name ≠ declaration.name := fun same => fresh (same ▸ member)
      simpa using this
    rw [schemaItems] at written
    obtain ⟨item, first, written⟩ := except_bind_eq_ok.mp written
    obtain ⟨restItems, others, same⟩ := except_bind_eq_ok.mp written
    obtain rfl := Except.ok.inj same
    have blocks := ih (List.nodup_cons.mp distinct).2 others
    rw [List.zipWith_cons_cons, List.mapM_cons]
    simp only [schemaBlocks, schemaDeclaration, first, left, blocks]
    rfl

theorem schemaText_eq (distinct : (declarations.map (·.name)).Nodup)
    (written : schemaItems aliases declarations = .ok items) :
    schemaText aliases declarations =
      joinBlocks <$> (List.zipWith SchemaItem.block items declarations).mapM id := by
  rw [schemaText, schemaBlocks_eq distinct written]
  rfl

/-- Declarations whose types fit are all written. What an item uses is one of its references or
its body, at once if it is written earlier or elsewhere, and later if it is still to come. -/
theorem schemaItems_cites (aliases : List (String × String)) :
    ∀ declarations : List Declaration,
      (∀ d ∈ declarations, ∀ type ∈ d.type, FitsIn d.refs type) →
        ∃ items, schemaItems aliases declarations = .ok items ∧
          items.length = declarations.length ∧
          ∀ i d item, declarations[i]? = some d → items[i]? = some item →
            (∀ name ∈ item.bare,
              (name ∈ d.refs.map (Scope.target ⟨aliases, []⟩) ∧
                name ∉ (declarations.drop i).map (·.name)) ∨ d.body = some name) ∧
            ∀ name ∈ item.delayed, name ∈ d.refs.map (Scope.target ⟨aliases, []⟩) ∧
              name ∈ (declarations.drop i).map (·.name)
  | [], _ => ⟨[], rfl, rfl, by simp⟩
  | declaration :: rest, fit => by
    obtain ⟨item, written, cites⟩ := schemaItem_cites
      ⟨aliases, (declaration :: rest).map (·.name)⟩ (fit declaration (by simp))
    obtain ⟨items, restWritten, length, cite⟩ := schemaItems_cites aliases rest
      fun d member => fit d (List.mem_cons_of_mem _ member)
    refine ⟨item :: items, schemaItems_cons written restWritten, by simp [length], ?_⟩
    rintro (_ | i) d other found otherFound
    · obtain rfl := Option.some.inj found
      obtain rfl := Option.some.inj otherFound
      exact cites
    · exact cite i d other found otherFound

end Blocks

end TypedClient.Render
