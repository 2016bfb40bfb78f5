import TypedClient.Proofs.Render.Leaves

/-! Literals that are written. Text depends on nothing but the literals in it: it is there just if
each of them has a text, which is so unless an integer has too many digits. -/
namespace TypedClient

namespace Json

def Legible (value : Json) : Prop :=
  ∀ n ∈ value.integers, n.natAbs < 10 ^ Text.digitLimit

theorem overlong_iff {n : Int} : overlong n = true ↔ 10 ^ Text.digitLimit ≤ n.natAbs := by
  rw [overlong, decide_eq_true_iff, Nat.pow_eq]

theorem literalText_eq_ok {value : Json} {text : String} :
    value.literalText = .ok text ↔ value.Legible ∧ value.print = text := by
  have short : value.integers.find? overlong = none ↔ value.Legible := by
    simp [overlong_iff, Legible]
  unfold literalText
  rw [← short]
  split <;> simp [*]

theorem literalText_eq_error {value : Json} {fault : Fault}
    (failed : value.literalText = .error fault) :
    ∃ n ∈ value.integers, 10 ^ Text.digitLimit ≤ n.natAbs ∧
      fault = .numeral (toString n.natAbs).length := by
  unfold literalText at failed
  split at failed
  · rename_i n found
    cases failed
    exact ⟨n, List.mem_of_find?_eq_some found, overlong_iff.mp (List.find?_some found), rfl⟩
  · cases failed

end Json

namespace Render

open TypeExpr

/-- A result that hinges on the texts of some values: it is there just if they all have one, and
else it fails as one of them does. -/
structure Hinges (values : Json → Prop) (result : Except Fault α) : Prop where
  legible : ∀ a, result = .ok a → ∀ value, values value → value.Legible
  failed : ∀ fault, result = .error fault → ∃ value, values value ∧ value.literalText = .error fault

namespace Hinges

variable {values others : Json → Prop} {result : Except Fault α}

theorem of_ok (a : α) : Hinges (fun _ => False) (.ok a : Except Fault α) :=
  ⟨nofun, nofun⟩

theorem literalText (value : Json) : Hinges (· = value) value.literalText := by
  refine ⟨?_, fun fault failed => ⟨value, rfl, failed⟩⟩
  rintro text written _ rfl
  exact (Json.literalText_eq_ok.mp written).1

theorem imp (hinges : Hinges values result) (same : ∀ value, values value ↔ others value) :
    Hinges others result := by
  obtain rfl : values = others := funext fun value => propext (same value)
  exact hinges

theorem exists_ok_iff (hinges : Hinges values result) :
    (∃ a, result = .ok a) ↔ ∀ value, values value → value.Legible := by
  refine ⟨fun ⟨a, done⟩ => hinges.legible a done, fun legible => ?_⟩
  cases result with
  | ok a => exact ⟨a, rfl⟩
  | error fault =>
    obtain ⟨value, spelt, failed⟩ := hinges.failed fault rfl
    have written := Json.literalText_eq_ok.mpr ⟨legible value spelt, rfl⟩
    cases failed.symm.trans written

theorem bind {next : α → Except Fault β} (first : Hinges values result)
    (later : ∀ a, result = .ok a → Hinges others (next a)) :
    Hinges (fun value => values value ∨ others value) (result >>= next) := by
  constructor
  · intro b done value spelt
    obtain ⟨a, found, done⟩ := except_bind_eq_ok.mp done
    rcases spelt with spelt | spelt
    · exact first.legible a found value spelt
    · exact (later a found).legible b done value spelt
  · intro fault failed
    cases result with
    | error fault' =>
      cases failed
      obtain ⟨value, spelt, same⟩ := first.failed _ rfl
      exact ⟨value, .inl spelt, same⟩
    | ok a =>
      obtain ⟨value, spelt, same⟩ := (later a rfl).failed fault failed
      exact ⟨value, .inr spelt, same⟩

theorem map (hinges : Hinges values result) (f : α → β) :
    Hinges values (result >>= fun a => pure (f a)) :=
  (hinges.bind fun a _ => of_ok (f a)).imp fun _ => iff_of_eq (or_false _)

theorem mapM {f : α → Except Fault β} {items : List α} {values : α → Json → Prop}
    (each : ∀ item ∈ items, Hinges (values item) (f item)) :
    Hinges (fun value => ∃ item ∈ items, values item value) (items.mapM f) := by
  induction items with
  | nil => exact (of_ok []).imp (by simp)
  | cons item rest ih =>
    rw [List.forall_mem_cons] at each
    rw [List.mapM_cons]
    refine (each.1.bind fun first _ => (ih each.2).map (first :: ·)).imp fun value => ?_
    rw [List.exists_mem_cons_iff]

end Hinges

section Codes

namespace SchemaCode

inductive Holds : SchemaCode → Json → Prop where
  | literal (value) : Holds (.literal value) value
  | call {function args code value} : code ∈ args → Holds code value → Holds (.call function args) value
  | list {items code value} : code ∈ items → Holds code value → Holds (.list items) value
  | object {members member value} : member ∈ members → Holds member.2 value →
      Holds (.object members) value
  | thunk {body value} : Holds body value → Holds (.thunk body) value
  | receiver {receiver steps value} : Holds receiver value → Holds (.pipe receiver steps) value
  | step {receiver steps code value} : code ∈ steps → Holds code value → Holds (.pipe receiver steps) value

theorem gathers_holds : Gathers Holds (fun _ _ => False) fun value literal => value = literal where
  word _ _ := nofun
  reference _ _ := iff_of_false nofun id
  suspended _ _ := iff_of_false nofun id
  literal value _ := by
    refine ⟨?_, fun same => same ▸ .literal value⟩
    rintro ⟨⟩
    rfl
  call _ _ _ := by
    constructor
    · rintro ⟨⟩
      exact ⟨_, ‹_›, ‹_›⟩
    · rintro ⟨_, member, holds⟩
      exact .call member holds
  list _ _ := by
    constructor
    · rintro ⟨⟩
      exact ⟨_, ‹_›, ‹_›⟩
    · rintro ⟨_, member, holds⟩
      exact .list member holds
  object _ _ := by
    constructor
    · rintro ⟨⟩
      exact ⟨_, ‹_›, ‹_›⟩
    · rintro ⟨_, member, holds⟩
      exact .object member holds
  thunk _ _ := by
    refine ⟨?_, .thunk⟩
    rintro ⟨⟩
    assumption
  pipe _ _ _ := by
    constructor
    · intro holds
      cases holds with
      | receiver holds => exact .inl holds
      | step member holds => exact .inr ⟨_, member, holds⟩
    · rintro (holds | ⟨code, member, holds⟩)
      · exact .receiver holds
      · exact .step member holds

mutual

theorem text_hinges : ∀ code : SchemaCode, Hinges code.Holds code.text
  | .word s => (Hinges.of_ok s).imp fun _ => iff_of_false id (gathers_holds.word _ _)
  | .reference name => (Hinges.of_ok name).imp fun _ => (gathers_holds.reference _ _).symm
  | .suspended _ => (Hinges.of_ok _).imp fun _ => (gathers_holds.suspended _ _).symm
  | .literal value =>
    (Hinges.literalText value).imp fun _ => eq_comm.trans (gathers_holds.literal _ _).symm
  | .call _ args => ((texts_hinges args).map _).imp fun _ => (gathers_holds.call _ _ _).symm
  | .list items => ((texts_hinges items).map _).imp fun _ => (gathers_holds.list _ _).symm
  | .object [] => (Hinges.of_ok _).imp fun _ => by simp [gathers_holds.object]
  | .object (member :: rest) =>
    ((memberTexts_hinges (member :: rest)).map _).imp fun _ => (gathers_holds.object _ _).symm
  | .thunk body => ((text_hinges body).map _).imp fun _ => (gathers_holds.thunk _ _).symm
  | .pipe receiver steps =>
    ((text_hinges receiver).bind fun _ _ => (texts_hinges steps).map _).imp
      fun _ => (gathers_holds.pipe _ _ _).symm

theorem texts_hinges : ∀ codes : List SchemaCode,
    Hinges (fun value => ∃ code ∈ codes, code.Holds value) (texts codes)
  | [] => (Hinges.of_ok _).imp (by simp)
  | code :: rest =>
    ((text_hinges code).bind fun text _ => (texts_hinges rest).map (text :: ·)).imp (by simp)

theorem memberTexts_hinges : ∀ members : List (String × SchemaCode),
    Hinges (fun value => ∃ member ∈ members, member.2.Holds value) (memberTexts members)
  | [] => (Hinges.of_ok _).imp (by simp)
  | (_, code) :: rest =>
    ((text_hinges code).bind fun _ _ => (memberTexts_hinges rest).map (_ :: ·)).imp
      fun _ => by rw [List.exists_mem_cons_iff]

end

end SchemaCode

namespace PlainType

inductive Holds : PlainType → Json → Prop where
  | literal (value) : Holds (.literal value) value
  | union {members type value} : type ∈ members → Holds type value → Holds (.union members) value
  | group {type value} : Holds type value → Holds (.group type) value
  | tuple {elements type value} : type ∈ elements → Holds type value → Holds (.tuple elements) value
  | spread {type value} : Holds type value → Holds (.spread type) value
  | generic {name args type value} : type ∈ args → Holds type value → Holds (.generic name args) value
  | object {members member value} : member ∈ members → Holds member.2.2 value →
      Holds (.object members) value

theorem gathers_holds : Gathers Holds (fun _ _ => False) fun value literal => value = literal where
  word _ _ := nofun
  reference _ _ := iff_of_false nofun id
  literal value _ := by
    refine ⟨?_, fun same => same ▸ .literal value⟩
    rintro ⟨⟩
    rfl
  union _ _ := by
    constructor
    · rintro ⟨⟩
      exact ⟨_, ‹_›, ‹_›⟩
    · rintro ⟨_, member, holds⟩
      exact .union member holds
  group _ _ := by
    refine ⟨?_, .group⟩
    rintro ⟨⟩
    assumption
  tuple _ _ := by
    constructor
    · rintro ⟨⟩
      exact ⟨_, ‹_›, ‹_›⟩
    · rintro ⟨_, member, holds⟩
      exact .tuple member holds
  spread _ _ := by
    refine ⟨?_, .spread⟩
    rintro ⟨⟩
    assumption
  generic _ _ _ := by
    constructor
    · rintro ⟨⟩
      exact ⟨_, ‹_›, ‹_›⟩
    · rintro ⟨_, member, holds⟩
      exact .generic member holds
  object _ _ := by
    constructor
    · rintro ⟨⟩
      exact ⟨_, ‹_›, ‹_›⟩
    · rintro ⟨_, member, holds⟩
      exact .object member holds

mutual

theorem text_hinges : ∀ type : PlainType, Hinges type.Holds type.text
  | .word s => (Hinges.of_ok s).imp fun _ => iff_of_false id (gathers_holds.word _ _)
  | .reference name => (Hinges.of_ok name).imp fun _ => (gathers_holds.reference _ _).symm
  | .literal value =>
    (Hinges.literalText value).imp fun _ => eq_comm.trans (gathers_holds.literal _ _).symm
  | .union members => ((texts_hinges members).map _).imp fun _ => (gathers_holds.union _ _).symm
  | .group type => ((text_hinges type).map _).imp fun _ => (gathers_holds.group _ _).symm
  | .tuple elements => ((texts_hinges elements).map _).imp fun _ => (gathers_holds.tuple _ _).symm
  | .spread type => ((text_hinges type).map _).imp fun _ => (gathers_holds.spread _ _).symm
  | .generic _ args => ((texts_hinges args).map _).imp fun _ => (gathers_holds.generic _ _ _).symm
  | .object [] => (Hinges.of_ok _).imp fun _ => by simp [gathers_holds.object]
  | .object (member :: rest) =>
    ((memberTexts_hinges (member :: rest)).map _).imp fun _ => (gathers_holds.object _ _).symm

theorem texts_hinges : ∀ types : List PlainType,
    Hinges (fun value => ∃ type ∈ types, type.Holds value) (texts types)
  | [] => (Hinges.of_ok _).imp (by simp)
  | type :: rest =>
    ((text_hinges type).bind fun text _ => (texts_hinges rest).map (text :: ·)).imp (by simp)

theorem memberTexts_hinges : ∀ members : List (String × Bool × PlainType),
    Hinges (fun value => ∃ member ∈ members, member.2.2.Holds value) (memberTexts members)
  | [] => (Hinges.of_ok _).imp (by simp)
  | (_, _, type) :: rest =>
    ((text_hinges type).bind fun _ _ => (memberTexts_hinges rest).map (_ :: ·)).imp
      fun _ => by rw [List.exists_mem_cons_iff]

end

end PlainType

end Codes

section Declarations

variable {scope : Scope} {names : List String} {declaration : Declaration} {value : Json}

def TypeSpells (kind : OutputKind) (type : TypeExpr) (value : Json) : Prop :=
  ∃ part, Shows type part ∧ value ∈ part.spelled kind

def FieldSpells (kind : OutputKind) (field : Field) (value : Json) : Prop :=
  (kind = .schema ∧ field.default? = some value) ∨ ∃ type ∈ field.type, TypeSpells kind type value

/-- The value is spelled out when the declaration is written. A tagged error leaves that to its
body. -/
def Spells (kind : OutputKind) (declaration : Declaration) (value : Json) : Prop :=
  match declaration.kind with
  | .classStruct | .struct => ∃ field ∈ declaration.fields, FieldSpells kind field value
  | .taggedError => False
  | .brand | .schema => ∃ type ∈ declaration.type, TypeSpells kind type value

theorem SchemaCode.holds_iff {type : TypeExpr} {code : SchemaCode}
    (written : schemaCode scope type = .ok code) : code.Holds value ↔ TypeSpells .schema type value := by
  rw [(SchemaCode.gathers_holds.renders scope).has_iff written]
  simp [Own, TypeSpells]

theorem PlainType.holds_iff {type : TypeExpr} {plain : PlainType}
    (written : plainType scope type = .ok plain) : plain.Holds value ↔ TypeSpells .type type value := by
  rw [(PlainType.gathers_holds.renders scope).has_iff written]
  simp [Own, TypeSpells]

theorem Written.exists_iff {write : TypeExpr → Except Fault α} {types : List TypeExpr}
    {parts : List α} {P : α → Prop} {Q : TypeExpr → Prop} (written : Written write types parts)
    (same : ∀ type part, write type = .ok part → (P part ↔ Q type)) :
    (∃ part ∈ parts, P part) ↔ ∃ type ∈ types, Q type := by
  constructor
  · rintro ⟨part, member, holds⟩
    obtain ⟨type, listed, done⟩ := exists_of_forall₂ written member
    exact ⟨type, listed, (same type part done).mp holds⟩
  · rintro ⟨type, listed, holds⟩
    obtain ⟨part, member, done⟩ := exists_of_forall₂ written.flip listed
    exact ⟨part, member, (same type part done).mpr holds⟩

theorem exists_fieldSpells {kind : OutputKind} {fields : List Field} :
    (∃ field ∈ fields, FieldSpells kind field value) ↔
      (kind = .schema ∧ value ∈ fields.filterMap (·.default?)) ∨
        ∃ type ∈ fields.filterMap (·.type), TypeSpells kind type value := by
  simp only [FieldSpells, List.mem_filterMap, and_or_left, exists_or]
  refine or_congr ?_ ?_
  · constructor
    · rintro ⟨field, member, schema, same⟩
      exact ⟨schema, field, member, same⟩
    · rintro ⟨schema, field, member, same⟩
      exact ⟨field, member, schema, same⟩
  · constructor
    · rintro ⟨field, member, type, typed, spells⟩
      exact ⟨type, ⟨field, member, typed⟩, spells⟩
    · rintro ⟨type, ⟨field, member, typed⟩, spells⟩
      exact ⟨field, member, type, typed, spells⟩

theorem schemaFields_length {fields : List Field} {members : List (String × SchemaCode)}
    (written : schemaFields scope fields = .ok members) : members.length = fields.length := by
  induction fields generalizing members with
  | nil =>
    cases written
    rfl
  | cons field rest ih =>
    obtain ⟨key, type, wrapper, defaultValue, description⟩ := field
    rw [schemaFields] at written
    obtain ⟨code, first, written⟩ := except_bind_eq_ok.mp written
    cases code with
    | none => cases written
    | some code =>
      obtain ⟨others, later, same⟩ := except_bind_eq_ok.mp written
      cases same
      simp [ih later]

theorem schemaMembers_holds {fields : List Field} {members : List SchemaMember}
    (written : schemaMembers scope fields = .ok members) :
    (∃ code ∈ members.map (·.code), code.Holds value) ↔
      ∃ field ∈ fields, FieldSpells .schema field value := by
  obtain ⟨codes, inner, same⟩ := except_bind_eq_ok.mp written
  cases same
  obtain ⟨parts, shown, composed⟩ := SchemaCode.gathers_holds.schemaFields inner
  have listed : (List.zipWith (fun m f => (⟨m.1, m.2, f.description⟩ : SchemaMember)) codes fields).map
      (·.code) = codes.map (·.2) := by
    rw [List.map_zipWith, ← List.map_uncurry_zip_eq_zipWith]
    change (codes.zip fields).map ((·.2) ∘ Prod.fst) = _
    rw [← List.map_map, List.map_fst_zip (schemaFields_length inner).le]
  rw [listed, exists_fieldSpells, ← shown.exists_iff fun _ _ => SchemaCode.holds_iff]
  simpa only [List.mem_map, exists_exists_and_eq_and, true_and, exists_eq_right] using composed value

theorem plainFields_length {fields : List Field} {members : List (String × Bool × PlainType)}
    (written : plainFields scope fields = .ok members) : members.length = fields.length := by
  induction fields generalizing members with
  | nil =>
    cases written
    rfl
  | cons field rest ih =>
    obtain ⟨key, type, wrapper, defaultValue, description⟩ := field
    rw [plainFields] at written
    obtain ⟨plain, first, written⟩ := except_bind_eq_ok.mp written
    cases plain with
    | none => cases written
    | some plain =>
      obtain ⟨others, later, same⟩ := except_bind_eq_ok.mp written
      cases same
      simp [ih later]

theorem plainMembers_holds {fields : List Field} {members : List PlainMember}
    (written : plainMembers scope fields = .ok members) :
    (∃ type ∈ members.map (·.type), type.Holds value) ↔
      ∃ field ∈ fields, FieldSpells .type field value := by
  obtain ⟨types, inner, same⟩ := except_bind_eq_ok.mp written
  cases same
  have listed : (List.zipWith (fun m f => (⟨m.1, m.2.1, m.2.2, f.description⟩ : PlainMember)) types
      fields).map (·.type) = types.map (·.2.2) := by
    rw [List.map_zipWith, ← List.map_uncurry_zip_eq_zipWith]
    change (types.zip fields).map ((·.2.2) ∘ Prod.fst) = _
    rw [← List.map_map, List.map_fst_zip (plainFields_length inner).le]
  rw [listed, exists_fieldSpells,
    ← (written_plainFields inner).exists_iff fun _ _ => PlainType.holds_iff]
  simp

theorem schemaItem_holds {item : SchemaItem} (written : schemaItem scope declaration = .ok item) :
    (∃ code ∈ item.codes, code.Holds value) ↔ Spells .schema declaration value := by
  cases kind : declaration.kind with
  | classStruct | struct =>
    simp only [schemaItem, kind] at written
    obtain ⟨members, inner, same⟩ := except_bind_eq_ok.mp written
    cases same
    simpa only [Spells, kind, SchemaItem.codes] using schemaMembers_holds inner
  | taggedError =>
    simp only [schemaItem, kind] at written
    cases written
    simp [Spells, kind, SchemaItem.codes]
  | brand | schema =>
    simp only [schemaItem, kind] at written
    obtain ⟨code, inner, same⟩ := except_bind_eq_ok.mp written
    cases same
    have spelt : (∃ part ∈ code.toList, part.Holds value) ↔
        ∃ type ∈ declaration.type.toList, TypeSpells .schema type value :=
      (written_schemaCodeOfOption inner).exists_iff fun _ _ => SchemaCode.holds_iff
    simpa only [Spells, kind, SchemaItem.codes, Option.mem_toList, Option.mem_def] using spelt

theorem plainItem_holds {item : PlainItem} (written : plainItem scope declaration = .ok item) :
    (∃ type ∈ item.types, type.Holds value) ↔ Spells .type declaration value := by
  cases kind : declaration.kind with
  | classStruct | struct =>
    simp only [plainItem, kind] at written
    obtain ⟨members, inner, same⟩ := except_bind_eq_ok.mp written
    cases same
    simpa only [Spells, kind, PlainItem.types] using plainMembers_holds inner
  | taggedError =>
    simp only [plainItem, kind] at written
    cases written
    simp [Spells, kind, PlainItem.types]
  | brand | schema =>
    simp only [plainItem, kind] at written
    obtain ⟨plain, inner, same⟩ := except_bind_eq_ok.mp written
    cases same
    have spelt : (∃ part ∈ plain.toList, part.Holds value) ↔
        ∃ type ∈ declaration.type.toList, TypeSpells .type type value :=
      (written_plainTypeOfOption inner).exists_iff fun _ _ => PlainType.holds_iff
    simpa only [Spells, kind, PlainItem.types, Option.mem_toList, Option.mem_def] using spelt

theorem SchemaItem.block_hinges (item : SchemaItem) (declaration : Declaration) :
    Hinges (fun value => ∃ code ∈ item.codes, code.Holds value) (item.block declaration) := by
  refine Hinges.map ?_ _
  cases item with
  | classStruct members | struct members =>
    refine (Hinges.map (Hinges.mapM fun member _ => (member.code.text_hinges).map _) _).imp
      fun value => ?_
    simp [SchemaItem.codes]
  | taggedError body => exact (Hinges.of_ok _).imp (by simp [SchemaItem.codes])
  | brand code | schema code =>
    cases code with
    | none => exact (Hinges.of_ok _).imp (by simp [SchemaItem.codes])
    | some code =>
      refine (Hinges.map (code.text_hinges.map some) _).imp fun value => ?_
      simp [SchemaItem.codes]

theorem PlainItem.block_hinges (item : PlainItem) (declaration : Declaration) :
    Hinges (fun value => ∃ type ∈ item.types, type.Holds value) (item.block declaration) := by
  refine Hinges.map ?_ _
  cases item with
  | interface members =>
    refine (Hinges.map (Hinges.mapM fun member _ => (member.type.text_hinges).map _) _).imp
      fun value => ?_
    simp [PlainItem.types]
  | taggedError body => exact (Hinges.of_ok _).imp (by simp [PlainItem.types])
  | brand type | named type =>
    cases type with
    | none => exact (Hinges.of_ok _).imp (by simp [PlainItem.types])
    | some type =>
      refine (Hinges.map (type.text_hinges.map some) _).imp fun value => ?_
      simp [PlainItem.types]

theorem schemaDeclaration_hinges (scope : Scope)
    (fits : ∀ type ∈ declaration.type, FitsIn names type) :
    Hinges (Spells .schema declaration) (schemaDeclaration scope declaration) := by
  obtain ⟨item, written, -⟩ := schemaItem_cites scope fits
  rw [schemaDeclaration, written]
  exact (item.block_hinges declaration).imp fun _ => schemaItem_holds written

theorem plainDeclaration_hinges (scope : Scope)
    (fits : ∀ type ∈ declaration.type, FitsIn names type) :
    Hinges (Spells .type declaration) (plainDeclaration scope declaration) := by
  obtain ⟨item, written, -⟩ := plainItem_cites scope fits
  rw [plainDeclaration, written]
  exact (item.block_hinges declaration).imp fun _ => plainItem_holds written

theorem schemaBlocks_hinges (aliases : List (String × String)) {declarations : List Declaration}
    (deferred : List String) (fit : ∀ d ∈ declarations, ∀ type ∈ d.type, FitsIn d.refs type) :
    Hinges (fun value => ∃ d ∈ declarations, Spells .schema d value)
      (schemaBlocks aliases declarations deferred) := by
  induction declarations generalizing deferred with
  | nil => exact (Hinges.of_ok _).imp (by simp)
  | cons d rest ih =>
    rw [List.forall_mem_cons] at fit
    refine ((schemaDeclaration_hinges _ fit.1).bind fun block _ => (ih _ fit.2).map (block :: ·)).imp
      fun value => ?_
    rw [List.exists_mem_cons_iff]

def Legible (kind : OutputKind) (declarations : List Declaration) : Prop :=
  ∀ d ∈ declarations, ∀ value, Spells kind d value → value.Legible

/-- Text depends on the literals of its declarations and on nothing else. -/
theorem renderAs_hinges (kind : OutputKind) (aliases : List (String × String))
    {declarations : List Declaration}
    (fit : ∀ d ∈ declarations, ∀ type ∈ d.type, FitsIn d.refs type) :
    Hinges (fun value => ∃ d ∈ declarations, Spells kind d value)
      (Store.renderAs kind aliases declarations) := by
  cases kind with
  | schema => exact (schemaBlocks_hinges aliases _ fit).map _
  | type => exact (Hinges.mapM fun d member => plainDeclaration_hinges _ (fit d member)).map _

end Declarations

end Render

end TypedClient
