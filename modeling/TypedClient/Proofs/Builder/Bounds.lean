import TypedClient.Proofs.Builder.Brands
import TypedClient.Proofs.Json.Key
import TypedClient.Proofs.Schema.Parts
import TypedClient.Proofs.Store.Growth

/-! The numbers that a declared type accepts. A fragment bounds a number by five keywords, two of
which are a strict bound in one dialect and in the other a flag that makes the inclusive bound
strict. The checks of the declaration accept the numbers that the keywords allow, and no others. -/
namespace TypedClient

/-- The number that a value is. A truth value is none. -/
def Json.number? : Json → Option ℚ
  | .int n => some n
  | .float x =>
    match Quantity.ofDouble x with
    | .dyadic n q => some (n * 2 ^ q)
    | _ => none
  | _ => none

def CheckKind.Holds (kind : CheckKind) (value x : ℚ) : Prop :=
  match kind with
  | .greaterThan => value < x
  | .atLeast => value ≤ x
  | .lessThan => x < value
  | .atMost => x ≤ value
  | .multipleOf => ∃ k : ℤ, x = k * value
  | .uuid | .minLength | .maxLength | .pattern => False

/-- A number passes a check. One whose value is no number is passed by none. -/
def Check.Passes (check : Check) (x : ℚ) : Prop :=
  ∃ value, check.value.number? = some value ∧ check.kind.Holds value x

namespace Schema

/-- What a pair of keywords says of a number: to lie within an inclusive bound, inside it if the
other keyword is a flag that is set, and inside the other keyword if that is a bound. -/
structure Bounded (weakly strictly : ℚ → Prop) (inclusive exclusive : Json) : Prop where
  within : ∀ bound, inclusive.number? = some bound → weakly bound
  flagged : exclusive = .bool true → ∀ bound, inclusive.number? = some bound → strictly bound
  inside : ∀ bound, exclusive.number? = some bound → strictly bound

structure Allows (members : Members) (x : ℚ) : Prop where
  below : Bounded (· ≤ x) (· < x) (members.get "minimum") (members.get "exclusiveMinimum")
  above : Bounded (x ≤ ·) (x < ·) (members.get "maximum") (members.get "exclusiveMaximum")
  multiple : ∀ unit, (members.get "multipleOf").number? = some unit → ∃ k : ℤ, x / unit = k

def IsBound (value : Json) : Prop :=
  value = .null ∨ ∃ bound, value.number? = some bound

/-- The numeric keywords of a fragment have the values of one of the two dialects. -/
structure NumbersOnly (members : Members) : Prop where
  inclusive : ∀ name ∈ ["minimum", "maximum", "multipleOf"], IsBound (members.get (.text name))
  exclusive : ∀ name ∈ ["exclusiveMinimum", "exclusiveMaximum"],
    IsBound (members.get (.text name)) ∨ ∃ flag, members.get (.text name) = .bool flag
  unit : (members.get "multipleOf").number? ≠ some 0

/-- A fragment is what its type says: no keyword that comes before the type decides. -/
structure TypeDecides (members : Members) : Prop where
  ref : members.get? "$ref" = none
  const : members.get? "const" = none
  lists : ∀ name ∈ ["enum", "allOf", "anyOf", "oneOf"], ∀ items,
    members.get (.text name) ≠ .arr items

section Reading

variable {members : Members} {type : PrimitiveType} {path : String}

theorem listAt?_eq_none {name : String} (plain : ∀ items, members.get (.text name) ≠ .arr items) :
    listAt? members name path = none := by
  unfold listAt?
  split
  · rename_i items found
    exact absurd (by rw [Members.get, found]; rfl) (plain items)
  · rfl

theorem typesLayer_eq_none {name : String} (typed : typeOf members = .str name) :
    typesLayer members path = none := by
  unfold typesLayer
  split
  · rename_i folded
    rw [typeOf, folded] at typed
    cases typed
  · rfl

theorem typeLayer_name :
    typeLayer members (.str type.name) path = .ok (.primitive (readPrimitive members type)) := by
  cases type <;> rfl

/-- A fragment of a primitive type is read as that type with its keywords. -/
theorem normalize_typed (decides : TypeDecides members)
    (typed : typeOf members = .str type.name) : normalize (.obj members) path =
      .ok (annotate { shape := .primitive (readPrimitive members type) } members path) := by
  have values : ∀ items, members.get "enum" ≠ .arr items := decides.lists "enum" (by simp)
  have allOf : listAt? members "allOf" path = none := listAt?_eq_none (decides.lists _ (by simp))
  have union : unionAt? members path = none := by
    rw [unionAt?, listAt?_eq_none (decides.lists "anyOf" (by simp)),
      listAt?_eq_none (decides.lists "oneOf" (by simp)), typesLayer_eq_none typed]
    rfl
  have layered : layer members path =
      .ok (.shape (.primitive (readPrimitive members type))) := by
    rw [layer, decides.ref, decides.const, allOf, union, typed, typeLayer_name]
    unfold Layer.choose
    split <;> simp_all
  rw [normalize_obj, layered]
  rfl

theorem ne_string_of_isNumeric (numeric : type.isNumeric = true) : type ≠ .string := by
  rintro rfl
  cases numeric

theorem readPrimitive_numeric (numeric : type.isNumeric = true) :
    readPrimitive members type =
      let value (name : String) := (members.get name).nonNull?
      let below := exclusiveBound (value "minimum") (value "exclusiveMinimum")
      let above := exclusiveBound (value "maximum") (value "exclusiveMaximum")
      { type, format := value "format", minimum := below.1, exclusiveMinimum := below.2
        maximum := above.1, exclusiveMaximum := above.2, multipleOf := value "multipleOf" } := by
  cases type with
  | integer | number => rfl
  | string | boolean | null => cases numeric

end Reading

end Schema

namespace Builder

open Schema Build Store

def Passed (kind : CheckKind) (value : Option Json) (x : ℚ) : Prop :=
  ∀ bound ∈ value, Check.Passes ⟨kind, bound⟩ x

variable {kind : CheckKind} {x : ℚ} {members : Members} {type : PrimitiveType}

theorem passed_nonNull {value : Json} (bound : IsBound value) :
    Passed kind value.nonNull? x ↔ ∀ b, value.number? = some b → kind.Holds b x := by
  rcases bound with rfl | ⟨b, found⟩
  · simp [Passed, Json.nonNull?, Json.number?]
  · have present : value.nonNull? = some value := by
      unfold Json.nonNull?
      split
      · cases found
      · rfl
    simp [Passed, present, Check.Passes, found]

/-- The two checks made of a pair of keywords say what the pair says in its dialect. -/
theorem passed_exclusiveBound {inclusive exclusive : Json} {within inside : CheckKind}
    (stricter : ∀ b, inside.Holds b x → within.Holds b x) (bound : IsBound inclusive)
    (strict : IsBound exclusive ∨ ∃ flag, exclusive = .bool flag) :
    Passed inside (exclusiveBound inclusive.nonNull? exclusive.nonNull?).2 x ∧
      Passed within (exclusiveBound inclusive.nonNull? exclusive.nonNull?).1 x ↔
        Bounded (within.Holds · x) (inside.Holds · x) inclusive exclusive := by
  rcases strict with strict | ⟨flag, rfl⟩
  · have apart : exclusiveBound inclusive.nonNull? exclusive.nonNull? =
        (inclusive.nonNull?, exclusive.nonNull?) := by
      rcases strict with rfl | ⟨b, found⟩
      · rfl
      · cases exclusive with
        | int | float => rfl
        | null | bool | str | arr | obj => cases found
    have unflagged : exclusive ≠ .bool true := by
      rintro rfl
      rcases strict with same | ⟨b, found⟩
      · cases same
      · cases found
    rw [apart, passed_nonNull strict, passed_nonNull bound]
    exact ⟨fun passed => ⟨passed.2, fun flagged => absurd flagged unflagged, passed.1⟩,
      fun bounded => ⟨bounded.inside, bounded.within⟩⟩
  · have unbounded (b : ℚ) : (Json.bool flag).number? ≠ some b := by simp [Json.number?]
    cases flag with
    | false =>
      have kept : exclusiveBound inclusive.nonNull? (Json.bool false).nonNull? =
          (inclusive.nonNull?, none) := rfl
      rw [kept, passed_nonNull bound]
      exact ⟨fun passed => ⟨passed.2, nofun, fun b found => absurd found (unbounded b)⟩,
        fun bounded => ⟨nofun, bounded.within⟩⟩
    | true =>
      have moved : exclusiveBound inclusive.nonNull? (Json.bool true).nonNull? =
          (none, inclusive.nonNull?) := by
        cases inclusive <;> rfl
      rw [moved, passed_nonNull bound]
      exact ⟨fun passed => ⟨fun b found => stricter b (passed.1 b found), fun _ => passed.1,
          fun b found => absurd found (unbounded b)⟩,
        fun bounded => ⟨bounded.flagged rfl, nofun⟩⟩

theorem passed_multipleOf {value : Json} (bound : IsBound value) (unit : value.number? ≠ some 0) :
    Passed .multipleOf value.nonNull? x ↔
      ∀ b, value.number? = some b → ∃ k : ℤ, x / b = k := by
  rw [passed_nonNull bound]
  refine forall₂_congr fun b found => exists_congr fun k => ?_
  have nonzero : b ≠ 0 := fun zero => unit (zero ▸ found)
  exact (div_eq_iff nonzero).symm

/-- A numeric type is checked for each of its keywords. -/
theorem passes_checksOf {p : Primitive} (numeric : p.type.isNumeric = true) :
    (∀ check ∈ checksOf p, check.Passes x) ↔
      (Passed .greaterThan p.exclusiveMinimum x ∧ Passed .atLeast p.minimum x) ∧
      (Passed .lessThan p.exclusiveMaximum x ∧ Passed .atMost p.maximum x) ∧
      Passed .multipleOf p.multipleOf x := by
  simp only [checksOf, if_neg (ne_string_of_isNumeric numeric), if_pos numeric,
    List.forall_mem_append, and_assoc]
  repeat' apply and_congr
  all_goals split <;> simp_all [Passed]

/-- The keywords of a fragment allow the numbers that pass the checks made of them. -/
theorem passes_checksOf_readPrimitive (numeric : type.isNumeric = true)
    (numbers : NumbersOnly members) :
    (∀ check ∈ checksOf (readPrimitive members type), check.Passes x) ↔ Allows members x := by
  rw [readPrimitive_numeric numeric, passes_checksOf numeric,
    passed_exclusiveBound (fun _ => le_of_lt) (numbers.inclusive "minimum" (by simp))
      (numbers.exclusive "exclusiveMinimum" (by simp)),
    passed_exclusiveBound (fun _ => le_of_lt) (numbers.inclusive "maximum" (by simp))
      (numbers.exclusive "exclusiveMaximum" (by simp)),
    passed_multipleOf (numbers.inclusive "multipleOf" (by simp)) numbers.unit]
  exact ⟨fun ⟨below, above, multiple⟩ => ⟨below, above, multiple⟩,
    fun allowed => ⟨allowed.below, allowed.above, allowed.multiple⟩⟩

theorem primitiveExpr_numeric {p : Primitive} (numeric : p.type.isNumeric = true) :
    primitiveExpr p =
      { head := { kind := .primitive, name := p.type.name, checks := checksOf p } } :=
  if_neg fun text => ne_string_of_isNumeric numeric text.1

/-- The expression of a primitive type needs no depth and changes nothing. -/
theorem expr_primitive {env : Env} {node : Node} {p : Primitive} {fuel : Nat} {scope : String}
    {s : Session} (shape : node.shape = .primitive p) (positive : 0 < fuel) :
    expr env fuel node scope s =
      .ok (some (if node.nullable then (primitiveExpr p).orNull else primitiveExpr p)) s := by
  obtain ⟨depth, rfl⟩ := Nat.exists_eq_add_of_lt positive
  rw [expr, shapeExpr, shape]
  cases node.nullable <;> rfl

/-- A node of a primitive type is declared under a free name, with the expression of the type. -/
theorem add_primitive (env : Env) {node : Node} {p : Primitive} (shape : node.shape = .primitive p)
    (positive : 0 < env.fuel) (name : String) (preferStruct : Bool) (s : Session) :
    ∃ t d, add env name node preferStruct s = .ok (s.store.uniqueName name) t ∧
      t.store.find? (s.store.uniqueName name) = some d ∧
      d.type = some (if node.nullable then (primitiveExpr p).orNull else primitiveExpr p) := by
  have single : node.singleRef? = none := by simp [Node.singleRef?, shape]
  have own : asRef? node = none := by simp [asRef?, single, shape]
  have unmerged : node.merges = false := by simp [Node.merges, Node.isAllOf, shape]
  have other : node.struct? = none := by simp [Node.struct?, shape]
  set declared := s.store.uniqueName name
  set type := if node.nullable then (primitiveExpr p).orNull else primitiveExpr p
  obtain ⟨d, reserved, -⟩ := builds_reserve (s.store.uniqueName_fresh name)
  let description := node.notes.description.bind Text.nonBlank?
  let described := (s.store.reserve declared).update declared fun d => { d with description }
  let started := described.update declared fun d => { d with kind := .schema }
  let filled := started.update declared fun d => { d with type := some type }
  let noted : Session := { s with fills := s.fills ++ [declared] }
  refine ⟨{ noted with store := filled }, { d with description, kind := .schema, type := some type },
    ?_, ?_, rfl⟩
  · rw [add_of_own (.inl own)]
    refine bind_eq_ok.mpr ⟨_, s, rfl, bind_eq_ok.mpr ⟨(), _, rfl, bind_eq_ok.mpr ⟨(), _, ?_, rfl⟩⟩⟩
    refine fill_eq_ok.mpr ⟨node, merged_of_plain unmerged, ?_⟩
    rw [fillFrom_of_other other]
    refine bind_eq_ok.mpr ⟨(), _, rfl, bind_eq_ok.mpr ⟨(), { noted with store := started }, rfl, ?_⟩⟩
    exact bind_eq_ok.mpr ⟨_, _, expr_primitive shape positive, rfl⟩
  · simp [filled, started, described, find?_update, declared, reserved, (mem_of_find? reserved).2]

theorem exprBound_pos (node : Node) (document : Json) : 0 < exprBound node document := by
  unfold exprBound
  positivity

/-- A fragment of a numeric type is declared, whatever has been declared before, and a number passes
all checks of the declaration if and only if the keywords of the fragment allow it. -/
theorem addSchema_checks_iff_allows {members : Members} {type : PrimitiveType}
    (decides : TypeDecides members) (typed : typeOf members = .str type.name)
    (numeric : type.isNumeric = true) (numbers : NumbersOnly members)
    (brandIds preferStruct : Bool) (name : String) (document : Json) (s : Session) :
    ∃ declared t d expr, addSchema brandIds name (.obj members) document preferStruct s =
        .ok declared t ∧
      t.store.find? declared = some d ∧ d.type = some expr ∧
      expr.kind = .primitive ∧ expr.head.name = type.name ∧
      ∀ x : ℚ, (∀ check ∈ expr.head.checks, check.Passes x) ↔ Allows members x := by
  let p := readPrimitive members type
  let node := annotate { shape := .primitive p } members ("#/" ++ name)
  have shape : node.shape = .primitive p := rfl
  have typeRead : p.type = type := congrArg Primitive.type (readPrimitive_numeric numeric)
  obtain ⟨t, d, added, found, built⟩ :=
    add_primitive ⟨document, brandIds, exprBound node document⟩ shape
      (exprBound_pos node document) name preferStruct s
  refine ⟨s.store.uniqueName name, t, d, _, ?_, found, built, ?_⟩
  · exact bind_eq_ok.mpr ⟨node, s, lift_eq_ok.mpr ⟨normalize_typed decides typed, rfl⟩, added⟩
  · rw [primitiveExpr_numeric (typeRead ▸ numeric), typeRead]
    have passes (x : ℚ) := passes_checksOf_readPrimitive (x := x) numeric numbers
    cases node.nullable <;> exact ⟨rfl, rfl, passes⟩

/-- A fragment in both dialects: more than 1, at most 100, less than 50.5 and a multiple of 3. -/
def mixedBounds : Members :=
  [("type", .arr [.str "integer", .str "null"]), ("minimum", .int 1),
    ("exclusiveMinimum", .bool true), ("maximum", .int 100),
    ("exclusiveMaximum", .float (.finite false 101 (-1))), ("multipleOf", .int 3)]

theorem addSchema_checks_iff_allows_mixedBounds :
    TypeDecides mixedBounds ∧ typeOf mixedBounds = .str "integer" ∧ NumbersOnly mixedBounds ∧
      ∃ declared t d expr, addSchema false "Amount" (.obj mixedBounds) .null false {} =
          .ok declared t ∧
        t.store.find? declared = some d ∧ d.type = some expr ∧
        expr.kind = .primitive ∧ expr.head.name = "integer" ∧
        ∀ x : ℚ, (∀ check ∈ expr.head.checks, check.Passes x) ↔ Allows mixedBounds x := by
  have decides : TypeDecides mixedBounds :=
    { ref := by decide
      const := by decide
      lists := by
        simp only [List.forall_mem_cons]
        exact ⟨nofun, nofun, nofun, nofun, nofun⟩ }
  have numbers : NumbersOnly mixedBounds :=
    { inclusive := by
        simp only [List.forall_mem_cons]
        exact ⟨.inr ⟨_, rfl⟩, .inr ⟨_, rfl⟩, .inr ⟨_, rfl⟩, nofun⟩
      exclusive := by
        simp only [List.forall_mem_cons]
        exact ⟨.inr ⟨true, rfl⟩, .inl (.inr ⟨_, rfl⟩), nofun⟩
      unit := by
        have three : (mixedBounds.get "multipleOf").number? = some 3 := rfl
        simp [three] }
  have typed : typeOf mixedBounds = .str PrimitiveType.integer.name := rfl
  exact ⟨decides, typed, numbers,
    addSchema_checks_iff_allows decides typed rfl numbers false false "Amount" .null {}⟩

end Builder

end TypedClient
