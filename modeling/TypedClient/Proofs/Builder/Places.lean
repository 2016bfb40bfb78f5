import TypedClient.Builder
import TypedClient.Proofs.Schema.Places

/-! Declarations do not show where schemas were found: nodes that differ in their places only are
built alike, with the same outcome on every session. -/
namespace TypedClient.Builder

open Schema Node

variable {env : Env} {typer : Typer}

def Blind (typer : Typer) : Prop :=
  ∀ node scope, typer node.unplaced scope = typer node scope

theorem lift_congr {first second : Except Fault Node} (same : unplaced <$> first = unplaced <$> second)
    {next : Node → Build α} (blind : ∀ node, next node.unplaced = next node) :
    Build.lift first >>= next = Build.lift second >>= next := by
  rcases map_unplaced_eq same with ⟨fault, rfl, rfl⟩ | ⟨node, other, rfl, rfl, equal⟩
  · rfl
  · change next node = next other
    rw [← blind node, equal, blind]

theorem brandExpr_unplaced (key : String) (node : Node) (type : TypeExpr) (owner : String) :
    brandExpr env key node.unplaced type owner = brandExpr env key node type owner := by
  unfold brandExpr
  rw [shape_unplaced]
  cases node.shape <;> rfl

theorem fieldsOf_unplaced (blind : Blind typer) (fields : Fields Node) (owner : String) :
    fieldsOf env typer (fields.map unplaced) owner = fieldsOf env typer fields owner := by
  unfold fieldsOf
  simp only [Fields.map, List.mapM_map, Function.comp_def, blind _ _, brandExpr_unplaced,
    notes_unplaced]

theorem itemsExpr_unplaced (blind : Blind typer) (scope : String) (items : Items Node) :
    itemsExpr typer scope (items.map unplaced) = itemsExpr typer scope items := by
  cases items with
  | each item => exact blind item scope
  | anything | nothing => rfl

theorem unionExpr_unplaced (blind : Blind typer) (scope : String) (members : List Node) :
    unionExpr typer scope (members.map unplaced) = unionExpr typer scope members := by
  unfold unionExpr
  simp only [List.mapM_map, Function.comp_def, blind _ _]

theorem recordExpr_unplaced (blind : Blind typer) (scope : String) (additional : Option Node) :
    recordExpr typer scope (additional.map unplaced) = recordExpr typer scope additional := by
  cases additional with
  | none => rfl
  | some item => simp only [recordExpr, Option.map_some, blind _ _]

theorem tupleExpr_unplaced (blind : Blind typer) (scope : String) (lead : List Node)
    (rest : Items Node) : tupleExpr typer scope (lead.map unplaced) (rest.map unplaced) =
      tupleExpr typer scope lead rest := by
  unfold tupleExpr
  simp only [List.mapM_map, Function.comp_def, blind _ _]
  cases rest with
  | each item => simp only [Items.map, itemsExpr, blind _ _]
  | anything | nothing => rfl

theorem shapeExpr_unplaced (blind : Blind typer) (node : Node) (scope : String) :
    shapeExpr env typer node.unplaced scope = shapeExpr env typer node scope := by
  unfold shapeExpr
  rw [shape_unplaced, singleRef?_unplaced]
  cases node.shape with
  | allOf members =>
    cases node.singleRef? with
    | some member => exact blind member scope
    | none =>
      exact lift_congr (flattenAllOf_unplaced (lookup env.document) env.fuel node)
        fun merged => blind merged scope
  | anyOf members => exact unionExpr_unplaced blind scope members
  | object fields =>
    change (if fields.explicit then
      return some (.struct (← fieldsOf env typer (fields.map unplaced) scope))
      else recordExpr typer scope (fields.additional.map unplaced)) = _
    rw [fieldsOf_unplaced blind, recordExpr_unplaced blind]
  | array items minItems maxItems =>
    change itemsExpr typer scope (items.map unplaced) >>= _ = _
    rw [itemsExpr_unplaced blind]
  | tuple lead rest => exact tupleExpr_unplaced blind scope lead rest
  | primitive | enum | const | ref | always => rfl

/-- Expressions do not look at places. -/
theorem expr_blind (fuel : Nat) : Blind (expr env fuel) := by
  induction fuel with
  | zero => exact fun _ _ => rfl
  | succ fuel ih =>
    intro node scope
    unfold expr
    rw [shapeExpr_unplaced ih, nullable_unplaced]

theorem merged_unplaced (node : Node) :
    unplaced <$> merged env node.unplaced = unplaced <$> merged env node := by
  unfold merged
  rw [isAllOf_unplaced, singleRef?_unplaced, Option.isNone_map]
  split
  · exact flattenAllOf_unplaced (lookup env.document) env.fuel node
  · simp [unplaced_unplaced]

theorem fillFrom_unplaced (blind : Blind typer) (name : String) (node : Node) (preferStruct : Bool) :
    fillFrom env typer name node.unplaced preferStruct = fillFrom env typer name node preferStruct := by
  have typed := blind node name
  unfold fillFrom
  rw [shape_unplaced, nullable_unplaced, notes_unplaced, typed]
  cases node.shape with
  | object fields =>
    obtain ⟨properties, required, explicit, additional⟩ := fields
    have fields : fieldsOf env typer _ name = _ :=
      fieldsOf_unplaced blind ⟨properties, required, true, additional⟩ name
    cases explicit <;> cases node.nullable
    case true.false =>
      simp only [Fields.map] at fields
      simp only [Shape.map, Fields.map, fields]
    all_goals rfl
  | _ => rfl

theorem fill_unplaced (blind : Blind typer) (name : String) (node : Node) (preferStruct : Bool) :
    fill env typer name node.unplaced preferStruct = fill env typer name node preferStruct := by
  refine bind_congr fun _ => ?_
  exact lift_congr (merged_unplaced node) fun merged => fillFrom_unplaced blind name merged preferStruct

theorem asRef?_unplaced (node : Node) : asRef? node.unplaced = asRef? node := by
  unfold asRef?
  rw [singleRef?_unplaced]
  cases node.singleRef? with
  | none =>
    simp only [Option.map_none, Option.getD_none, shape_unplaced]
    cases node.shape <;> rfl
  | some member =>
    simp only [Option.map_some, Option.getD_some, shape_unplaced]
    cases member.shape <;> rfl

theorem add_unplaced (name : String) (node : Node) (preferStruct : Bool) :
    add env name node.unplaced preferStruct = add env name node preferStruct := by
  unfold add
  rw [asRef?_unplaced, nullable_unplaced]
  simp only [fill_unplaced (expr_blind env.fuel)]

/-- Fragments that differ in their places only are declared alike. -/
theorem addSchema_congr {first second : Json} {name : String}
    (same : unplaced <$> normalize first ("#/" ++ name) = unplaced <$> normalize second ("#/" ++ name))
    (brandIds : Bool) (document : Json) (preferStruct : Bool) :
    addSchema brandIds name first document preferStruct =
      addSchema brandIds name second document preferStruct := by
  refine lift_congr same fun node => ?_
  rw [exprBound, exprBound, length_subnodes_unplaced, add_unplaced]

end TypedClient.Builder
