import TypedClient.Proofs.Store.History

/-! How expressions are formed. A declaration gets its type from a leaf, or from parts that are put
together under a head of their kind. What all of these ways keep holds of every type that is ever
declared. -/
namespace TypedClient

/-- A property of expressions that all ways to form one keep. -/
structure Forming (P : TypeExpr → Prop) : Prop where
  leaf : ∀ head, P { head }
  struct : ∀ fields : List Field,
    (∀ field ∈ fields, ∃ type, field.type = some type ∧ P type) → P (.struct fields)
  record : ∀ value, P value → P { head := { kind := .record }, args := [value] }
  array : ∀ head : TypeHead, head.kind = .array → ∀ item, P item → P { head, args := [item] }
  tuple : ∀ (args : List TypeExpr) (rest : Option TypeExpr), (∀ type ∈ args, P type) →
    (∀ type ∈ rest, P type) → P { head := { kind := .tuple }, args, rest }
  union : ∀ args : List TypeExpr, (∀ type ∈ args, P type) → P { head := { kind := .union }, args }
  orNull : ∀ type, P type → P type.orNull

namespace Build

/-- A step that starts in a store of `P` ends in one, also when it fails; what it returns satisfies
`Q`. -/
def Gives (P : Store → Prop) (Q : α → Prop) (step : Build α) : Prop :=
  ∀ s : Session, P s.store → Ends P (fun a _ => Q a) step s

namespace Gives

variable {P : Store → Prop} {Q : α → Prop} {R : β → Prop}

theorem pure {a : α} (value : Q a) : Gives P Q (Pure.pure a : Build α) :=
  fun _ holds => .pure holds value

theorem bind {step : Build α} {next : α → Build β} (first : Gives P Q step)
    (second : ∀ a, Q a → Gives P R (next a)) : Gives P R (step >>= next) :=
  fun s holds => Ends.bind (first s holds) fun a t reached value => second a value t reached

/-- What the step returns does not matter. -/
theorem after {step : Build α} {next : α → Build β} (first : Keeps P step)
    (second : ∀ a, Gives P R (next a)) : Gives P R (step >>= next) :=
  bind (Q := fun _ => True) first fun a _ => second a

theorem mapM {f : α → Build β} {items : List α} (each : ∀ item ∈ items, Gives P R (f item)) :
    Gives P (fun bs => ∀ b ∈ bs, R b) (items.mapM f) := by
  induction items with
  | nil => exact pure (by simp)
  | cons item rest ih =>
    rw [List.forall_mem_cons] at each
    rw [List.mapM_cons]
    refine bind each.1 fun b value => bind (ih each.2) fun bs values => pure ?_
    exact List.forall_mem_cons.mpr ⟨value, values⟩

end Gives

end Build

namespace Store

variable {P : TypeExpr → Prop} {store : Store} {name : String}

def TypedBy (P : TypeExpr → Prop) (store : Store) : Prop :=
  ∀ d ∈ store.declarations, ∀ type ∈ d.type, P type

theorem TypedBy.update (typed : store.TypedBy P) {f : Declaration → Declaration}
    (types : ∀ d, ∀ type ∈ (f d).type, type ∈ d.type ∨ P type) :
    (store.update name f).TypedBy P := by
  intro d member type given
  rcases mem_update.mp member with ⟨e, old, _, rfl⟩ | ⟨old, _⟩
  · exact (types e type given).elim (typed e old type) id
  · exact typed d old type given

theorem TypedBy.register (typed : store.TypedBy P) {declaration : Declaration}
    (holds : ∀ type ∈ declaration.type, P type) : (store.register declaration).TypedBy P := by
  intro d member type given
  unfold Store.register at member
  dsimp only at member
  split at member
  · obtain ⟨e, old, rfl⟩ := List.mem_map.mp member
    split at given
    · exact holds type given
    · exact typed e old type given
  · rcases List.mem_append.mp member with old | new
    · exact typed d old type given
    · obtain rfl := List.mem_singleton.mp new
      exact holds type given

theorem TypedBy.marked (typed : store.TypedBy P) (name : String) :
    (store.marked name).TypedBy P := by
  have flagged (d : Declaration) : (store.flagError d.name).TypedBy P :=
    typed.update fun _ _ => .inl
  unfold Store.marked
  split
  · exact typed
  · rename_i d found
    have own : ∀ type ∈ d.type, P type := typed d (mem_of_find? found).1
    unfold asError
    split
    · have moved : ((store.flagError d.name).register
          ((store.flagError d.name).bodyFor d)).TypedBy P := (flagged d).register own
      exact moved.update fun _ _ => nofun
    · exact flagged d

end Store

namespace Builder

open Build Store

variable {P : TypeExpr → Prop} {env : Env} {expr : Typer} {scope : String}

def Formed (P : TypeExpr → Prop) (type : Option TypeExpr) : Prop :=
  ∀ t ∈ type, P t

theorem formed_some {type : TypeExpr} (holds : P type) : Formed P (some type) := by
  simpa [Formed] using holds

def Former (P : TypeExpr → Prop) (expr : Typer) : Prop :=
  ∀ node scope, Gives (TypedBy P) (Formed P) (expr node scope)

variable (forming : Forming P)
include forming

theorem brandExpr_forms {key owner : String} {node : Schema.Node} {type : TypeExpr}
    (holds : P type) : Gives (TypedBy P) P (brandExpr env key node type owner) := by
  unfold brandExpr
  split
  · split
    · exact .pure holds
    split
    · exact .pure holds
    · refine .after .store fun store => ?_
      split
      · exact .after (.report _ _) fun _ => .pure holds
      dsimp only
      split
      · refine .after (.modifyStore fun store typed => ?_) fun _ => .pure (forming.leaf _)
        refine TypedBy.register typed fun type given => ?_
        cases given
        exact forming.leaf _
      · exact .pure (forming.leaf _)
  · exact .pure holds

def FieldsFormed (P : TypeExpr → Prop) (fields : List Field) : Prop :=
  ∀ field ∈ fields, ∃ type, field.type = some type ∧ P type

theorem fieldsOf_forms (former : Former P expr) {object : Schema.Fields Schema.Node}
    {owner : String} : Gives (TypedBy P) (FieldsFormed P) (fieldsOf env expr object owner) := by
  refine .bind (.mapM (R := fun field : Option Field => FieldsFormed P field.toList) ?_) ?_
  · rintro ⟨key, node⟩ _
    cases key with
    | text key =>
      change Gives _ _ (expr node (owner ++ Name.identifier key) >>= _)
      refine .bind (former node _) fun type formed => ?_
      cases type with
      | none => exact .after (.report _ _) fun _ => .pure (by simp [FieldsFormed])
      | some type =>
        refine .bind (brandExpr_forms forming (formed type rfl)) fun type holds => .pure ?_
        exact List.forall_mem_singleton.mpr ⟨type, rfl, holds⟩
    | _ => exact fun _ typed => typed
  · intro fields formed
    refine .pure fun field member => ?_
    obtain ⟨option, listed, same⟩ := List.mem_filterMap.mp member
    exact formed option listed field (Option.mem_toList.mpr same)

theorem fillFrom_forms (former : Former P expr) {name : String} {node : Schema.Node}
    {preferStruct : Bool} : Keeps (TypedBy P) (fillFrom env expr name node preferStruct) := by
  have updated {f : Declaration → Declaration}
      (types : ∀ d, ∀ type ∈ (f d).type, type ∈ d.type ∨ P type) :
      Keeps (TypedBy P) (Build.modifyStore (·.update name f)) :=
    .modifyStore fun _ typed => typed.update types
  have finish {type : TypeExpr} (holds : P type) : Keeps (TypedBy P)
      (Build.modifyStore (·.update name fun d => { d with type := some type })) :=
    updated fun d t given => .inr (by cases given; exact holds)
  unfold fillFrom
  refine .bind (updated fun _ _ => .inl) fun _ => ?_
  split
  · refine .bind (updated fun _ _ => .inl) fun _ => ?_
    exact Gives.bind (fieldsOf_forms forming former) fun fields formed =>
      finish (forming.struct fields formed)
  · refine .bind (updated fun _ _ => .inl) fun _ => ?_
    refine Gives.bind (former node name) fun type formed => ?_
    cases type with
    | some type => exact finish (formed type rfl)
    | none => exact .after (.report _ _) fun _ => finish (forming.leaf _)

theorem fill_forms (former : Former P expr) {name : String} {node : Schema.Node}
    {preferStruct : Bool} : Keeps (TypedBy P) (fill env expr name node preferStruct) :=
  .bind (.noteFill name) fun _ => .bind (.lift _) fun _ => fillFrom_forms forming former

theorem reserve_forms (name : String) : Keeps (TypedBy P) (Build.modifyStore (·.reserve name)) :=
  .modifyStore fun _ typed => typed.register fun type given => by
    cases given
    exact forming.leaf _

theorem refName_forms (former : Former P expr) {pointer : Json} :
    Keeps (TypedBy P) (refName env expr pointer) := by
  refine .bind (.lift _) fun key => .bind .store fun store => ?_
  split
  · exact .pure _
  refine .bind (.lift _) fun target => ?_
  cases target with
  | none => exact .pure _
  | some target =>
    refine .bind (.bind .store fun store => .bind ?_ fun _ => ?_) fun _ => .pure _
    · exact .modifyStore fun _ typed => TypedBy.register typed fun type given => by
        cases given
        exact forming.leaf _
    · refine .bind (.report _ _) fun _ => .bind (.lift _) fun node => ?_
      exact .bind (fill_forms forming former) fun _ => .pure _

theorem itemsExpr_forms (former : Former P expr) {items : Schema.Items Schema.Node} :
    Gives (TypedBy P) (Formed P) (itemsExpr expr scope items) := by
  cases items with
  | anything => exact .pure (formed_some (forming.leaf _))
  | nothing => exact .pure (formed_some (forming.leaf _))
  | each item => exact former item scope

theorem formed_getD {type : Option TypeExpr} (formed : Formed P type) : P (type.getD .json) := by
  cases type with
  | none => exact forming.leaf _
  | some type => exact formed type rfl

theorem unionExpr_forms (former : Former P expr) {members : List Schema.Node} :
    Gives (TypedBy P) (Formed P) (unionExpr expr scope members) := by
  refine .bind (.mapM fun member _ => former member scope) fun types formed => ?_
  have inside : ∀ type ∈ types.filterMap id, P type := by
    intro type member
    obtain ⟨option, listed, same⟩ := List.mem_filterMap.mp member
    exact formed option listed type same
  split
  · exact .pure nofun
  · rename_i only listed
    exact .pure (formed_some (inside only (listed ▸ List.mem_singleton_self only)))
  · exact .pure (formed_some (forming.union _ inside))

theorem recordExpr_forms (former : Former P expr) {additional : Option Schema.Node} :
    Gives (TypedBy P) (Formed P) (recordExpr expr scope additional) := by
  cases additional with
  | none => exact .pure (formed_some (forming.record _ (forming.leaf _)))
  | some item =>
    exact .bind (former item scope) fun value formed =>
      .pure (formed_some (forming.record _ (formed_getD forming formed)))

theorem listExpr_forms {item : TypeExpr} {minItems maxItems : Option Json} (holds : P item) :
    Gives (TypedBy P) (Formed P) (listExpr item minItems maxItems) := by
  cases minItems with
  | none => exact .pure (formed_some (forming.array _ rfl item holds))
  | some bound =>
    exact .after (.lift _) fun _ => .pure (formed_some (forming.array _ rfl item holds))

theorem tupleExpr_forms (former : Former P expr) {lead : List Schema.Node}
    {rest : Schema.Items Schema.Node} :
    Gives (TypedBy P) (Formed P) (tupleExpr expr scope lead rest) := by
  refine .bind (.mapM (R := P) fun item _ => .bind (former item scope) fun type formed => ?_) ?_
  · exact .pure (formed_getD forming formed)
  · intro args formed
    split
    · exact .pure (formed_some (forming.tuple args none formed nofun))
    · refine .bind (itemsExpr_forms forming former) fun rest more => .pure (formed_some ?_)
      exact forming.tuple args _ formed (formed_some (formed_getD forming more))

theorem shapeExpr_forms (former : Former P expr) {node : Schema.Node} :
    Gives (TypedBy P) (Formed P) (shapeExpr env expr node scope) := by
  have leaf (head : TypeHead) : Formed P (some { head }) := formed_some (forming.leaf head)
  unfold shapeExpr
  split
  case h_2 =>
    refine .after (refName_forms forming former) fun name => .pure ?_
    cases name with
    | none => nofun
    | some name => exact leaf _
  case h_3 p _ =>
    refine .pure (formed_some ?_)
    unfold primitiveExpr
    split <;> exact forming.leaf _
  case h_6 =>
    cases node.singleRef? with
    | some member => exact former member scope
    | none => exact .after (.lift _) fun _ => former _ scope
  case h_7 => exact unionExpr_forms forming former
  case h_8 =>
    split
    · exact .bind (fieldsOf_forms forming former) fun fields formed =>
        .pure (formed_some (forming.struct fields formed))
    · exact recordExpr_forms forming former
  case h_9 =>
    refine .bind (itemsExpr_forms forming former) fun item formed => ?_
    cases item with
    | none => exact .pure nofun
    | some item => exact listExpr_forms forming (formed item rfl)
  case h_10 => exact tupleExpr_forms forming former
  all_goals exact .pure (leaf _)

theorem expr_former (env : Env) (fuel : Nat) : Former P (Builder.expr env fuel) := by
  induction fuel with
  | zero => exact fun _ _ _ typed => typed
  | succ fuel ih =>
    refine fun node scope => .bind (shapeExpr_forms forming ih) fun type formed => .pure ?_
    split
    · intro t mapped
      obtain ⟨inner, same, rfl⟩ := Option.map_eq_some_iff.mp mapped
      exact forming.orNull inner (formed inner same)
    · exact formed

theorem addSchema_forms {brandIds : Bool} {name : String} {fragment document : Json}
    {preferStruct : Bool} :
    Keeps (TypedBy P) (addSchema brandIds name fragment document preferStruct) := by
  refine .bind (.lift _) fun node => ?_
  unfold add
  split
  · refine .bind (refName_forms forming (expr_former forming _ _)) fun target => ?_
    cases target with
    | some target => exact .pure _
    | none =>
      exact .bind (.report _ _) fun _ => .bind .store fun store =>
        .bind (reserve_forms forming _) fun _ => .pure _
  · exact .bind .store fun store => .bind (reserve_forms forming _) fun _ =>
      .bind (fill_forms forming (expr_former forming _ _)) fun _ => .pure _

end Builder

namespace History

variable {P : TypeExpr → Prop} {history : History}

theorem call_typed (forming : Forming P) (brandIds : Bool) (typed : history.store.TypedBy P)
    (c : Call) : (history.call brandIds c).store.TypedBy P := by
  cases c with
  | add name fragment document preferStruct =>
    have ends : Build.Ends (Store.TypedBy P) (fun _ _ => True)
        (Builder.addSchema brandIds name fragment document preferStruct) history.session :=
      Builder.addSchema_forms forming history.session typed
    simp only [call]
    split
    · exact (ends.of_ok ‹_›).1
    · exact ends.of_error ‹_›
  | markAsError name =>
    rw [(store_markAsError brandIds history name).1]
    exact typed.marked name

/-- Every type that is declared has what all ways to form one keep. -/
theorem run_typed (forming : Forming P) (brandIds : Bool) (calls : List Call) :
    (run brandIds calls).store.TypedBy P := by
  have later {history : History} (typed : history.store.TypedBy P) :
      (calls.foldl (call brandIds) history).store.TypedBy P := by
    induction calls generalizing history with
    | nil => exact typed
    | cons c rest ih => exact ih (call_typed forming brandIds typed c)
  exact later nofun

end History

end TypedClient
