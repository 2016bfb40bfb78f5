import TypedClient.Proofs.Name.Alphanumeric
import TypedClient.Proofs.Store.History

/-! How declarations get their names. A name is asked for, or made from a key, the last segment of
a reference, the name of an owner or of an error, and it may get a number. What all of these ways
keep holds of every declared name. -/
namespace TypedClient

/-- A property of names that all ways to name a declaration keep. -/
structure Naming (P : String → Prop) : Prop where
  fallback : P "Schema"
  number : ∀ name, P name → ∀ i : Nat, P s!"{name}{i}"
  identifier : ∀ text, Name.identifier text ≠ "" → P (Name.identifier text)
  extend : ∀ owner, P owner → ∀ key, P (owner ++ Name.identifier key)
  brand : ∀ owner, P owner → ∀ key brand,
    BrandRegistry.brandFor? key owner = some brand → P brand
  body : ∀ name, P name → P (name ++ "Body")

theorem Name.alphanumeric_naming : Naming Alphanumeric where
  fallback := by decide
  number _ holds i := holds.append (alphanumeric_toString i)
  identifier text _ := alphanumeric_identifier text
  extend _ holds key := holds.append (alphanumeric_identifier key)
  brand owner holds key brand found := by
    unfold BrandRegistry.brandFor? at found
    split at found
    · cases found
      exact alphanumeric_brandOf holds key
    · cases found
  body _ holds := holds.append (by decide)

namespace Store

variable {P : String → Prop} {store : Store} {name : String}

def NamedBy (P : String → Prop) (store : Store) : Prop :=
  ∀ name ∈ store.names, P name

theorem NamedBy.update (named : store.NamedBy P) {f : Declaration → Declaration}
    (keeps : ∀ d, (f d).name = d.name) : (store.update name f).NamedBy P := by
  unfold NamedBy
  rw [names_update keeps]
  exact named

theorem NamedBy.register (named : store.NamedBy P) {declaration : Declaration}
    (holds : P declaration.name) : (store.register declaration).NamedBy P := by
  by_cases fresh : declaration.name ∈ store.names
  · have kept : (store.register declaration).names = store.names := by
      simp only [Store.register, names, contains_iff.mpr fresh, if_true, List.map_map]
      refine List.map_congr_left fun d _ => ?_
      by_cases same : d.name = declaration.name <;> simp [same]
    unfold NamedBy
    rw [kept]
    exact named
  · unfold NamedBy
    rw [names_register fresh, List.forall_mem_append]
    exact ⟨named, List.forall_mem_singleton.mpr holds⟩

theorem NamedBy.reserve (named : store.NamedBy P) (holds : P name) : (store.reserve name).NamedBy P :=
  named.register holds

theorem uniqueName_named (naming : Naming P) (store : Store) (requested : name = "" ∨ P name) :
    P (store.uniqueName name) := by
  have holds : P (if name = "" then "Schema" else name) := by
    split
    · exact naming.fallback
    · exact requested.resolve_left ‹_›
  unfold uniqueName
  generalize (if name = "" then "Schema" else name) = base at holds
  dsimp only
  split
  · cases found : ((List.range' 2 (store.declarations.length + 1)).map
        fun i : Nat => s!"{base}{i}").find? fun c => !store.contains c with
    | none => exact holds
    | some candidate =>
      obtain ⟨i, _, rfl⟩ := List.mem_map.mp (List.mem_of_find?_eq_some found)
      exact naming.number base holds i
  · exact holds

theorem NamedBy.marked (naming : Naming P) (named : store.NamedBy P) (name : String) :
    (store.marked name).NamedBy P := by
  have flagged (d : Declaration) : (store.flagError d.name).NamedBy P := named.update fun _ => rfl
  unfold Store.marked
  split
  · exact named
  · rename_i d found
    obtain ⟨member, rfl⟩ := mem_of_find? found
    have holds : P (d.name ++ "Body") := naming.body _ (named _ (mem_names_of_mem member))
    unfold asError
    split
    · exact ((flagged d).register (uniqueName_named naming _ (.inr holds))).update fun _ => rfl
    · exact flagged d

end Store

namespace Builder

open Build Store

variable {P : String → Prop} {env : Env} {expr : Typer}

def Namer (P : String → Prop) (expr : Typer) : Prop :=
  ∀ node scope, P scope → Keeps (NamedBy P) (expr node scope)

theorem brandExpr_named (naming : Naming P) {key owner : String} {node : Schema.Node}
    {type : TypeExpr} (holds : P owner) : Keeps (NamedBy P) (brandExpr env key node type owner) := by
  unfold brandExpr
  split
  · split
    · exact .pure _
    split
    · exact .pure _
    · rename_i brand branded
      refine .bind .store fun store => ?_
      split
      · exact .bind (.report _ _) fun _ => .pure _
      dsimp only
      split
      · refine .bind (.modifyStore fun store named => ?_) fun _ => .pure _
        exact NamedBy.register named (naming.brand owner holds key brand branded)
      · exact .pure _
  · exact .pure _

theorem fieldsOf_named (naming : Naming P) (namer : Namer P expr) {object : Schema.Fields Schema.Node}
    {owner : String} (holds : P owner) : Keeps (NamedBy P) (fieldsOf env expr object owner) := by
  refine .bind (.mapM _ ?_) fun fields => .pure _
  rintro ⟨key, node⟩ _
  cases key with
  | text key =>
    change Keeps _ (expr node (owner ++ Name.identifier key) >>= _)
    refine .bind (namer node _ (naming.extend owner holds key)) fun type => ?_
    cases type with
    | none => exact .bind (.report _ _) fun _ => .pure _
    | some type => exact .bind (brandExpr_named naming holds) fun type => .pure _
  | _ => exact .throw _

theorem fillFrom_named (naming : Naming P) (namer : Namer P expr) {name : String}
    {node : Schema.Node} {preferStruct : Bool} (holds : P name) :
    Keeps (NamedBy P) (fillFrom env expr name node preferStruct) := by
  have updated {f : Declaration → Declaration} (keeps : ∀ d, (f d).name = d.name) :
      Keeps (NamedBy P) (Build.modifyStore (·.update name f)) :=
    .modifyStore fun _ named => named.update keeps
  unfold fillFrom
  refine .bind (updated fun _ => rfl) fun _ => ?_
  split
  · refine .bind (updated fun _ => rfl) fun _ => ?_
    exact .bind (fieldsOf_named naming namer holds) fun fields => updated fun _ => rfl
  · refine .bind (updated fun _ => rfl) fun _ => ?_
    refine .bind (namer node name holds) fun type => ?_
    cases type with
    | some type => exact updated fun _ => rfl
    | none => exact .bind (.report _ _) fun _ => updated fun _ => rfl

theorem fill_named (naming : Naming P) (namer : Namer P expr) {name : String}
    {node : Schema.Node} {preferStruct : Bool} (holds : P name) :
    Keeps (NamedBy P) (fill env expr name node preferStruct) :=
  .bind (.noteFill name) fun _ => .bind (.lift _) fun _ => fillFrom_named naming namer holds

/-- The name of a target comes from the last segment of its reference. -/
theorem targetName_of_resolve {pointer document : Json} {target : Pointer.Target}
    (resolved : Pointer.resolve pointer document = .ok (some target)) :
    ∃ text, target.name = Name.identifier text := by
  unfold Pointer.resolve at resolved
  split at resolved
  · cases resolved
  · obtain ⟨value, -, resolved⟩ := except_bind_eq_ok.mp resolved
    split at resolved
    · cases resolved
      exact ⟨_, rfl⟩
    · cases resolved
      exact ⟨_, rfl⟩
    · cases resolved

theorem declareTarget_named (naming : Naming P) (namer : Namer P expr) {target : Pointer.Target}
    (holds : target.name = "" ∨ P target.name) :
    Keeps (NamedBy P) (declareTarget env expr target) := by
  refine .bind .store fun store => ?_
  have unique := uniqueName_named naming store holds
  refine .bind (.modifyStore fun _ named => NamedBy.reserve named unique) fun _ => ?_
  refine .bind (.report _ _) fun _ => .bind (.lift _) fun node => ?_
  exact .bind (fill_named naming namer unique) fun _ => .pure _

theorem refName_named (naming : Naming P) (namer : Namer P expr) {pointer : Json} :
    Keeps (NamedBy P) (refName env expr pointer) := by
  refine .bind (.lift _) fun key => .bind .store fun store => ?_
  split
  · exact .pure _
  · intro s named
    refine .lift_bind named fun target resolved => ?_
    cases target with
    | none => exact .pure named trivial
    | some target =>
      obtain ⟨text, same⟩ := targetName_of_resolve resolved
      have holds : target.name = "" ∨ P target.name := by
        rw [same, or_iff_not_imp_left]
        exact naming.identifier text
      exact (Keeps.bind (declareTarget_named naming namer holds) fun _ => .pure _) s named

section

variable {scope : String} (namer : Namer P expr) (holds : P scope)
include namer holds

theorem itemsExpr_named {items : Schema.Items Schema.Node} :
    Keeps (NamedBy P) (itemsExpr expr scope items) := by
  cases items with
  | anything => exact .pure _
  | nothing => exact .pure _
  | each item => exact namer item scope holds

theorem unionExpr_named {members : List Schema.Node} :
    Keeps (NamedBy P) (unionExpr expr scope members) := by
  refine .bind (.mapM _ fun member _ => namer member scope holds) fun types => ?_
  split <;> exact .pure _

theorem recordExpr_named {additional : Option Schema.Node} :
    Keeps (NamedBy P) (recordExpr expr scope additional) := by
  cases additional with
  | none => exact .pure _
  | some item => exact .bind (namer item scope holds) fun _ => .pure _

theorem tupleExpr_named {lead : List Schema.Node} {rest : Schema.Items Schema.Node} :
    Keeps (NamedBy P) (tupleExpr expr scope lead rest) := by
  refine .bind (.mapM _ fun item _ => .bind (namer item scope holds) fun _ => .pure _) fun args => ?_
  split
  · exact .pure _
  · exact .bind (itemsExpr_named namer holds) fun _ => .pure _

end

theorem listExpr_named {item : TypeExpr} {minItems maxItems : Option Json} :
    Keeps (NamedBy P) (listExpr item minItems maxItems) := by
  cases minItems with
  | none => exact .pure _
  | some bound => exact .bind (.lift _) fun _ => .pure _

theorem shapeExpr_named (naming : Naming P) (namer : Namer P expr) {node : Schema.Node}
    {scope : String} (holds : P scope) : Keeps (NamedBy P) (shapeExpr env expr node scope) := by
  unfold shapeExpr
  split
  case h_2 => exact .bind (refName_named naming namer) fun _ => .pure _
  case h_6 =>
    cases node.singleRef? with
    | some member => exact namer member scope holds
    | none => exact .bind (.lift _) fun _ => namer _ scope holds
  case h_7 => exact unionExpr_named namer holds
  case h_8 =>
    split
    · exact .bind (fieldsOf_named naming namer holds) fun _ => .pure _
    · exact recordExpr_named namer holds
  case h_9 =>
    refine .bind (itemsExpr_named namer holds) fun item => ?_
    cases item with
    | none => exact .pure _
    | some item => exact listExpr_named
  case h_10 => exact tupleExpr_named namer holds
  all_goals exact .pure _

theorem expr_namer (naming : Naming P) (env : Env) (fuel : Nat) :
    Namer P (Builder.expr env fuel) := by
  induction fuel with
  | zero => exact fun _ _ _ => .throw _
  | succ fuel ih =>
    exact fun node scope holds => .bind (shapeExpr_named naming ih holds) fun _ => .pure _

/-- The node gets a name of its own: it is no reference that cannot be null and leads somewhere. -/
def Own (document : Json) (node : Schema.Node) : Prop :=
  ∀ pointer, asRef? node = some pointer → node.nullable = false →
    Pointer.resolve pointer document = .ok none

theorem resolve_of_refName {pointer : Json} {s t : Session}
    (done : refName env expr pointer s = .ok none t) :
    Pointer.resolve pointer env.document = .ok none := by
  unfold refName at done
  obtain ⟨key, _, lifted, rest⟩ := bind_eq_ok.mp done
  obtain ⟨_, rfl⟩ := lift_eq_ok.mp lifted
  obtain ⟨store, _, read, found⟩ := bind_eq_ok.mp rest
  cases known : known? store key with
  | some name =>
    rw [known] at found
    cases found
  | none =>
    rw [known] at found
    obtain ⟨target, _, lifted, ended⟩ := bind_eq_ok.mp found
    obtain ⟨resolved, rfl⟩ := lift_eq_ok.mp lifted
    cases target with
    | none => exact resolved
    | some target =>
      obtain ⟨name, _, _, same⟩ := bind_eq_ok.mp ended
      cases same

/-- The name that is asked for matters only if the node gets a name of its own. -/
theorem add_named (naming : Naming P) (env : Env) {name : String} {node : Schema.Node}
    {preferStruct : Bool} (requested : Own env.document node → name = "" ∨ P name) :
    Keeps (NamedBy P) (add env name node preferStruct) := by
  have namer := expr_namer naming env env.fuel
  unfold add
  split
  · rename_i pointer reference nullable
    intro s named
    refine .bind_of_ok (refName_named naming namer s named) fun target t done named => ?_
    cases target with
    | some target => exact .pure named trivial
    | none =>
      have own : Own env.document node := by
        intro other same _
        cases reference.symm.trans same
        exact resolve_of_refName done
      refine .report (.store (.modifyStore (.pure ?_ trivial)))
      exact NamedBy.reserve named (uniqueName_named naming t.store (requested own))
  · rename_i other
    have own : Own env.document node :=
      fun pointer reference nullable => absurd nullable (other pointer reference)
    refine .bind .store fun store => ?_
    have unique := uniqueName_named naming store (requested own)
    refine .bind (.modifyStore fun _ named => NamedBy.reserve named unique) fun _ => ?_
    exact .bind (fill_named naming namer unique) fun _ => .pure _

theorem addSchema_named_of (naming : Naming P) {brandIds : Bool} {name : String}
    {fragment document : Json} {preferStruct : Bool}
    (requested : ∀ node, Schema.normalize fragment ("#/" ++ name) = .ok node →
      Own document node → name = "" ∨ P name) :
    Keeps (NamedBy P) (addSchema brandIds name fragment document preferStruct) :=
  fun s named => .lift_bind named fun node read =>
    add_named naming _ (requested node read) s named

theorem addSchema_named (naming : Naming P) {brandIds : Bool} {name : String}
    {fragment document : Json} {preferStruct : Bool} (requested : name = "" ∨ P name) :
    Keeps (NamedBy P) (addSchema brandIds name fragment document preferStruct) :=
  addSchema_named_of naming fun _ _ _ => requested

end Builder

def Call.requested? : Call → Option String
  | .add name .. => some name
  | .markAsError _ => none

namespace History

variable {P : String → Prop} {history : History}

theorem call_named (naming : Naming P) (brandIds : Bool) (named : history.store.NamedBy P) (c : Call)
    (requested : ∀ name ∈ c.requested?, name = "" ∨ P name) :
    (history.call brandIds c).store.NamedBy P := by
  cases c with
  | add name fragment document preferStruct =>
    have ends : Build.Ends (Store.NamedBy P) (fun _ _ => True)
        (Builder.addSchema brandIds name fragment document preferStruct) history.session :=
      Builder.addSchema_named naming (requested name rfl) history.session named
    simp only [call]
    split
    · exact (ends.of_ok ‹_›).1
    · exact ends.of_error ‹_›
  | markAsError name =>
    rw [(store_markAsError brandIds history name).1]
    exact named.marked naming name

/-- Every declared name has what the requested names have and all ways to name keep. -/
theorem run_named (naming : Naming P) (brandIds : Bool) (calls : List Call)
    (requested : ∀ c ∈ calls, ∀ name ∈ c.requested?, name = "" ∨ P name) :
    (run brandIds calls).store.NamedBy P := by
  have later {history : History} (named : history.store.NamedBy P) :
      (calls.foldl (call brandIds) history).store.NamedBy P := by
    induction calls generalizing history with
    | nil => exact named
    | cons c rest ih =>
      rw [List.forall_mem_cons] at requested
      exact ih requested.2 (call_named naming brandIds named c requested.1)
  exact later (by simp [Store.NamedBy, Store.names, store])

end History

end TypedClient
