import TypedClient.Proofs.Builder.Coherence
import TypedClient.Proofs.Builder.Mirroring

/-! What leads nowhere has no expression. A reference that is known is taken to lead somewhere, also
while its target is still being built, so all that matters is that every known reference leads into
the document. Building an expression keeps that, whether it returns or fails, and nothing else about
the session is needed. -/
namespace TypedClient

theorem Build.Ends.imp {P : Store → Prop} {Q Q' : α → Store → Prop} {step : Build α} {s : Session}
    (ends : Ends P Q step s) (weaker : ∀ a store, Q a store → Q' a store) : Ends P Q' step s :=
  ends.mono (fun _ => id) fun a store _ => weaker a store

/-- One step for each item, each with a result of its own. -/
theorem Build.Ends.mapM {P : Store → Prop} {Q : α → β → Prop} {f : α → Build β} {items : List α}
    {s : Session} (each : ∀ item ∈ items, ∀ s : Session, P s.store →
      Ends P (fun b _ => Q item b) (f item) s) (start : P s.store) :
    Ends P (fun bs _ => List.Forall₂ Q items bs) (items.mapM f) s := by
  induction items generalizing s with
  | nil => exact .pure start .nil
  | cons item rest ih =>
    rw [List.forall_mem_cons] at each
    rw [List.mapM_cons]
    refine .bind (each.1 s start) fun b t kept value => ?_
    refine .bind (ih each.2 kept) fun bs u kept values => ?_
    exact .pure kept (.cons value values)

namespace Builder

open Schema Build Store Node

variable {document : Json} {env : Env} {expr : Typer} {s : Session} {scope : String}

theorem resolves_iff {store : Store} : Resolves document store ↔
    ∀ p ∈ store.knownRefs, ∃ target, Pointer.resolve (.str p) document = .ok (some target) := by
  simp [Resolves, knownRefs]

/-- A typer gives no expression exactly of what leads nowhere. Known references lead into the
document before and after, also when it fails. -/
def Tells (document : Json) (expr : Typer) : Prop :=
  ∀ node scope (s : Session), Resolves document s.store → Ends (Resolves document)
    (fun type _ => type = none ↔ Unresolvable document node) (expr node scope) s

theorem brandExpr_resolves {key owner : String} {node : Node} {type : TypeExpr} :
    Keeps (Resolves document) (brandExpr env key node type owner) := by
  intro s resolves
  have quiet : Quiet (brandExpr env key node type owner) := brandExpr_quiet
  obtain ⟨result, t, done, same⟩ := quiet s
  unfold Ends
  rw [done]
  exact ⟨by rwa [resolves_iff, same, ← resolves_iff], trivial⟩

/-- The fields of an object are its properties, in order, without those that lead nowhere. -/
theorem fieldsOf_tells {object : Fields Node} {owner : String} (tells : Tells document expr)
    (resolves : Resolves document s.store) :
    Ends (Resolves document) (fun fields _ => fields.map (fun field => Key.text field.name) =
        (object.properties.filter (resolvable document ·.2)).map (·.1))
      (fieldsOf env expr object owner) s := by
  unfold fieldsOf
  refine .bind (.mapM (Q := fun (p : Key × Node) field =>
    Kept (Unresolvable document p.2) (fun field => Key.text field.name = p.1) field) ?_ resolves) ?_
  · rintro ⟨key, node⟩ _ s resolves
    cases key with
    | text key =>
      apply Ends.bind (tells node _ s resolves)
      intro type t kept lost
      cases type with
      | none => exact .report (.pure kept (lost.mp rfl))
      | some type =>
        have found : ¬ Unresolvable document node := fun gone => by simpa using lost.mpr gone
        refine .bind (brandExpr_resolves t kept) fun result u kept _ => ?_
        exact .pure kept ⟨found, rfl⟩
    | _ => exact resolves
  · intro results t kept each
    refine .pure kept ?_
    have pairs := Kept.filterMap (fun _ => resolvable_eq_true) each
    rw [← List.forall₂_eq_eq_eq, List.forall₂_map_left_iff, List.forall₂_map_right_iff]
    exact pairs.flip

theorem fillFrom_resolves {name : String} {node : Node} {preferStruct : Bool}
    (tells : Tells document expr) :
    Keeps (Resolves document) (fillFrom env expr name node preferStruct) := by
  have updated {f : Declaration → Declaration} :
      Keeps (Resolves document) (Build.modifyStore (·.update name f)) :=
    .modifyStore fun _ => id
  unfold fillFrom
  refine .bind updated fun _ => ?_
  split
  · refine .bind updated fun _ => .bind (fun s resolves => ?_) fun fields => updated
    exact (fieldsOf_tells tells resolves).imp fun _ _ _ => trivial
  · refine .bind updated fun _ => .bind (fun s resolves => ?_) fun type => ?_
    · exact (tells node name s resolves).imp fun _ _ _ => trivial
    · cases type with
      | some type => exact updated
      | none => exact .bind (.report _ _) fun _ => updated

theorem fill_resolves {name : String} {node : Node} {preferStruct : Bool}
    (tells : Tells document expr) : Keeps (Resolves document) (fill env expr name node preferStruct) :=
  .bind (.noteFill name) fun _ => .bind (.lift _) fun _ => fillFrom_resolves tells

/-- A reference is known from where its target has its name, so it leads into the document while the
target is built. -/
theorem declareTarget_resolves {target : Pointer.Target} (tells : Tells document expr)
    (resolved : Pointer.resolve (.str target.pointer) document = .ok (some target)) :
    Keeps (Resolves document) (declareTarget env expr target) := by
  intro s resolves
  have registered : Resolves document (s.registered target).store := by
    intro entry known
    rcases List.mem_append.mp known with old | new
    · exact resolves entry old
    · obtain rfl := List.mem_singleton.mp new
      exact ⟨target, resolved⟩
  apply Ends.moved declareTarget_apply
  refine .lift_bind registered fun node _ => ?_
  exact .bind (fill_resolves tells _ registered) fun _ _ kept _ => .pure kept trivial

/-- A reference has no name exactly if it leads nowhere. Being known does not change that. -/
theorem refName_tells (env : Env) {pointer : Json} (tells : Tells env.document expr)
    (resolves : Resolves env.document s.store) :
    Ends (Resolves env.document)
      (fun name _ => name = none ↔ Pointer.resolve pointer env.document = .ok none)
      (refName env expr pointer) s := by
  unfold refName
  refine .lift_bind resolves fun key keyed => .store ?_
  cases known : known? s.store key with
  | some name =>
    cases key with
    | text p =>
      obtain rfl := eq_str_of_toKey keyed
      obtain ⟨target, resolved⟩ := resolves _ (mem_of_lookup known)
      exact .pure resolves (by simp [resolved])
    | _ => cases known
  | none =>
    refine .lift_bind resolves fun target resolved => ?_
    cases target with
    | none => exact .pure resolves (by simp [resolved])
    | some target =>
      obtain rfl := resolve_pointer resolved
      refine .bind (declareTarget_resolves tells resolved s resolves) fun name t kept _ => ?_
      exact .pure kept (by simp [resolved])

section

variable (tells : Tells document expr) (resolves : Resolves document s.store)
include tells resolves

theorem itemsExpr_tells {items : Items Node} :
    Ends (Resolves document)
      (fun type _ => type = none ↔ ∃ item, items = .each item ∧ Unresolvable document item)
      (itemsExpr expr scope items) s := by
  cases items with
  | anything | nothing => exact .pure resolves (by simp)
  | each item => exact (tells item scope s resolves).imp fun _ _ lost => by simpa using lost

theorem unionExpr_tells {members : List Node} :
    Ends (Resolves document)
      (fun type _ => type = none ↔ ∀ member ∈ members, Unresolvable document member)
      (unionExpr expr scope members) s := by
  unfold unionExpr
  refine .bind (.mapM (fun member _ s resolves => tells member scope s resolves) resolves) ?_
  intro types t kept each
  have lost : types.filterMap id = [] ↔ ∀ member ∈ members, Unresolvable document member := by
    induction each with
    | nil => simp
    | @cons member type members types first _ ih =>
      cases type with
      | none => simpa [first.mp rfl] using ih
      | some type =>
        have found : ¬ Unresolvable document member := fun gone => by simpa using first.mpr gone
        simp [found]
  split
  · rename_i empty
    exact .pure kept (by simpa using lost.mp empty)
  · rename_i only single
    rw [single] at lost
    exact .pure kept (by simp [← lost])
  · rename_i several _
    exact .pure kept (by simpa [← lost] using several)

theorem recordExpr_tells {additional : Option Node} :
    Ends (Resolves document) (fun type _ => type ≠ none) (recordExpr expr scope additional) s := by
  unfold recordExpr
  cases additional with
  | none => exact .pure resolves (by simp)
  | some item => exact .bind (tells item scope s resolves) fun _ _ kept _ => .pure kept (by simp)

theorem tupleExpr_tells {lead : List Node} {rest : Items Node} :
    Ends (Resolves document) (fun type _ => type ≠ none) (tupleExpr expr scope lead rest) s := by
  unfold tupleExpr
  refine .bind (.mapM (Q := fun _ _ => True) (fun item _ s resolves => ?_) resolves)
    fun args t kept _ => ?_
  · exact .bind (tells item scope s resolves) fun _ _ kept _ => .pure kept trivial
  · split
    · exact .pure kept (by simp)
    · exact .bind (itemsExpr_tells tells kept) fun _ _ kept _ => .pure kept (by simp)

end

theorem listExpr_tells {item : TypeExpr} {minItems maxItems : Option Json}
    (resolves : Resolves document s.store) :
    Ends (Resolves document) (fun type _ => type ≠ none) (listExpr item minItems maxItems) s := by
  unfold listExpr
  cases minItems with
  | none => exact .pure resolves (by simp)
  | some bound => exact .lift_bind resolves fun _ _ => .pure resolves (by simp)

/-- An `allOf` leads nowhere if what stands for it does: the reference that it wraps alone, or what
its members are merged into. -/
theorem allOf_tells {node : Node} {members : List Node} (tells : Tells env.document expr)
    (resolves : Resolves env.document s.store) (shape : node.shape = .allOf members) :
    Ends (Resolves env.document) (fun type _ => type = none ↔ Unresolvable env.document node)
      (match node.singleRef? with
        | some member => expr member scope
        | none =>
          Build.lift (flattenAllOf (lookup env.document) env.fuel node) >>= (expr · scope)) s := by
  cases wraps : node.singleRef? with
  | some member =>
    have same : Unresolvable env.document node ↔ Unresolvable env.document member := by
      rw [unresolvable_iff, shape]
      simp [wraps]
    exact (tells member scope s resolves).imp fun _ _ lost => lost.trans same.symm
  | none =>
    refine .lift_bind resolves fun result flat => ?_
    have same : Unresolvable env.document node ↔ Unresolvable env.document result := by
      rw [unresolvable_iff, shape]
      simp only [wraps]
      constructor
      · rintro ⟨fuel, other, otherFlat, gone⟩
        rwa [flattenAllOf_unique flat otherFlat]
      · exact fun gone => ⟨_, result, flat, gone⟩
    exact (tells result scope s resolves).imp fun _ _ lost => lost.trans same.symm

theorem shapeExpr_tells (env : Env) {node : Node} (tells : Tells env.document expr)
    (resolves : Resolves env.document s.store) :
    Ends (Resolves env.document) (fun type _ => type = none ↔ Unresolvable env.document node)
      (shapeExpr env expr node scope) s := by
  -- all but references, `allOf`, unions and arrays always have an expression
  have always {step : Build (Option TypeExpr)} (found : ¬ Unresolvable env.document node)
      (ends : Ends (Resolves env.document) (fun type _ => type ≠ none) step s) :
      Ends (Resolves env.document) (fun type _ => type = none ↔ Unresolvable env.document node)
        step s :=
    ends.imp fun _ _ given => iff_of_false given found
  unfold shapeExpr
  split
  case h_2 pointer shape =>
    refine .bind (refName_tells env tells resolves) fun name t kept lost => .pure kept ?_
    rw [unresolvable_iff, shape, Option.map_eq_none_iff]
    exact lost
  case h_6 members shape => exact allOf_tells tells resolves shape
  case h_7 members shape =>
    have each : Unresolvable env.document node ↔
        ∀ member ∈ members, Unresolvable env.document member := by rw [unresolvable_iff, shape]
    exact (unionExpr_tells tells resolves).imp fun _ _ lost => lost.trans each.symm
  case h_8 fields shape =>
    refine always (by simp [unresolvable_iff, shape]) ?_
    split
    · exact .bind (fieldsOf_tells tells resolves) fun _ _ kept _ => .pure kept (by simp)
    · exact recordExpr_tells tells resolves
  case h_9 items minItems maxItems shape =>
    have lost : Unresolvable env.document node ↔
        ∃ item, items = .each item ∧ Unresolvable env.document item := by
      rw [unresolvable_iff, shape]
      cases items <;> simp
    refine .bind (itemsExpr_tells tells resolves) fun item t kept gone => ?_
    rw [← lost] at gone
    cases item with
    | none => exact .pure kept (by simpa using gone)
    | some item =>
      refine (listExpr_tells kept).imp fun _ _ given => iff_of_false given fun lost => ?_
      simpa using gone.mpr lost
  case h_10 lead rest shape =>
    exact always (by simp [unresolvable_iff, shape]) (tupleExpr_tells tells resolves)
  all_goals
    rename_i shape
    exact always (by simp [unresolvable_iff, shape]) (.pure resolves (by simp))

theorem expr_tells (env : Env) (fuel : Nat) : Tells env.document (Builder.expr env fuel) := by
  induction fuel with
  | zero => exact fun _ _ _ resolves => resolves
  | succ fuel ih =>
    intro node scope s resolves
    refine .bind (shapeExpr_tells env ih resolves) fun type t kept lost => .pure kept ?_
    split
    · rwa [Option.map_eq_none_iff]
    · exact lost

theorem add_resolves (env : Env) {name : String} {node : Node} {preferStruct : Bool} :
    Keeps (Resolves env.document) (add env name node preferStruct) := by
  have tells := expr_tells env env.fuel
  have reserved {declared : String} :
      Keeps (Resolves env.document) (Build.modifyStore (·.reserve declared)) :=
    .modifyStore fun _ => id
  unfold add
  split
  · refine .bind (fun s resolves => ?_) fun target => ?_
    · exact (refName_tells env tells resolves).imp fun _ _ _ => trivial
    · cases target with
      | some target => exact .pure _
      | none => exact .bind (.report _ _) fun _ => .bind .store fun _ => .bind reserved fun _ => .pure _
  · exact .bind .store fun _ => .bind reserved fun _ => .bind (fill_resolves tells) fun _ => .pure _

theorem addSchema_resolves (brandIds : Bool) (name : String) (fragment document : Json)
    (preferStruct : Bool) :
    Keeps (Resolves document) (addSchema brandIds name fragment document preferStruct) :=
  .bind (.lift _) fun node => add_resolves ⟨document, brandIds, exprBound node document⟩

end Builder

end TypedClient
