import TypedClient.Proofs.Builder.Growth
import TypedClient.Proofs.Builder.Unfolding

/-! Expressions in other places. The expression of a node is built again at a greater depth, in
another scope and on a session that knows the same references under other names. Names and brands
come out differently, but what succeeds succeeds again, and an expression that may be null may be
null again. -/
namespace TypedClient

def Store.knownRefs (store : Store) : List String :=
  store.refNames.map (·.1)

namespace Build

/-- From any two sessions that know the same references: where the first step succeeds the second
does too, with a related value, and again the same references are known. -/
def Mirrors (R : α → β → Prop) (step : Build α) (step' : Build β) : Prop :=
  ∀ s u : Session, s.store.knownRefs = u.store.knownRefs → ∀ a t, step s = .ok a t →
    ∃ b v, step' u = .ok b v ∧ t.store.knownRefs = v.store.knownRefs ∧ R a b

/-- The step succeeds and gets no reference to know. -/
def Quiet (step : Build α) : Prop :=
  ∀ s, ∃ a t, step s = .ok a t ∧ t.store.knownRefs = s.store.knownRefs

namespace Quiet

theorem pure (a : α) : Quiet (Pure.pure a : Build α) :=
  fun s => ⟨a, s, rfl, rfl⟩

theorem store : Quiet Build.store :=
  fun s => ⟨s.store, s, rfl, rfl⟩

theorem modifyStore {f : Store → Store} (keeps : ∀ store, (f store).knownRefs = store.knownRefs) :
    Quiet (Build.modifyStore f) :=
  fun s => ⟨(), _, rfl, keeps s.store⟩

theorem report (level : Level) (text : String) : Quiet (Build.report level text) :=
  fun _ => ⟨(), _, rfl, rfl⟩

theorem bind {step : Build α} {next : α → Build β} (first : Quiet step)
    (second : ∀ a, Quiet (next a)) : Quiet (step >>= next) := by
  intro s
  obtain ⟨a, t, stepped, kept⟩ := first s
  obtain ⟨b, u, ended, kept'⟩ := second a t
  exact ⟨b, u, bind_eq_ok.mpr ⟨a, t, stepped, ended⟩, kept'.trans kept⟩

end Quiet

namespace Mirrors

variable {R : α → β → Prop} {R' : γ → δ → Prop} {step : Build α} {step' : Build β}
  {next : α → Build γ} {next' : β → Build δ}

theorem pure {a : α} {b : β} (related : R a b) : Mirrors R (Pure.pure a) (Pure.pure b) := by
  rintro s u same _ _ done
  cases done
  exact ⟨b, u, rfl, same, related⟩

theorem throw {fault : Fault} {step' : Build β} :
    Mirrors R (MonadExcept.throw fault : Build α) step' := by
  rintro _ _ _ _ _ done
  cases done

theorem lift (result : Except Fault α) : Mirrors Eq (Build.lift result) (Build.lift result) := by
  rintro s u same a t done
  obtain ⟨found, rfl⟩ := lift_eq_ok.mp done
  exact ⟨a, u, lift_eq_ok.mpr ⟨found, rfl⟩, same, rfl⟩

theorem store : Mirrors (fun store store' => store.knownRefs = store'.knownRefs)
    Build.store Build.store := by
  rintro s u same _ _ done
  cases done
  exact ⟨u.store, u, rfl, same, same⟩

theorem modifyStore {f f' : Store → Store}
    (keeps : ∀ store store', store.knownRefs = store'.knownRefs →
      (f store).knownRefs = (f' store').knownRefs) :
    Mirrors (fun _ _ => True) (Build.modifyStore f) (Build.modifyStore f') := by
  rintro s u same _ _ done
  cases done
  exact ⟨(), _, rfl, keeps _ _ same, trivial⟩

theorem report (level : Level) (text text' : String) :
    Mirrors (fun _ _ => True) (Build.report level text) (Build.report level text') := by
  rintro s u same _ _ done
  cases done
  exact ⟨(), _, rfl, same, trivial⟩

theorem noteFill (name name' : String) :
    Mirrors (fun _ _ => True) (Build.noteFill name) (Build.noteFill name') := by
  rintro s u same _ _ done
  cases done
  exact ⟨(), _, rfl, same, trivial⟩

theorem of_quiet (quiet : Quiet step) (quiet' : Quiet step') :
    Mirrors (fun _ _ => True) step step' := by
  intro s u same a t done
  obtain ⟨a', t', again, kept⟩ := quiet s
  obtain ⟨b, v, mirrored, kept'⟩ := quiet' u
  rw [done] at again
  cases again
  exact ⟨b, v, mirrored, (kept.trans same).trans kept'.symm, trivial⟩

theorem bind (first : Mirrors R step step') (second : ∀ a b, R a b → Mirrors R' (next a) (next' b)) :
    Mirrors R' (step >>= next) (step' >>= next') := by
  intro s u same c t done
  obtain ⟨a, s', stepped, rest⟩ := bind_eq_ok.mp done
  obtain ⟨b, u', mirrored, same', related⟩ := first s u same a s' stepped
  obtain ⟨d, v, ended, same'', result⟩ := second a b related s' u' same' c t rest
  exact ⟨d, v, bind_eq_ok.mpr ⟨b, u', mirrored, ended⟩, same'', result⟩

/-- A pure step in front of others. -/
theorem lift_bind {result : Except Fault α} {next : α → Build γ} {next' : α → Build δ}
    (rest : ∀ a, result = .ok a → Mirrors R' (next a) (next' a)) :
    Mirrors R' (Build.lift result >>= next) (Build.lift result >>= next') := by
  cases result with
  | ok a => exact rest a rfl
  | error fault => exact throw

theorem mapM {f : γ → Build α} {f' : γ → Build β} {items : List γ}
    (each : ∀ item ∈ items, Mirrors R (f item) (f' item)) :
    Mirrors (List.Forall₂ R) (items.mapM f) (items.mapM f') := by
  induction items with
  | nil => exact pure .nil
  | cons item rest ih =>
    rw [List.forall_mem_cons] at each
    rw [List.mapM_cons, List.mapM_cons]
    refine bind each.1 fun a b related => bind (ih each.2) fun as bs others => pure ?_
    exact .cons related others

end Mirrors

end Build

namespace Builder

open Schema Build

def NullAlike (type type' : TypeExpr) : Prop :=
  type.nullable = type'.nullable

/-- Alternatives without those that lead nowhere. -/
theorem filterMap_nullAlike {types types' : List (Option TypeExpr)}
    (alike : List.Forall₂ (Option.Rel NullAlike) types types') :
    List.Forall₂ NullAlike (types.filterMap id) (types'.filterMap id) := by
  induction alike with
  | nil => exact .nil
  | cons own _ ih =>
    cases own with
    | none => exact ih
    | some same => exact .cons same ih

def Mimics (expr expr' : Typer) : Prop :=
  ∀ node scope scope', Mirrors (Option.Rel NullAlike) (expr node scope) (expr' node scope')

theorem isSome_known? (store : Store) (key : Key) :
    (known? store key).isSome = true ↔ ∃ p ∈ store.knownRefs, key = .text p := by
  cases key with
  | text p =>
    have missing : store.refNames.lookup p = none ↔ p ∉ store.knownRefs := by
      refine ⟨lookup_eq_none, fun absent => List.lookup_eq_none_iff.mpr fun entry listed => ?_⟩
      have other : p ≠ entry.1 := fun same => absent (same ▸ List.mem_map_of_mem listed)
      simpa using other
    rw [← not_iff_not, Option.not_isSome_iff_eq_none]
    simpa [known?] using missing
  | _ => simp [known?]

section Typers

variable {env : Env} {expr expr' : Typer} {scope scope' : String}

theorem brandExpr_quiet {key owner : String} {node : Node} {type : TypeExpr} :
    Quiet (brandExpr env key node type owner) := by
  unfold brandExpr
  split
  · split
    · exact .pure _
    split
    · exact .pure _
    · refine .bind .store fun store => ?_
      split
      · exact .bind (.report _ _) fun _ => .pure _
      dsimp only
      split
      · exact .bind (.modifyStore fun _ => rfl) fun _ => .pure _
      · exact .pure _
  · exact .pure _

theorem fieldsOf_mirrors (mimics : Mimics expr expr') {object : Fields Node} {owner owner' : String} :
    Mirrors (fun _ _ => True) (fieldsOf env expr object owner) (fieldsOf env expr' object owner') := by
  apply Mirrors.bind (R := List.Forall₂ fun _ _ => True)
  · refine .mapM ?_
    rintro ⟨key, node⟩ _
    cases key with
    | text key =>
      change Mirrors _ (expr node (owner ++ Name.identifier key) >>= _)
        (expr' node (owner' ++ Name.identifier key) >>= _)
      refine .bind (mimics node _ _) fun type type' alike => ?_
      cases alike with
      | none => exact .bind (.report _ _ _) fun _ _ _ => .pure trivial
      | some => exact .bind (.of_quiet brandExpr_quiet brandExpr_quiet) fun _ _ _ => .pure trivial
    | _ => exact .throw
  · exact fun _ _ _ => .pure trivial

theorem update_mirrors {name name' : String} {f f' : Declaration → Declaration} :
    Mirrors (fun _ _ => True) (Build.modifyStore (·.update name f))
      (Build.modifyStore (·.update name' f')) :=
  .modifyStore fun _ _ same => same

theorem fillFrom_mirrors (mimics : Mimics expr expr') {name name' : String} {node : Node}
    {preferStruct : Bool} : Mirrors (fun _ _ => True) (fillFrom env expr name node preferStruct)
      (fillFrom env expr' name' node preferStruct) := by
  unfold fillFrom
  refine .bind update_mirrors fun _ _ _ => ?_
  split
  · refine .bind update_mirrors fun _ _ _ => ?_
    exact .bind (fieldsOf_mirrors mimics) fun _ _ _ => update_mirrors
  · refine .bind update_mirrors fun _ _ _ => ?_
    refine .bind (mimics node _ _) fun type type' alike => ?_
    cases alike with
    | none => exact .bind (.report _ _ _) fun _ _ _ => update_mirrors
    | some => exact update_mirrors

theorem declareTarget_mirrors (mimics : Mimics expr expr') (target : Pointer.Target) :
    Mirrors (fun _ _ => True) (declareTarget env expr target) (declareTarget env expr' target) := by
  refine .bind .store fun store store' _ => ?_
  refine .bind (.modifyStore fun _ _ same => ?_) fun _ _ _ => ?_
  · unfold Store.knownRefs at same ⊢
    rw [List.map_append, List.map_append, same]
    rfl
  refine .bind (.report _ _ _) fun _ _ _ => .lift_bind fun node _ => ?_
  have filled (name name' : String) : Mirrors (fun _ _ => True) (fill env expr name node false)
      (fill env expr' name' node false) :=
    .bind (.noteFill _ _) fun _ _ _ => .lift_bind fun _ _ => fillFrom_mirrors mimics
  exact .bind (filled _ _) fun _ _ _ => .pure trivial

/-- A reference is known on both sides, or it is followed on both. -/
theorem refName_mirrors (mimics : Mimics expr expr') (pointer : Json) :
    Mirrors (Option.Rel fun _ _ => True) (refName env expr pointer) (refName env expr' pointer) := by
  refine .lift_bind fun key _ => .bind .store fun store store' same => ?_
  have together : (known? store key).isSome = (known? store' key).isSome := by
    rw [Bool.eq_iff_iff, isSome_known?, isSome_known?, same]
  cases known : known? store key with
  | some name =>
    obtain ⟨name', known'⟩ := Option.isSome_iff_exists.mp (together.symm.trans (by rw [known]; rfl))
    simp only [known']
    exact .pure (.some trivial)
  | none =>
    have unknown : known? store' key = none := by
      rw [← Option.not_isSome_iff_eq_none, ← together, known]
      simp
    simp only [unknown]
    refine .lift_bind fun target _ => ?_
    cases target with
    | none => exact .pure .none
    | some target => exact .bind (declareTarget_mirrors mimics target) fun _ _ _ => .pure (.some trivial)

theorem itemsExpr_mirrors (mimics : Mimics expr expr') (items : Items Node) :
    Mirrors (Option.Rel NullAlike) (itemsExpr expr scope items) (itemsExpr expr' scope' items) := by
  cases items with
  | anything | nothing => exact .pure (.some rfl)
  | each item => exact mimics item scope scope'

/-- One alternative alone is null on its own account, a union of several is not. -/
theorem unionExpr_mirrors (mimics : Mimics expr expr') (members : List Node) :
    Mirrors (Option.Rel NullAlike) (unionExpr expr scope members) (unionExpr expr' scope' members) := by
  refine .bind (.mapM fun member _ => mimics member scope scope') fun types types' alike => ?_
  have remaining := filterMap_nullAlike alike
  revert remaining
  generalize types.filterMap id = args
  generalize types'.filterMap id = args'
  intro remaining
  cases remaining with
  | nil => exact .pure .none
  | cons own others =>
    cases others with
    | nil => exact .pure (.some own)
    | cons => exact .pure (.some rfl)

theorem recordExpr_mirrors (mimics : Mimics expr expr') (additional : Option Node) :
    Mirrors (Option.Rel NullAlike) (recordExpr expr scope additional)
      (recordExpr expr' scope' additional) := by
  cases additional with
  | none => exact .pure (.some rfl)
  | some item => exact .bind (mimics item scope scope') fun _ _ _ => .pure (.some rfl)

theorem listExpr_mirrors {item item' : TypeExpr} {minItems maxItems : Option Json} :
    Mirrors (Option.Rel NullAlike) (listExpr item minItems maxItems)
      (listExpr item' minItems maxItems) := by
  unfold listExpr
  cases minItems with
  | none => exact .pure (.some rfl)
  | some bound => exact .bind (.lift _) fun _ _ _ => .pure (.some rfl)

theorem tupleExpr_mirrors (mimics : Mimics expr expr') (lead : List Node) (rest : Items Node) :
    Mirrors (Option.Rel NullAlike) (tupleExpr expr scope lead rest)
      (tupleExpr expr' scope' lead rest) := by
  have each (item : Node) : Mirrors (fun _ _ => True)
      (do return (← expr item scope).getD .json : Build TypeExpr)
      (do return (← expr' item scope').getD .json : Build TypeExpr) :=
    .bind (mimics item scope scope') fun _ _ _ => .pure trivial
  refine .bind (.mapM fun item _ => each item) fun _ _ _ => ?_
  cases rest with
  | nothing => exact .pure (.some rfl)
  | anything => exact .pure (.some rfl)
  | each item => exact .bind (mimics item scope scope') fun _ _ _ => .pure (.some rfl)

theorem shapeExpr_mirrors (mimics : Mimics expr expr') (node : Node) :
    Mirrors (Option.Rel NullAlike) (shapeExpr env expr node scope)
      (shapeExpr env expr' node scope') := by
  unfold shapeExpr
  split
  case h_2 pointer _ =>
    refine .bind (refName_mirrors mimics pointer) fun name name' known => .pure ?_
    cases known with
    | none => exact .none
    | some => exact .some rfl
  case h_6 =>
    split
    · exact mimics _ scope scope'
    · exact .lift_bind fun result _ => mimics result scope scope'
  case h_7 members _ => exact unionExpr_mirrors mimics members
  case h_8 fields _ =>
    split
    · exact .bind (fieldsOf_mirrors mimics) fun _ _ _ => .pure (.some rfl)
    · exact recordExpr_mirrors mimics fields.additional
  case h_9 items minItems maxItems _ =>
    refine .bind (itemsExpr_mirrors mimics items) fun item item' alike => ?_
    cases alike with
    | none => exact .pure .none
    | some => exact listExpr_mirrors
  case h_10 lead rest _ => exact tupleExpr_mirrors mimics lead rest
  all_goals exact .pure (.some rfl)

end Typers

/-- More depth does the same elsewhere. -/
theorem expr_mimics (env : Env) {fuel more : Nat} (le : fuel ≤ more) :
    Mimics (expr env fuel) (expr env more) := by
  induction fuel generalizing more with
  | zero => exact fun _ _ _ => .throw
  | succ fuel ih =>
    obtain ⟨more, rfl⟩ := Nat.exists_eq_add_of_lt le
    intro node scope scope'
    refine .bind (shapeExpr_mirrors (ih (by omega)) node) fun type type' alike => .pure ?_
    split
    · cases alike with
      | none => exact .none
      | some => exact .some rfl
    · exact alike

end Builder

end TypedClient
