import TypedClient.Builder
import TypedClient.Proofs.Store.Growth

/-! Building declarations grows the store. The parts of the builder call each other through the
typer that they are given, so each is treated for any typer that grows the store, and the depth of
the expressions ties the knot. -/
namespace TypedClient

def registration (entry : String × String) : LogLine :=
  ⟨.debug, s!"Registering {entry.2} for {entry.1}"⟩

/-- Where the target of a reference has its name. -/
def Session.registered (s : Session) (target : Pointer.Target) : Session :=
  let name := s.store.uniqueName target.name
  { s with
    store := { s.store.reserve name with
      refNames := s.store.refNames ++ [(target.pointer, name)] }
    log := s.log.push (registration (target.pointer, name)) }

namespace Builder

open Build Store

def Fits (type : Option TypeExpr) (store : Store) : Prop :=
  ∀ t ∈ type, t.FitsIn store.names

@[simp] theorem fits_none {store : Store} : Fits none store := by
  simp [Fits]

@[simp] theorem fits_some {type : TypeExpr} {store : Store} :
    Fits (some type) store ↔ type.FitsIn store.names := by
  simp [Fits]

theorem Fits.mono {type : Option TypeExpr} {before after : Store} (fits : Fits type before)
    (grows : Grows before after) : Fits type after :=
  fun t member => (fits t member).mono grows.names_subset

def Grower (expr : Typer) : Prop :=
  ∀ node scope (s : Session), s.store.Sound → Ends (Grows s.store) Fits (expr node scope) s

variable {env : Env} {expr : Typer} {s : Session}

/-- A brand is declared when it is claimed, so a claimed name never meets another declaration. -/
theorem brandExpr_grows {key owner : String} {node : Schema.Node} {type : TypeExpr}
    (sound : s.store.Sound) (fits : type.FitsIn s.store.names) :
    Ends (Grows s.store) (fun t store => t.FitsIn store.names)
      (brandExpr env key node type owner) s := by
  have unchanged : Ends (Grows s.store) (fun t store => t.FitsIn store.names)
      (pure type : Build TypeExpr) s := .pure (.refl sound) fits
  unfold brandExpr
  split
  · rename_i p _
    simp only []
    split
    · exact unchanged
    · split
      · exact unchanged
      · rename_i brand branded
        apply Ends.store
        split
        · exact Ends.report (.pure (.refl sound) fits)
        · rename_i notOther
          by_cases claimed : s.store.brands.contains brand = true
          · have listed : brand ∈ s.store.brands.names := by
              simpa [BrandRegistry.contains] using claimed
            obtain ⟨d, member, _, named⟩ := sound.mem_brands.mp listed
            have declared : brand ∈ s.store.names := named ▸ mem_names_of_mem member
            simp only [BrandRegistry.claim, claimed, if_true, Bool.false_eq_true, if_false]
            exact .pure (.refl sound) (TypeExpr.fitsIn_ref declared)
          · have unclaimed : brand ∉ s.store.brands.names := by
              simpa [BrandRegistry.contains] using claimed
            have fresh := sound.not_mem_of_unclaimed unclaimed
              fun d found => by simpa [found] using notOther
            simp only [BrandRegistry.claim, claimed, Bool.false_eq_true, if_false, if_true]
            apply Ends.modifyStore
            refine .pure (Grows.register sound fresh (BrandRegistry.brandFor?_ne_empty branded)
              (by simp) (by simp) rfl ?_)
              (TypeExpr.fitsIn_ref ?_)
            · rintro t typed
              cases typed
              exact TypeExpr.fitsIn_mk.mpr ⟨rfl, by simp, by simp, by simp, by simp⟩
            · have fresh' : brand ∉ ({ s.store with
                  brands := ⟨s.store.brands.names ++ [brand]⟩ } : Store).names := fresh
              rw [names_register fresh']
              simp
  · exact unchanged

def FieldsFit (fields : List Field) (store : Store) : Prop :=
  ∀ field ∈ fields, ∃ type, field.type = some type ∧ type.FitsIn store.names

theorem FieldsFit.mono {fields : List Field} {before after : Store} (fits : FieldsFit fields before)
    (grows : Grows before after) : FieldsFit fields after := by
  intro field member
  obtain ⟨type, typed, inside⟩ := fits field member
  exact ⟨type, typed, inside.mono grows.names_subset⟩

theorem fieldsOf_grows {object : Schema.Fields Schema.Node} {owner : String}
    (grower : Grower expr) (sound : s.store.Sound) :
    Ends (Grows s.store) FieldsFit (fieldsOf env expr object owner) s := by
  unfold fieldsOf
  apply Grows.chain.bind (Q := fun fields store =>
    ∀ field ∈ fields, FieldsFit field.toList store)
  · apply Grows.chain.mapM _ _ sound
    · exact fun _ _ _ grows fits => fits.mono grows
    · rintro ⟨key, node⟩ _ s sound
      cases key with
      | text key =>
        apply Grows.chain.bind (grower node _ s sound)
        intro type s' grows fits
        cases type with
        | none => exact Ends.report (.pure (.refl grows.sound) (by simp [FieldsFit]))
        | some type =>
          apply Grows.chain.bind (brandExpr_grows grows.sound (fits type rfl))
          intro type s'' grows inside
          refine .pure (.refl grows.sound) ?_
          rintro field member
          obtain rfl := List.mem_singleton.mp member
          exact ⟨type, rfl, inside⟩
      | _ => exact Grows.refl sound
  · intro fields s' grows fits
    refine .pure (.refl grows.sound) ?_
    intro field member
    obtain ⟨option, listed, same⟩ := List.mem_filterMap.mp member
    exact fits option listed field (by simpa using same)

/-- Where a filled declaration is still the reserved one, and the references that were known when
the filling started are known. -/
def Filled (before : Store) (name : String) (after : Store) : Prop :=
  after.Builds name ∧ before.refNames <+: after.refNames

/-- Filling a declaration that the base does not have grows the base. -/
theorem fillFrom_grows {base : Store} {name : String} {node : Schema.Node} {preferStruct : Bool}
    (grower : Grower expr) (grows : Grows base s.store) (outside : name ∉ base.names)
    (reserved : s.store.Builds name) :
    Ends (Grows base) (fun _ => Filled s.store name) (fillFrom env expr name node preferStruct) s := by
  -- The type is set last, on the declaration that is still reserved when its parts are built.
  have finish : ∀ (type : TypeExpr) (s' : Session), Grows base s'.store →
      Filled s.store name s'.store → type.FitsIn s'.store.names →
      Ends (Grows base) (fun _ => Filled s.store name)
        (Build.modifyStore (·.update name fun d => { d with type := some type })) s' := by
    intro type s' grows filled fits
    have typed := filled.1.update (f := fun d => { d with type := some type }) grows outside
      (by simp) (fun _ notBrand untagged => ⟨notBrand, untagged⟩) ?_
    · exact .modified typed.1 ⟨typed.2, filled.2⟩
    · rintro d t same
      cases same
      exact .inr fits
  unfold fillFrom
  apply Ends.modifyStore
  have described := reserved.update (f := fun d => { d with
    description := node.notes.description.bind Text.nonBlank? }) grows outside (by simp)
    (fun _ notBrand untagged => ⟨notBrand, untagged⟩) (fun _ _ => .inl)
  split
  · apply Ends.modifyStore
    have started := described.2.update (f := fun d => { d with
      kind := if preferStruct then .struct else .classStruct }) described.1 outside (by simp)
      (by cases preferStruct <;> simp) (fun _ _ => .inl)
    apply Ends.bind (Q := fun fields t => Filled s.store name t ∧ FieldsFit fields t)
    · exact (fieldsOf_grows grower started.1.sound).mono (fun _ => started.1.trans)
        (fun _ _ grown fits => ⟨⟨grown.builds started.2, grown.refNames_prefix⟩, fits⟩)
    · rintro fields s' grown ⟨filled, fits⟩
      exact finish _ s' grown filled (TypeExpr.fitsIn_struct fits)
  · apply Ends.modifyStore
    have started := described.2.update (f := fun d => { d with kind := .schema }) described.1
      outside (by simp) (by simp) (fun _ _ => .inl)
    apply Ends.bind (Q := fun type t => Filled s.store name t ∧ Fits type t)
    · exact (grower _ _ _ started.1.sound).mono (fun _ => started.1.trans)
        (fun _ _ grown fits => ⟨⟨grown.builds started.2, grown.refNames_prefix⟩, fits⟩)
    · rintro type s' grown ⟨filled, fits⟩
      cases type with
      | some type => exact finish type s' grown filled (fits type rfl)
      | none => exact Ends.report (finish .json _ grown filled TypeExpr.fitsIn_json)

/-- A fill is noted before anything is built. -/
theorem fill_apply {name : String} {node : Schema.Node} {preferStruct : Bool} :
    fill env expr name node preferStruct s = (do
      fillFrom env expr name (← Build.lift (merged env node)) preferStruct : Build Unit)
        { s with fills := s.fills ++ [name] } :=
  rfl

theorem fill_eq_ok {name : String} {node : Schema.Node} {preferStruct : Bool} {t : Session} :
    fill env expr name node preferStruct s = .ok () t ↔ ∃ result, merged env node = .ok result ∧
      fillFrom env expr name result preferStruct { s with fills := s.fills ++ [name] } = .ok () t := by
  rw [fill_apply, bind_eq_ok]
  constructor
  · rintro ⟨result, u, lifted, filled⟩
    obtain ⟨flat, rfl⟩ := lift_eq_ok.mp lifted
    exact ⟨result, flat, filled⟩
  · rintro ⟨result, flat, filled⟩
    exact ⟨result, _, lift_eq_ok.mpr ⟨flat, rfl⟩, filled⟩

theorem fill_grows {base : Store} {name : String} {node : Schema.Node} {preferStruct : Bool}
    (grower : Grower expr) (grows : Grows base s.store) (outside : name ∉ base.names)
    (reserved : s.store.Builds name) :
    Ends (Grows base) (fun _ => Filled s.store name) (fill env expr name node preferStruct) s :=
  Ends.moved fill_apply (Ends.lift_bind grows fun _ _ => fillFrom_grows grower grows outside reserved)

/-- A reference that resolves is a text, and its target keeps that text. -/
theorem resolve_pointer {pointer document : Json} {target : Pointer.Target}
    (resolved : Pointer.resolve pointer document = .ok (some target)) :
    pointer = .str target.pointer := by
  unfold Pointer.resolve at resolved
  cases found : Pointer.local? pointer with
  | none => simp [found] at resolved
  | some entry =>
    obtain ⟨text, rest⟩ := entry
    have shape : pointer = .str text := by
      cases pointer with
      | str other =>
        simp only [Pointer.local?] at found
        split at found <;> simp_all
      | _ => simp [Pointer.local?] at found
    simp only [found, bind, Except.bind] at resolved
    split at resolved
    · contradiction
    · split at resolved <;>
        simp only [pure, Except.pure, Except.ok.injEq, Option.some.injEq, reduceCtorEq] at resolved
      all_goals
        subst resolved
        exact shape

theorem lookup_eq_none {entries : List (String × String)} {key : String}
    (absent : entries.lookup key = none) : key ∉ entries.map (·.1) := by
  intro member
  obtain ⟨entry, occurs, rfl⟩ := List.mem_map.mp member
  simpa using List.lookup_eq_none_iff.mp absent entry occurs

/-- A reference that is not known yet is known where its target has its name. -/
theorem registered_grows {target : Pointer.Target} (sound : s.store.Sound)
    (absent : target.pointer ∉ s.store.refNames.map (·.1)) :
    Grows s.store (s.registered target).store ∧
      (s.registered target).store.Builds (s.store.uniqueName target.name) := by
  have fresh : s.store.uniqueName target.name ∉ s.store.names := uniqueName_fresh _ _
  have reserved := reserve_grows sound fresh (uniqueName_ne_empty _ _)
  refine ⟨⟨?_, reserved.declared, ⟨_, rfl, by simpa using fresh⟩⟩, builds_reserve fresh⟩
  exact reserved.sound.refer (by simp [names_reserve fresh]) absent (sound.not_target_of_fresh fresh)

theorem declareTarget_apply {target : Pointer.Target} :
    declareTarget env expr target s = (do
      let node ← Build.lift (Schema.normalize target.fragment target.pointer)
      fill env expr (s.store.uniqueName target.name) node false
      return s.store.uniqueName target.name : Build String) (s.registered target) :=
  rfl

/-- The target of a reference that is not known yet. Its name is reserved and referred to before
its body is built, so a cycle meets it there. -/
theorem declareTarget_grows {target : Pointer.Target} (grower : Grower expr)
    (sound : s.store.Sound) (absent : target.pointer ∉ s.store.refNames.map (·.1)) :
    Ends (Grows s.store) (fun name store => (target.pointer, name) ∈ store.refNames)
      (declareTarget env expr target) s := by
  have fresh : s.store.uniqueName target.name ∉ s.store.names := uniqueName_fresh _ _
  obtain ⟨grows, reserved⟩ := registered_grows sound absent
  have listed : (target.pointer, s.store.uniqueName target.name) ∈
      (s.registered target).store.refNames := by simp [Session.registered]
  apply Ends.moved declareTarget_apply
  apply Ends.lift_bind grows
  intro node _
  apply Ends.bind (fill_grows grower grows fresh reserved)
  intro _ s' grown filled
  exact .pure grown (filled.2.subset listed)

theorem refName_grows {pointer : Json} (grower : Grower expr) (sound : s.store.Sound) :
    Ends (Grows s.store) (fun name store => ∀ n ∈ name, n ∈ store.refNames.map (·.2))
      (refName env expr pointer) s := by
  unfold refName
  apply Ends.lift_bind (Grows.refl sound)
  intro key keyed
  apply Ends.store
  cases known : known? s.store key with
  | some name =>
    refine .pure (Grows.refl sound) ?_
    rintro n same
    cases same
    cases key with
    | text p => exact List.mem_map_of_mem (mem_of_lookup known)
    | _ => cases known
  | none =>
    apply Ends.lift_bind (Grows.refl sound)
    intro target resolved
    cases target with
    | none => exact .pure (Grows.refl sound) (by simp)
    | some target =>
      obtain rfl := resolve_pointer resolved
      cases keyed
      apply Grows.chain.bind (declareTarget_grows grower sound (lookup_eq_none known))
      intro name s' grown listed
      exact .pure (Grows.refl grown.sound) (by simpa using ⟨_, listed⟩)

/-- An expression without children that is no reference. -/
theorem fits_leaf {store : Store} {head : TypeHead} (whole : TypeExpr.headComplete head [] = true)
    (kind : head.kind ≠ .ref) : Fits (some { head }) store :=
  fits_some.mpr (TypeExpr.fitsIn_mk.mpr
    ⟨whole, fun isRef => absurd isRef kind, by simp, by simp, by simp⟩)

theorem fitsIn_getD {type : Option TypeExpr} {store : Store} (fits : Fits type store) :
    (type.getD .json).FitsIn store.names := by
  cases type with
  | none => exact TypeExpr.fitsIn_json
  | some type => exact fits type rfl

theorem members_fit {types : List (Option TypeExpr)} {store : Store}
    (fits : ∀ type ∈ types, Fits type store) :
    ∀ type ∈ types.filterMap id, type.FitsIn store.names := by
  intro type member
  obtain ⟨option, listed, same⟩ := List.mem_filterMap.mp member
  exact fits option listed type same

section

variable {scope : String} (grower : Grower expr) (sound : s.store.Sound)
include grower sound

theorem itemsExpr_grows {items : Schema.Items Schema.Node} :
    Ends (Grows s.store) Fits (itemsExpr expr scope items) s := by
  cases items with
  | anything => exact .pure (Grows.refl sound) (fits_some.mpr TypeExpr.fitsIn_json)
  | nothing => exact .pure (Grows.refl sound) (fits_leaf rfl (by simp))
  | each item => exact grower item scope s sound

theorem unionExpr_grows {members : List Schema.Node} :
    Ends (Grows s.store) Fits (unionExpr expr scope members) s := by
  apply Grows.chain.bind
    (Grows.chain.mapM (fun _ _ _ grown fits => fits.mono grown)
      (fun member _ s sound => grower member scope s sound) sound)
  intro types s' grown fits
  have inside := members_fit fits
  split
  · exact .pure (Grows.refl grown.sound) fits_none
  · rename_i only listed
    exact .pure (Grows.refl grown.sound)
      (fits_some.mpr (inside only (listed ▸ List.mem_singleton_self only)))
  · exact .pure (Grows.refl grown.sound)
      (fits_some.mpr (TypeExpr.fitsIn_mk.mpr ⟨rfl, by simp, inside, by simp, by simp⟩))

theorem recordExpr_grows {additional : Option Schema.Node} :
    Ends (Grows s.store) Fits (recordExpr expr scope additional) s := by
  have record : ∀ (value : Option TypeExpr) (s : Session), s.store.Sound → Fits value s.store →
      Ends (Grows s.store) Fits
        (pure (some { head := { kind := .record }, args := [value.getD .json] }) :
          Build (Option TypeExpr)) s := by
    intro value s sound fits
    have inside := fitsIn_getD fits
    exact .pure (Grows.refl sound) (fits_some.mpr
      (TypeExpr.fitsIn_mk.mpr ⟨rfl, by simp, by simpa using inside, by simp, by simp⟩))
  unfold recordExpr
  split
  · apply Grows.chain.bind (grower _ scope s sound)
    exact fun value s' grown fits => record value s' grown.sound fits
  · exact record none s sound fits_none

theorem tupleExpr_grows {lead : List Schema.Node} {rest : Schema.Items Schema.Node} :
    Ends (Grows s.store) Fits (tupleExpr expr scope lead rest) s := by
  apply Grows.chain.bind (Q := fun types store => ∀ type ∈ types, type.FitsIn store.names)
  · apply Grows.chain.mapM (fun _ _ _ grown fits => fits.mono grown.names_subset) _ sound
    intro item _ s sound
    apply Grows.chain.bind (grower item scope s sound)
    intro type s' grown fits
    exact .pure (Grows.refl grown.sound) (fitsIn_getD fits)
  · intro args s' grown fits
    -- the items that may follow are built later, so the leading ones have to outlast them
    have tuple : ∀ (rest : Option TypeExpr) (store : Store), Grows s'.store store →
        Fits rest store → Fits (some { head := { kind := .tuple }, args, rest }) store := by
      intro rest store grown inside
      have leading : ∀ type ∈ args, type.FitsIn store.names :=
        fun type member => (fits type member).mono grown.names_subset
      exact fits_some.mpr (TypeExpr.fitsIn_mk.mpr ⟨rfl, by simp, leading, inside, by simp⟩)
    split
    · exact .pure (Grows.refl grown.sound) (tuple none _ (Grows.refl grown.sound) fits_none)
    · apply Grows.chain.bind (itemsExpr_grows grower grown.sound)
      intro rest s'' further inside
      exact .pure (Grows.refl further.sound)
        (tuple _ _ further (fits_some.mpr (fitsIn_getD inside)))

end

theorem listExpr_grows {item : TypeExpr} {minItems maxItems : Option Json} (sound : s.store.Sound)
    (fits : item.FitsIn s.store.names) :
    Ends (Grows s.store) Fits (listExpr item minItems maxItems) s := by
  have list : ∀ head : TypeHead, head.kind = .array →
      Fits (some { head, args := [item] }) s.store := by
    intro head kind
    exact fits_some.mpr (TypeExpr.fitsIn_mk.mpr ⟨by simp [TypeExpr.headComplete, kind],
      by simp [kind], by simpa using fits, by simp, by simp⟩)
  cases minItems with
  | none => exact .pure (Grows.refl sound) (list _ rfl)
  | some bound =>
    exact Ends.lift_bind (Grows.refl sound) fun _ _ => .pure (Grows.refl sound) (list _ rfl)

theorem primitiveExpr_fits (p : Schema.Primitive) (store : Store) :
    Fits (some (primitiveExpr p)) store := by
  unfold primitiveExpr
  split
  · exact fits_leaf rfl (by simp)
  · exact fits_leaf rfl (by simp)

theorem shapeExpr_grows {node : Schema.Node} {scope : String} (grower : Grower expr)
    (sound : s.store.Sound) :
    Ends (Grows s.store) Fits (shapeExpr env expr node scope) s := by
  have unchanged : Grows s.store s.store := Grows.refl sound
  unfold shapeExpr
  split
  case h_1 accepts _ =>
    exact .pure unchanged (fits_leaf (by cases accepts <;> rfl) (by cases accepts <;> simp))
  case h_2 pointer _ =>
    apply Grows.chain.bind (refName_grows grower sound)
    intro name s' grown listed
    refine .pure (Grows.refl grown.sound) ?_
    rintro type mapped
    obtain ⟨n, same, rfl⟩ := Option.map_eq_some_iff.mp mapped
    obtain ⟨entry, member, rfl⟩ := List.mem_map.mp (listed n same)
    exact TypeExpr.fitsIn_ref (grown.sound.referred entry member)
  case h_3 p _ => exact .pure unchanged (primitiveExpr_fits p _)
  case h_4 => exact .pure unchanged (fits_leaf rfl (by simp))
  case h_5 => exact .pure unchanged (fits_leaf rfl (by simp))
  case h_6 =>
    cases node.singleRef? with
    | some member => exact grower member scope s sound
    | none => exact Ends.lift_bind unchanged fun _ _ => grower _ scope s sound
  case h_7 members _ => exact unionExpr_grows grower sound
  case h_8 fields _ =>
    split
    · apply Grows.chain.bind (fieldsOf_grows grower sound)
      intro fields s' grown fits
      exact .pure (Grows.refl grown.sound) (fits_some.mpr (TypeExpr.fitsIn_struct fits))
    · exact recordExpr_grows grower sound
  case h_9 items minItems maxItems _ =>
    apply Grows.chain.bind (itemsExpr_grows grower sound)
    intro item s' grown fits
    cases item with
    | none => exact .pure (Grows.refl grown.sound) fits_none
    | some item => exact listExpr_grows grown.sound (fits_some.mp fits)
  case h_10 lead rest _ => exact tupleExpr_grows grower sound

/-- Expressions of every depth grow the store. Where the depth is used up there is a fault, which
leaves the store alone. -/
theorem expr_grower (env : Env) (fuel : Nat) : Grower (Builder.expr env fuel) := by
  induction fuel with
  | zero => exact fun _ _ s sound => Grows.refl sound
  | succ fuel ih =>
    intro node scope s sound
    apply Grows.chain.bind (shapeExpr_grows ih sound)
    intro type s' grown fits
    refine .pure (Grows.refl grown.sound) ?_
    split
    · rintro t mapped
      obtain ⟨inner, same, rfl⟩ := Option.map_eq_some_iff.mp mapped
      exact (fits inner same).orNull
    · exact fits

/-- Adding a node grows the store, also when it fails. The name that it returns is declared, and it
is new unless a reference leads to it. -/
theorem add_grows (env : Env) (name : String) (node : Schema.Node) (preferStruct : Bool)
    (sound : s.store.Sound) :
    Ends (Grows s.store) (fun declared store => declared ∈ store.names ∧
        (declared ∈ store.refNames.map (·.2) ∨ declared ∉ s.store.names))
      (add env name node preferStruct) s := by
  unfold add
  split
  · apply Ends.bind (refName_grows (expr_grower env env.fuel) sound)
    intro target s' grown listed
    cases target with
    | some target =>
      have referred := listed target rfl
      obtain ⟨entry, member, same⟩ := List.mem_map.mp referred
      exact .pure grown ⟨same ▸ grown.sound.referred entry member, .inl referred⟩
    | none =>
      apply Ends.report
      apply Ends.store
      apply Ends.modifyStore
      have fresh := uniqueName_fresh s'.store name
      refine .pure (grown.trans (reserve_grows grown.sound fresh (uniqueName_ne_empty _ _))) ⟨?_, .inr ?_⟩
      · rw [names_reserve fresh]
        simp
      · exact fun taken => fresh (grown.names_subset taken)
  · apply Ends.store
    apply Ends.modifyStore
    have fresh := uniqueName_fresh s.store name
    apply Ends.bind (fill_grows (expr_grower env env.fuel)
      (reserve_grows sound fresh (uniqueName_ne_empty _ _)) fresh (builds_reserve fresh))
    rintro _ s' grown ⟨⟨d, found, _⟩, _⟩
    exact .pure grown ⟨find?_isSome.mp (by simp [found]), .inr fresh⟩

theorem addSchema_grows (brandIds : Bool) (name : String) (fragment document : Json)
    (preferStruct : Bool) (sound : s.store.Sound) :
    Ends (Grows s.store) (fun declared store => declared ∈ store.names ∧
        (declared ∈ store.refNames.map (·.2) ∨ declared ∉ s.store.names))
      (addSchema brandIds name fragment document preferStruct) s :=
  Ends.lift_bind (Grows.refl sound) fun node _ => add_grows _ name node preferStruct sound

end Builder

end TypedClient
