import TypedClient.Proofs.Builder.Accounts

/-! Brands that building declares. Each part of the builder is treated for any typer that keeps
accounts of what it replaces, and the depth of the expressions ties the knot. -/
namespace TypedClient.Builder

open Schema Build Store Node

variable {document : Json} {known : List (String × String)} {brand : String} {base : PrimitiveType}
  {env : Env} {expr : Typer} {s t : Session} {node : Node} {type : TypeExpr} {scope : String}

/-- What branding does: it leaves the type, or it refers to a brand, which it declares the first
time. -/
theorem brandExpr_cases {key owner : String} {result : TypeExpr}
    (done : brandExpr env key node type owner s = .ok result t) :
    (result = type ∧ t.store = s.store) ∨
    ∃ p brand, node.shape = .primitive p ∧ (p.type = .string ∨ p.type = .integer) ∧
      result = .ref brand type.nullable ∧ (∀ d, s.store.find? brand = some d → d.kind = .brand) ∧
      (brand ∈ s.store.brands.names ∧ t.store = s.store ∨
        brand ∉ s.store.brands.names ∧ ∃ checks, t.store =
          { s.store with brands := ⟨s.store.brands.names ++ [brand]⟩ }.register
            { name := brand, kind := .brand
              type := some { head := { kind := .primitive, name := p.type.name, checks } } }) := by
  unfold brandExpr at done
  cases shape : node.shape with
  | primitive p =>
    simp only [shape] at done
    split at done
    · cases done
      exact .inl ⟨rfl, rfl⟩
    · rename_i brandable
      have plain : p.type = .string ∨ p.type = .integer := by
        by_contra other
        simp [other] at brandable
      cases branded : BrandRegistry.brandFor? key owner with
      | none =>
        simp only [branded] at done
        cases done
        exact .inl ⟨rfl, rfl⟩
      | some brand =>
        simp only [branded] at done
        obtain ⟨store, u, read, done⟩ := bind_eq_ok.mp done
        cases read
        split at done
        · cases done
          exact .inl ⟨rfl, rfl⟩
        · rename_i free
          have brands : ∀ d, s.store.find? brand = some d → d.kind = .brand :=
            fun d found => by simpa [found] using free
          by_cases claimed : brand ∈ s.store.brands.names
          · have contained : s.store.brands.contains brand = true := by
              simpa [BrandRegistry.contains] using claimed
            simp only [BrandRegistry.claim, contained, if_true, Bool.false_eq_true,
              if_false] at done
            cases done
            exact .inr ⟨p, brand, rfl, plain, rfl, brands, .inl ⟨claimed, rfl⟩⟩
          · have contained : ¬ s.store.brands.contains brand = true := by
              simpa [BrandRegistry.contains] using claimed
            simp only [BrandRegistry.claim, contained, Bool.false_eq_true, if_false,
              if_true] at done
            cases done
            exact .inr ⟨p, brand, rfl, plain, rfl, brands, .inr ⟨claimed, _, rfl⟩⟩
  | _ =>
    simp only [shape] at done
    cases done
    exact .inl ⟨rfl, rfl⟩

/-- The expression of a primitive refers to nothing. -/
def Plain (node : Node) (type : TypeExpr) : Prop :=
  ∀ p, node.shape = .primitive p → type.kind ≠ .ref

theorem brandExpr_covers {key owner : String} {result : TypeExpr}
    (ready : Underway document known s.store) (fits : type.FitsIn s.store.names)
    (own : Plain node type) (done : brandExpr env key node type owner s = .ok result t) :
    Covers document known s.store t.store fun brand base => ∃ p nullable,
      node.shape = .primitive p ∧ result = .ref brand nullable ∧ p.type = base := by
  have grows := ((brandExpr_grows ready.sound fits).of_ok done).1
  rcases brandExpr_cases done with ⟨rfl, same⟩ | ⟨p, name, shape, plain, rfl, brands, same⟩
  · rw [same]
    refine .refl ready ?_
    rintro brand base ⟨p, nullable, shape, rfl, _⟩
    exact own p shape rfl
  · have only : ∀ brand base, (∃ q nullable, node.shape = .primitive q ∧
        TypeExpr.ref name type.nullable = .ref brand nullable ∧ q.type = base) ↔
        brand = name ∧ base = p.type := by
      intro brand base
      constructor
      · rintro ⟨q, nullable, other, named, rfl⟩
        obtain rfl := Shape.primitive.inj (shape.symm.trans other)
        simp_all [TypeExpr.ref]
      · rintro ⟨rfl, rfl⟩
        exact ⟨p, _, shape, rfl, rfl⟩
    refine Covers.congr ?_ only
    rcases same with ⟨claimed, same⟩ | ⟨unclaimed, checks, same⟩
    · rw [same]
      refine .of_eq ready.sound ?_
      rintro _ _ ⟨rfl, rfl⟩
      obtain ⟨d, member, kind, rfl⟩ := ready.sound.mem_brands.mp claimed
      exact ⟨plain, d, find?_of_mem ready.sound.distinct member, kind⟩
    · have fresh := ready.sound.not_mem_of_unclaimed unclaimed brands
      rw [same] at grows ⊢
      refine .of_refNames_eq grows rfl ?_ ?_
      · rintro _ _ ⟨rfl, rfl⟩
        exact ⟨plain, _, by rw [find?_register fresh, if_pos rfl], rfl⟩
      · intro brand d found _ unknown
        rw [find?_register fresh] at found
        split at found
        · rename_i named
          cases found
          exact ⟨p.type, ⟨rfl, checks, rfl⟩, named, rfl⟩
        · exact absurd (find?_isSome.mp (Option.isSome_of_eq_some found)) unknown

/-- Only primitives are branded, and they have no parts. -/
theorem replaces_branded {key owner : String} {result : TypeExpr}
    (done : brandExpr env key node type owner s = .ok result t) :
    Replaces document known node result brand base ↔
      Replaces document known node type brand base := by
  rcases brandExpr_cases done with ⟨rfl, _⟩ | ⟨p, _, shape, _⟩
  · rfl
  · simp [replaces_iff, shape]

/-- A typer keeps accounts of what it replaces; nothing comes of what is lost only. -/
def Accountant (document : Json) (known : List (String × String)) (expr : Typer) : Prop :=
  ∀ node scope (s : Session) type t, Underway document known s.store →
    expr node scope s = .ok type t →
    Covers document known s.store t.store (ReplacesIn document known node type) ∧
    Kept (Lost document known node) (Plain node) type

/-- The type of a property, where its brand may take the place of its own. -/
theorem property_covers {key owner : String} {u : Session} {result : TypeExpr}
    (accountant : Accountant document known expr) (grower : Grower expr)
    (ready : Underway document known s.store) (typed : expr node scope s = .ok (some type) u)
    (branded : brandExpr env key node type owner u = .ok result t) :
    Covers document known s.store t.store fun brand base =>
      (∃ p nullable, node.shape = .primitive p ∧ result = .ref brand nullable ∧ p.type = base) ∨
        Replaces document known node result brand base := by
  obtain ⟨covers, _, plain⟩ := accountant node scope s (some type) u ready typed
  have fits := ((grower node scope s ready.sound).of_ok typed).2
  have marked := brandExpr_covers (covers.underway ready) (fits_some.mp fits) plain branded
  refine (covers.trans marked).congr fun brand base => ?_
  rw [replacesIn_some, replaces_branded branded, or_comm]

theorem fieldsOf_covers {object : Fields Node} {owner : String} {fields : List Field}
    (accountant : Accountant document known expr) (grower : Grower expr)
    (ready : Underway document known s.store)
    (done : fieldsOf env expr object owner s = .ok fields t) :
    Covers document known s.store t.store fun brand base =>
      ∃ pair ∈ (object.properties.filter (leads document known ·.2)).zip fields,
        FieldReplaces document known pair.1.2 pair.2 brand base := by
  unfold fieldsOf at done
  obtain ⟨results, u, mapped, same⟩ := bind_eq_ok.mp done
  cases same
  obtain ⟨covers, each⟩ := Covers.mapM
    (fun (property : Key × Node) (field : Option Field) brand base =>
      ∃ f ∈ field, FieldReplaces document known property.2 f brand base)
    (fun property field => Kept (Lost document known property.2) (fun _ => True) field)
    (by
      rintro ⟨key, node⟩ _ s field t ready done
      obtain ⟨name, s', keyed, rest⟩ := bind_eq_ok.mp done
      obtain rfl : s = s' := by
        cases key <;> cases keyed
        rfl
      obtain ⟨type, u, typed, rest⟩ := bind_eq_ok.mp rest
      obtain ⟨covers, kept⟩ := accountant node _ s type u ready typed
      cases type with
      | none =>
        cases rest
        exact ⟨covers.congr (by simp [ReplacesIn]), kept⟩
      | some type =>
        obtain ⟨result, v, branded, rest⟩ := bind_eq_ok.mp rest
        cases rest
        have covers := property_covers accountant grower ready typed branded
        exact ⟨covers.congr (by simp [FieldReplaces]), kept.1, trivial⟩)
    ready mapped
  exact covers.congr fun brand base => exists_zip_filterMap
    (fun property field => FieldReplaces document known property.2 field brand base)
    (fun _ => leads_eq_true) each

theorem replaces_struct {object : Fields Node} {fields : List Field}
    (shape : node.shape = .object object) :
    Replaces document known node (.struct fields) brand base ↔
      ∃ pair ∈ (object.properties.filter (leads document known ·.2)).zip fields,
        FieldReplaces document known pair.1.2 pair.2 brand base := by
  rw [replaces_iff, shape]
  simp [TypeExpr.struct]

theorem fillFrom_accounts {ground : Store} {name : String} {preferStruct : Bool}
    (accountant : Accountant document known expr) (grower : Grower expr)
    (grows : Grows ground s.store) (outside : name ∉ ground.names) (reserved : s.store.Builds name)
    (ready : Underway document known s.store)
    (done : fillFrom env expr name node preferStruct s = .ok () t) :
    ∃ d type, t.store.find? name = some d ∧ d.kind ≠ .brand ∧ d.type = some type ∧
      Accounts document known s.store t.store (Replaces document known node type) := by
  cases struct : node.struct? with
  | some object =>
    have plain := structKind_plain preferStruct
    rw [fillFrom_of_struct struct] at done
    obtain ⟨_, _, same, done⟩ := bind_eq_ok.mp done
    cases same
    obtain ⟨_, _, same, done⟩ := bind_eq_ok.mp done
    cases same
    obtain ⟨fields, u, built, done⟩ := bind_eq_ok.mp done
    cases done
    obtain ⟨sound, names, d, declared, kind⟩ := find?_started _ grows outside reserved plain
    have started : Underway document known _ := ⟨sound, ready.kept, ready.resolves⟩
    have covers := fieldsOf_covers accountant grower started built
    obtain ⟨accounts, found⟩ := covers.typed (.struct fields) declared (kind ▸ plain.1)
    refine ⟨_, .struct fields, found, kind ▸ plain.1, rfl, ?_⟩
    exact (accounts.congr_start names rfl).congr
      fun _ _ => replaces_struct (struct?_eq_some.mp struct).1
  | none =>
    rw [fillFrom_of_other struct] at done
    obtain ⟨_, _, same, done⟩ := bind_eq_ok.mp done
    cases same
    obtain ⟨_, _, same, done⟩ := bind_eq_ok.mp done
    cases same
    obtain ⟨type, u, built, done⟩ := bind_eq_ok.mp done
    have plain : DeclarationKind.schema ≠ .brand ∧ DeclarationKind.schema ≠ .taggedError := by simp
    obtain ⟨sound, names, d, declared, kind⟩ := find?_started _ grows outside reserved plain
    have started : Underway document known _ := ⟨sound, ready.kept, ready.resolves⟩
    obtain ⟨covers, _⟩ := accountant node name _ type u started built
    obtain ⟨accounts, found⟩ := covers.typed (type.getD .json) declared (kind ▸ plain.1)
    have accounted : Accounts document known s.store _
        (Replaces document known node (type.getD .json)) :=
      (accounts.congr_start names rfl).congr fun _ _ => replaces_getD
    cases type with
    | some type =>
      cases done
      exact ⟨_, type, found, kind ▸ plain.1, rfl, accounted⟩
    | none =>
      cases done
      exact ⟨_, .json, found, kind ▸ plain.1, rfl, accounted⟩

theorem fill_accounts {ground : Store} {name : String} {preferStruct : Bool}
    (accountant : Accountant env.document known expr) (grower : Grower expr)
    (grows : Grows ground s.store) (outside : name ∉ ground.names) (reserved : s.store.Builds name)
    (ready : Underway env.document known s.store)
    (done : fill env expr name node preferStruct s = .ok () t) :
    (∃ d, t.store.find? name = some d ∧ d.kind ≠ .brand) ∧
      Accounts env.document known s.store t.store
        (DeclarationReplaces env.document known t.store name node) := by
  obtain ⟨result, flat, filled⟩ := fill_eq_ok.mp done
  have merges := mergesTo_of_merged flat
  obtain ⟨d, type, found, kind, typed, accounts⟩ :=
    fillFrom_accounts (s := { s with fills := s.fills ++ [name] }) accountant grower grows outside
      reserved ready filled
  refine ⟨⟨d, found, kind⟩, accounts.congr fun brand base => ?_⟩
  constructor
  · rintro ⟨other, e, otherType, otherMerges, otherFound, otherTyped, replaces⟩
    obtain rfl := merges.unique otherMerges
    obtain rfl := Option.some.inj (found.symm.trans otherFound)
    obtain rfl := Option.some.inj (typed.symm.trans otherTyped)
    exact replaces
  · exact fun replaces => ⟨result, d, type, merges, found, typed, replaces⟩

/-- A declaration that is built is no brand, so a brand that is new has another name. -/
theorem not_mem_reserve {store after : Store} {name : String} {d e : Declaration}
    (fresh : name ∉ store.names) (found : after.find? name = some d) (kind : d.kind ≠ .brand)
    (declared : after.find? brand = some e) (isBrand : e.kind = .brand)
    (unknown : brand ∉ store.names) : brand ∉ (store.reserve name).names := by
  rw [names_reserve fresh]
  intro listed
  rcases List.mem_append.mp listed with old | own
  · exact unknown old
  · obtain rfl := List.mem_singleton.mp own
    rw [found] at declared
    cases declared
    exact kind isBrand

theorem registered_underway {target : Pointer.Target} (ready : Underway document known s.store)
    (resolved : Pointer.resolve (.str target.pointer) document = .ok (some target))
    (absent : target.pointer ∉ s.store.refNames.map (·.1)) :
    Underway document known (s.registered target).store := by
  obtain ⟨started, _⟩ := registered_grows ready.sound absent
  refine ⟨started.sound, List.Subset.trans ready.kept started.refNames_prefix.subset, ?_⟩
  intro entry listed
  rcases List.mem_append.mp listed with old | new
  · exact ready.resolves entry old
  · obtain rfl := List.mem_singleton.mp new
    exact .inr ⟨target, resolved⟩

/-- What the declaration of a target replaces is what is replaced at the reference. -/
theorem replaced_registered {target : Pointer.Target} {after : Store}
    (absent : target.pointer ∉ s.store.refNames.map (·.1))
    (listed : (target.pointer, s.store.uniqueName target.name) ∈ after.refNames)
    (looked : lookup document (.str target.pointer) = .ok (some node)) :
    Replaced document known s.store after (fun _ _ => False) brand base ↔
      Replaced document known (s.registered target).store after
        (DeclarationReplaces document known after (s.store.uniqueName target.name) node)
        brand base := by
  constructor
  · rintro (own | ⟨entry, met, unmet, other, otherLooked, replaces⟩)
    · exact own.elim
    · by_cases own : entry ∈ (s.registered target).store.refNames
      · rcases List.mem_append.mp own with old | new
        · exact absurd old unmet
        · obtain rfl := List.mem_singleton.mp new
          rw [looked] at otherLooked
          cases otherLooked
          exact .inl replaces
      · exact .inr ⟨entry, met, own, other, otherLooked, replaces⟩
  · rintro (replaces | ⟨entry, met, unmet, target⟩)
    · refine .inr ⟨_, listed, fun old => ?_, node, looked, replaces⟩
      exact absent (List.mem_map_of_mem old)
    · exact .inr ⟨entry, met, fun old => unmet (List.mem_append_left _ old), target⟩

theorem declareTarget_covers {target : Pointer.Target} {name : String}
    (accountant : Accountant env.document known expr) (grower : Grower expr)
    (ready : Underway env.document known s.store)
    (resolved : Pointer.resolve (.str target.pointer) env.document = .ok (some target))
    (absent : target.pointer ∉ s.store.refNames.map (·.1))
    (done : declareTarget env expr target s = .ok name t) :
    Covers env.document known s.store t.store fun _ _ => False := by
  obtain ⟨grows, listed⟩ := (declareTarget_grows grower ready.sound absent).of_ok done
  have fresh : s.store.uniqueName target.name ∉ s.store.names := uniqueName_fresh _ _
  obtain ⟨started, reserved⟩ := registered_grows ready.sound absent
  have registered := registered_underway ready resolved absent
  rw [declareTarget_apply] at done
  obtain ⟨node, u, lifted, rest⟩ := bind_eq_ok.mp done
  obtain ⟨normal, rfl⟩ := lift_eq_ok.mp lifted
  obtain ⟨_, v, filled, same⟩ := bind_eq_ok.mp rest
  cases same
  obtain ⟨⟨d, found, kind⟩, resolves, branded, origins⟩ :=
    fill_accounts accountant grower started fresh reserved registered filled
  have looked := lookup_eq_some.mpr ⟨target, resolved, normal⟩
  refine ⟨grows, fun entry met => ?_, fun brand base claimed => ?_,
    fun brand e declared isBrand unknown => ?_⟩
  · rcases resolves entry met with earlier | new
    · rcases List.mem_append.mp earlier with old | own
      · exact .inl old
      · obtain rfl := List.mem_singleton.mp own
        exact .inr ⟨target, resolved⟩
    · exact .inr new
  · exact branded brand base ((replaced_registered absent listed looked).mp claimed)
  · have other := not_mem_reserve fresh found kind declared isBrand unknown
    obtain ⟨base, brands, claimed⟩ := origins brand e declared isBrand other
    exact ⟨base, brands, (replaced_registered absent listed looked).mpr claimed⟩

theorem refName_covers {pointer : Json} {name : Option String}
    (accountant : Accountant env.document known expr) (grower : Grower expr)
    (ready : Underway env.document known s.store) (done : refName env expr pointer s = .ok name t) :
    Covers env.document known s.store t.store (fun _ _ => False) ∧
      Kept (Absent env.document known pointer) (fun _ => True) name := by
  unfold refName at done
  obtain ⟨key, u, lifted, rest⟩ := bind_eq_ok.mp done
  obtain ⟨keyed, rfl⟩ := lift_eq_ok.mp lifted
  obtain ⟨_, _, read, rest⟩ := bind_eq_ok.mp rest
  cases read
  cases met : known? u.store key with
  | some found =>
    simp only [met] at rest
    cases rest
    refine ⟨.refl ready (by simp), fun absent => ?_, trivial⟩
    cases key with
    | text p =>
      obtain rfl := eq_str_of_toKey keyed
      rcases ready.resolves _ (mem_of_lookup met) with old | ⟨target, resolved⟩
      · exact absent.1 p rfl (List.mem_map_of_mem old)
      · exact absurd (resolved.symm.trans absent.2) (by simp)
    | _ => cases met
  | none =>
    simp only [met] at rest
    obtain ⟨target, _, lifted, last⟩ := bind_eq_ok.mp rest
    obtain ⟨resolved, rfl⟩ := lift_eq_ok.mp lifted
    cases target with
    | none =>
      cases last
      refine ⟨.refl ready (by simp), ?_, resolved⟩
      rintro p rfl listed
      cases keyed
      obtain ⟨entry, old, rfl⟩ := List.mem_map.mp listed
      exact lookup_eq_none met (List.mem_map_of_mem (ready.kept old))
    | some target =>
      obtain rfl := resolve_pointer resolved
      cases keyed
      obtain ⟨declared, u, built, same⟩ := bind_eq_ok.mp last
      cases same
      refine ⟨declareTarget_covers accountant grower ready resolved (lookup_eq_none met) built, ?_,
        trivial⟩
      exact fun absent => absurd (resolved.symm.trans absent.2) (by simp)

theorem itemsExpr_covers {items : Items Node} {type : Option TypeExpr}
    (accountant : Accountant document known expr) (ready : Underway document known s.store)
    (done : itemsExpr expr scope items s = .ok type t) :
    Covers document known s.store t.store
      (fun brand base =>
        ∃ item, items = .each item ∧ ReplacesIn document known item type brand base) ∧
    Kept (∃ item, items = .each item ∧ Lost document known item) (fun _ => True) type := by
  cases items with
  | anything | nothing =>
    cases done
    exact ⟨.refl ready (by simp), by simp [Kept]⟩
  | each item =>
    obtain ⟨covers, kept⟩ := accountant item scope s type t ready done
    exact ⟨covers.congr (by simp), by simpa [Items.each.injEq] using kept.imp fun _ _ => trivial⟩

theorem unionExpr_covers {members : List Node} {type : Option TypeExpr}
    (accountant : Accountant document known expr) (ready : Underway document known s.store)
    (shape : node.shape = .anyOf members) (done : unionExpr expr scope members s = .ok type t) :
    Covers document known s.store t.store (ReplacesIn document known node type) ∧
      Kept (Lost document known node) (Plain node) type := by
  unfold unionExpr at done
  obtain ⟨types, u, mapped, rest⟩ := bind_eq_ok.mp done
  obtain ⟨covers, each⟩ := Covers.mapM (ReplacesIn document known)
    (fun member => Kept (Lost document known member) (Plain member))
    (fun member _ s type t ready done => accountant member scope s type t ready done) ready mapped
  have covers := covers.congr fun brand base => exists_zip_filterMap
    (fun member type => Replaces document known member type brand base)
    (fun _ => leads_eq_true) each
  have length := (Kept.filterMap (fun _ => leads_eq_true) each).length_eq
  have lost : Lost document known node ↔ types.filterMap id = [] := by
    rw [lost_iff, shape, ← List.length_eq_zero_iff, ← length, List.length_eq_zero_iff,
      List.filter_eq_nil_iff]
    simp
  have plain : ∀ type, Plain node type := fun type p => by simp [shape]
  generalize types.filterMap id = chosen at rest covers length lost
  cases chosen with
  | nil =>
    cases rest
    exact ⟨covers.congr (by simp [ReplacesIn]), lost.mpr rfl⟩
  | cons first others =>
    have leads : ¬ Lost document known node := by simp [lost]
    cases others with
    | nil =>
      cases rest
      obtain ⟨member, alone⟩ := List.length_eq_one_iff.mp length
      refine ⟨covers.congr fun brand base => ?_, leads, plain first⟩
      rw [replacesIn_some, replaces_iff, shape]
      simp [alone]
    | cons second others =>
      cases rest
      refine ⟨covers.congr fun brand base => ?_, leads, plain _⟩
      rw [replacesIn_some, replaces_iff, shape]
      simp only []
      split
      · rename_i member alone
        simp [alone] at length
      · rfl

theorem recordExpr_covers {object : Fields Node} {type : Option TypeExpr}
    (accountant : Accountant document known expr) (ready : Underway document known s.store)
    (shape : node.shape = .object object)
    (done : recordExpr expr scope object.additional s = .ok type t) :
    Covers document known s.store t.store (ReplacesIn document known node type) ∧
      type.isSome = true := by
  have record : ∀ (value : Option TypeExpr) brand base, ReplacesIn document known node
      (some { head := { kind := .record }, args := [value.getD .json] }) brand base ↔
      ∃ item, object.additional = some item ∧ ReplacesIn document known item value brand base := by
    intro value brand base
    rw [replacesIn_some, replaces_iff, shape]
    simp [replaces_getD]
  unfold recordExpr at done
  cases further : object.additional with
  | none =>
    simp only [further] at done
    cases done
    exact ⟨.refl ready (by simpa [further] using record none), rfl⟩
  | some item =>
    simp only [further] at done
    obtain ⟨value, u, valued, same⟩ := bind_eq_ok.mp done
    cases same
    obtain ⟨covers, _⟩ := accountant item scope s value t ready valued
    exact ⟨covers.congr (by simp [record, further]), rfl⟩

theorem tupleExpr_covers {lead : List Node} {rest : Items Node} {type : Option TypeExpr}
    (accountant : Accountant document known expr) (ready : Underway document known s.store)
    (shape : node.shape = .tuple lead rest) (done : tupleExpr expr scope lead rest s = .ok type t) :
    Covers document known s.store t.store (ReplacesIn document known node type) ∧
      type.isSome = true := by
  unfold tupleExpr at done
  obtain ⟨args, u, mapped, done⟩ := bind_eq_ok.mp done
  obtain ⟨leading, _⟩ := Covers.mapM (Replaces document known) (fun _ _ => True)
    (fun item _ s arg t ready done => by
      obtain ⟨type, u, typed, same⟩ := bind_eq_ok.mp done
      cases same
      obtain ⟨covers, _⟩ := accountant item scope s type t ready typed
      exact ⟨covers.congr fun _ _ => replaces_getD, trivial⟩) ready mapped
  have tuple : ∀ further brand base, ReplacesIn document known node
      (some { head := { kind := .tuple }, args, rest := further }) brand base ↔
      (∃ pair ∈ lead.zip args, Replaces document known pair.1 pair.2 brand base) ∨
      ∃ item inner, rest = .each item ∧ further = some inner ∧
        Replaces document known item inner brand base := by
    intro further brand base
    rw [replacesIn_some, replaces_iff, shape]
  cases rest with
  | nothing | anything =>
    cases done
    exact ⟨leading.congr (by simp [tuple]), rfl⟩
  | each item =>
    obtain ⟨value, v, valued, same⟩ := bind_eq_ok.mp done
    cases same
    obtain ⟨covers, _⟩ := accountant item scope u value t (leading.underway ready) valued
    exact ⟨(leading.trans covers).congr (by simp [tuple, replaces_getD]), rfl⟩

theorem listExpr_eq_ok {item : TypeExpr} {minItems maxItems : Option Json} {type : Option TypeExpr}
    (done : listExpr item minItems maxItems s = .ok type t) :
    t = s ∧ ∃ head, type = some { head, args := [item] } := by
  unfold listExpr at done
  cases minItems with
  | none =>
    cases done
    exact ⟨rfl, _, rfl⟩
  | some bound =>
    obtain ⟨nonEmpty, u, lifted, same⟩ := bind_eq_ok.mp done
    obtain ⟨_, rfl⟩ := lift_eq_ok.mp lifted
    cases same
    exact ⟨rfl, _, rfl⟩

/-- A reference that an `allOf` wraps alone has no properties of its own. -/
theorem wrapped_covers {member : Node} {type : Option TypeExpr}
    (accountant : Accountant document known expr) (ready : Underway document known s.store)
    (wraps : node.singleRef? = some member) (done : expr member scope s = .ok type t) :
    Covers document known s.store t.store (ReplacesIn document known node type) ∧
      Kept (Lost document known node) (Plain node) type := by
  obtain ⟨shape, pointer, refers⟩ := singleRef?_eq_some.mp wraps
  obtain ⟨covers, kept⟩ := accountant member scope s type t ready done
  have lost : Lost document known node ↔ Lost document known member := by
    rw [lost_iff, shape]
    simp [wraps]
  refine ⟨covers.congr fun brand base => exists_congr fun read => and_congr_right fun _ => ?_, ?_⟩
  · have wrapped : ¬ Replaces document known node read brand base := by
      rw [replaces_iff, shape]
      simp [wraps]
    have inner : ¬ Replaces document known member read brand base := by
      rw [replaces_iff, refers]
      simp
    exact iff_of_false wrapped inner
  · rw [lost]
    exact kept.imp fun _ _ p => by simp [shape]

/-- Any other `allOf` is read as what it merges to. -/
theorem flattened_covers {result : Node} {type : Option TypeExpr}
    (accountant : Accountant document known expr) (ready : Underway document known s.store)
    (merging : node.merges = true) (merges : MergesTo document node result)
    (done : expr result scope s = .ok type t) :
    Covers document known s.store t.store (ReplacesIn document known node type) ∧
      Kept (Lost document known node) (Plain node) type := by
  obtain ⟨members, shape, wraps⟩ := merges_iff.mp merging
  obtain ⟨covers, kept⟩ := accountant result scope s type t ready done
  have unique : ∀ {P : Node → Prop}, (∃ other, MergesTo document node other ∧ P other) ↔ P result :=
    ⟨fun ⟨_, other, holds⟩ => merges.unique other ▸ holds, fun holds => ⟨result, merges, holds⟩⟩
  have lost : Lost document known node ↔ Lost document known result := by
    rw [lost_iff, shape]
    simp only [wraps]
    exact unique
  refine ⟨covers.congr fun brand base => exists_congr fun read => and_congr_right fun _ => ?_, ?_⟩
  · rw [replaces_iff, shape]
    simp only [wraps, true_and]
    exact unique
  · rw [lost]
    exact kept.imp fun _ _ p => by simp [shape]

theorem shapeExpr_covers {type : Option TypeExpr} (accountant : Accountant env.document known expr)
    (grower : Grower expr) (ready : Underway env.document known s.store)
    (done : shapeExpr env expr node scope s = .ok type t) :
    Covers env.document known s.store t.store (ReplacesIn env.document known node type) ∧
      Kept (Lost env.document known node) (Plain node) type := by
  unfold shapeExpr at done
  -- most shapes are never lost, and theirs is no primitive
  have leading : ∀ {type}, Covers env.document known s.store t.store
        (ReplacesIn env.document known node type) ∧ type.isSome = true →
      ¬ Lost env.document known node → (∀ p, node.shape ≠ .primitive p) →
      Covers env.document known s.store t.store (ReplacesIn env.document known node type) ∧
        Kept (Lost env.document known node) (Plain node) type := by
    rintro type ⟨covers, isSome⟩ leads other
    obtain ⟨result, rfl⟩ := Option.isSome_iff_exists.mp isSome
    exact ⟨covers, leads, fun p shape => absurd shape (other p)⟩
  cases shape : node.shape with
  | ref pointer =>
    simp only [shape] at done
    obtain ⟨name, u, named, same⟩ := bind_eq_ok.mp done
    cases same
    obtain ⟨covers, kept⟩ := refName_covers accountant grower ready named
    have lost : Lost env.document known node ↔ Absent env.document known pointer := by
      rw [lost_iff, shape]
    refine ⟨covers.congr (by simp [ReplacesIn, replaces_iff, shape]), ?_⟩
    cases name with
    | none => exact lost.mpr kept
    | some name => exact ⟨fun gone => kept.1 (lost.mp gone), fun p => by simp [shape]⟩
  | allOf members =>
    simp only [shape] at done
    cases wraps : node.singleRef? with
    | some member =>
      simp only [wraps] at done
      exact wrapped_covers accountant ready wraps done
    | none =>
      simp only [wraps] at done
      obtain ⟨result, u, lifted, read⟩ := bind_eq_ok.mp done
      obtain ⟨flat, rfl⟩ := lift_eq_ok.mp lifted
      have merging := merges_iff.mpr ⟨members, shape, wraps⟩
      rw [← merged_of_merges merging] at flat
      exact flattened_covers accountant ready merging (mergesTo_of_merged flat) read
  | anyOf members =>
    simp only [shape] at done
    exact unionExpr_covers accountant ready shape done
  | object object =>
    simp only [shape] at done
    have leads : ¬ Lost env.document known node := by simp [lost_iff, shape]
    split at done
    · obtain ⟨fields, u, built, same⟩ := bind_eq_ok.mp done
      cases same
      have covers := fieldsOf_covers accountant grower ready built
      have own := covers.congr fun _ _ => replacesIn_some.trans (replaces_struct shape)
      exact leading ⟨own, rfl⟩ leads (by simp [shape])
    · exact leading (recordExpr_covers accountant ready shape done) leads (by simp [shape])
  | array items minItems maxItems =>
    simp only [shape] at done
    obtain ⟨item, u, read, done⟩ := bind_eq_ok.mp done
    obtain ⟨covers, kept⟩ := itemsExpr_covers accountant ready read
    have lost : Lost env.document known node ↔
        ∃ item, items = .each item ∧ Lost env.document known item := by
      rw [lost_iff, shape]
      cases items <;> simp
    cases item with
    | none =>
      cases done
      exact ⟨covers.congr (by simp [ReplacesIn]), lost.mpr kept⟩
    | some item =>
      obtain ⟨rfl, head, rfl⟩ := listExpr_eq_ok done
      refine leading ⟨covers.congr fun brand base => ?_, rfl⟩ (fun gone => kept.1 (lost.mp gone))
        (by simp [shape])
      rw [replacesIn_some, replaces_iff, shape]
      cases items <;> simp [replacesIn_some]
  | tuple lead rest =>
    simp only [shape] at done
    exact leading (tupleExpr_covers accountant ready shape done) (by simp [lost_iff, shape])
      (by simp [shape])
  | primitive p =>
    simp only [shape] at done
    cases done
    refine ⟨.refl ready (by simp [ReplacesIn, replaces_iff, shape]), by simp [lost_iff, shape], ?_⟩
    intro _ _
    unfold primitiveExpr
    split <;> simp [TypeExpr.kind, TypeExpr.ofKind]
  | _ =>
    simp only [shape] at done
    cases done
    refine leading ⟨.refl ready ?_, rfl⟩ (by simp [lost_iff, shape]) (by simp [shape])
    simp [replacesIn_some, replaces_iff, shape]

theorem expr_accountant (env : Env) (known : List (String × String)) (fuel : Nat) :
    Accountant env.document known (Builder.expr env fuel) := by
  induction fuel with
  | zero =>
    intro _ _ _ _ _ _ done
    cases done
  | succ fuel ih =>
    intro node scope s type t ready done
    obtain ⟨plain, u, shaped, same⟩ := bind_eq_ok.mp done
    obtain ⟨covers, kept⟩ := shapeExpr_covers ih (expr_grower env fuel) ready shaped
    cases same
    split
    · cases plain with
      | none => exact ⟨covers, kept⟩
      | some type =>
        exact ⟨covers.congr fun _ _ => by simp [replacesIn_some, replaces_orNull], kept⟩
    · exact ⟨covers, kept⟩

/-- A reference has no properties of its own, also where an `allOf` wraps it. -/
theorem not_declarationReplaces_of_asRef? {store : Store} {name : String} {pointer : Json}
    (refers : asRef? node = some pointer) :
    ¬ DeclarationReplaces document known store name node brand base := by
  rintro ⟨result, d, type, merges, _, _, replaces⟩
  unfold asRef? at refers
  cases wraps : node.singleRef? with
  | none =>
    simp only [wraps, Option.getD_none] at refers
    split at refers
    · rename_i shape
      have plain : ¬ node.merges = true := by simp [merges_iff, shape]
      rw [MergesTo, if_neg plain] at merges
      subst merges
      rw [replaces_iff, shape] at replaces
      exact replaces
    · cases refers
  | some member =>
    have plain : ¬ node.merges = true := by simp [merges_iff, wraps]
    rw [MergesTo, if_neg plain] at merges
    subst merges
    rw [replaces_iff, (singleRef?_eq_some.mp wraps).1] at replaces
    simp [wraps] at replaces

theorem reserve_covers (ready : Underway document known s.store) (name : String) :
    Covers document known s.store (s.store.reserve (s.store.uniqueName name)) fun _ _ => False := by
  have fresh := uniqueName_fresh s.store name
  have grows := reserve_grows ready.sound fresh (uniqueName_ne_empty _ _)
  refine .of_refNames_eq grows rfl (by simp) ?_
  intro brand d found kind unknown
  unfold reserve at found
  rw [find?_register fresh] at found
  split at found
  · cases found
    cases kind
  · exact absurd (find?_isSome.mp (Option.isSome_of_eq_some found)) unknown

theorem filled_covers {name : String} {preferStruct : Bool}
    (ready : Underway env.document known s.store)
    (done : fill env (Builder.expr env env.fuel) (s.store.uniqueName name) node preferStruct
      { s with store := s.store.reserve (s.store.uniqueName name) } = .ok () t) :
    Covers env.document known s.store t.store
      (DeclarationReplaces env.document known t.store (s.store.uniqueName name) node) := by
  have grower := expr_grower env env.fuel
  have fresh := uniqueName_fresh s.store name
  have covers := reserve_covers ready name
  have grows := ((fill_grows grower covers.grows fresh (builds_reserve fresh)).of_ok done).1
  obtain ⟨⟨d, found, kind⟩, resolves, branded, origins⟩ := fill_accounts
    (expr_accountant env known env.fuel) grower covers.grows fresh (builds_reserve fresh)
    (covers.underway ready) done
  refine ⟨grows, resolves, branded, fun brand e declared isBrand unknown => ?_⟩
  exact origins brand e declared isBrand (not_mem_reserve fresh found kind declared isBrand unknown)

/-- What is no plain reference is declared under a name of its own. -/
theorem add_of_own {name : String} {preferStruct : Bool}
    (own : asRef? node = none ∨ node.nullable = true) : add env name node preferStruct = (do
      let declared := (← Build.store).uniqueName name
      Build.modifyStore (·.reserve declared)
      fill env (Builder.expr env env.fuel) declared node preferStruct
      return declared) := by
  unfold add
  rcases own with inline | null
  · simp only [inline]
  · cases refers : asRef? node <;> simp only [null]

theorem fill_of_add {name declared : String} {preferStruct : Bool}
    (own : asRef? node = none ∨ node.nullable = true)
    (done : add env name node preferStruct s = .ok declared t) :
    declared = s.store.uniqueName name ∧
      fill env (Builder.expr env env.fuel) (s.store.uniqueName name) node preferStruct
        { s with store := s.store.reserve (s.store.uniqueName name) } = .ok () t := by
  rw [add_of_own own] at done
  obtain ⟨_, _, read, rest⟩ := bind_eq_ok.mp done
  cases read
  obtain ⟨_, _, modified, rest⟩ := bind_eq_ok.mp rest
  cases modified
  obtain ⟨_, u, filled, returned⟩ := bind_eq_ok.mp rest
  cases returned
  exact ⟨rfl, filled⟩

/-- Adding a node accounts for the properties of its declaration. -/
theorem add_covers {name declared : String} {preferStruct : Bool}
    (ready : Underway env.document known s.store)
    (done : add env name node preferStruct s = .ok declared t) :
    Covers env.document known s.store t.store
      (DeclarationReplaces env.document known t.store declared node) := by
  by_cases own : asRef? node = none ∨ node.nullable = true
  · obtain ⟨rfl, filled⟩ := fill_of_add own done
    exact filled_covers ready filled
  · obtain ⟨refers, null⟩ := not_or.mp own
    obtain ⟨pointer, refers⟩ := Option.ne_none_iff_exists'.mp refers
    unfold add at done
    simp only [refers, Bool.eq_false_of_not_eq_true null] at done
    obtain ⟨target, u, named, rest⟩ := bind_eq_ok.mp done
    obtain ⟨covers, _⟩ := refName_covers (expr_accountant env known env.fuel)
      (expr_grower env env.fuel) ready named
    have untouched : ∀ brand base,
        ¬ DeclarationReplaces env.document known t.store declared node brand base :=
      fun _ _ => not_declarationReplaces_of_asRef? refers
    cases target with
    | some target =>
      cases rest
      exact covers.congr (by simp [untouched])
    | none =>
      have reserved := covers.trans (reserve_covers (covers.underway ready) name)
      cases rest
      exact reserved.congr (by simp [untouched])

theorem addSchema_covers {brandIds preferStruct : Bool} {name declared : String} {fragment : Json}
    (ready : Underway document known s.store)
    (done : addSchema brandIds name fragment document preferStruct s = .ok declared t) :
    Covers document known s.store t.store fun brand base =>
      ∃ node, normalize fragment ("#/" ++ name) = .ok node ∧
        DeclarationReplaces document known t.store declared node brand base := by
  obtain ⟨node, u, lifted, added⟩ := bind_eq_ok.mp done
  obtain ⟨normal, rfl⟩ := lift_eq_ok.mp lifted
  have covers := add_covers (by exact ready) added
  exact covers.congr (by simp [normal])

end TypedClient.Builder
