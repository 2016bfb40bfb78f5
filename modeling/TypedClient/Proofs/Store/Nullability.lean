import TypedClient.Proofs.Builder.Brands
import TypedClient.Proofs.Builder.Mirroring
import TypedClient.Proofs.Builder.Places
import TypedClient.Proofs.Schema.Reading
import TypedClient.Proofs.Store.History

/-! Null at the root of a declaration. A schema that may be null at a property may be null where it
is declared under a name of its own. The one exception is an `allOf` around a nullable reference
alone: the reference is declared in its place, and the null is lost. -/
namespace TypedClient

/-- An `allOf` that wraps one reference alone and leaves it to the reference that it may be null. -/
def Schema.Node.hidesNull (node : Node) : Bool :=
  !node.nullable && node.singleRef?.any (·.nullable)

/-- The flag of an `allOf` is laid over what its members lead to. -/
theorem Schema.nullable_flattenAllOf {lookup : Json → Except Fault (Option Node)} {fuel : Nat}
    {node result : Node} (done : flattenAllOf lookup fuel node = .ok result)
    (own : node.nullable = true) : result.nullable = true := by
  unfold flattenAllOf at done
  split at done
  · obtain ⟨inner, _, same⟩ := except_bind_eq_ok.mp done
    cases same
    change (node.nullable || inner.nullable) = true
    rw [own, Bool.true_or]
  · cases done

namespace Builder

open Schema Build Store

def propertyExpr (brandIds : Bool) (fragment document : Json) (path scope : String) :
    Build (Option TypeExpr) := do
  let node ← Build.lift (normalize fragment path)
  let env : Env := ⟨document, brandIds, exprBound node document⟩
  expr env env.fuel node scope

/-- It does not matter where the schema was found. -/
theorem propertyExpr_path (brandIds : Bool) (fragment document : Json) (path path' scope : String) :
    propertyExpr brandIds fragment document path scope =
      propertyExpr brandIds fragment document path' scope := by
  refine lift_congr ((unplaced_normalize fragment path).trans (unplaced_normalize fragment path').symm)
    fun node => ?_
  rw [exprBound, exprBound, Node.length_subnodes_unplaced]
  exact expr_blind _ node scope

variable {env : Env} {node : Node} {scope name : String} {s t : Session} {type : TypeExpr}

/-- Null has two sources: the node's own flag and the expression of its shape. -/
theorem exists_of_expr {fuel : Nat} (built : expr env fuel node scope s = .ok (some type) t) :
    ∃ depth inner, fuel = depth + 1 ∧
      shapeExpr env (expr env depth) node scope s = .ok (some inner) t ∧
      type.nullable = (node.nullable || inner.nullable) := by
  cases fuel with
  | zero => cases built
  | succ depth =>
    obtain ⟨shaped, u, done, same⟩ := bind_eq_ok.mp built
    obtain ⟨value, rfl⟩ := EStateM.Result.ok.inj same
    cases shaped with
    | none => simp at value
    | some inner =>
      refine ⟨depth, inner, rfl, done, ?_⟩
      cases null : node.nullable with
      | false => simp_all
      | true =>
        obtain rfl : inner.orNull = type := by simpa [null] using value
        rfl

/-- What a declaration is built from may be null if the node may be. -/
theorem expr_merged {fuel : Nat} (built : expr env fuel node scope s = .ok (some type) t)
    (null : type.nullable = true) : ∃ result depth type' t', merged env node = .ok result ∧
      depth ≤ fuel ∧ expr env depth result scope s = .ok (some type') t' ∧ type'.nullable = true := by
  cases merging : node.merges with
  | false => exact ⟨node, fuel, type, t, merged_of_plain merging, Nat.le_refl _, built, null⟩
  | true =>
    obtain ⟨depth, inner, rfl, shaped, flag⟩ := exists_of_expr built
    have parts := merging
    rw [Node.merges, Bool.and_eq_true, isAllOf_eq_true] at parts
    obtain ⟨⟨members, shape⟩, alone⟩ := parts
    unfold shapeExpr at shaped
    rw [shape, Option.isNone_iff_eq_none.mp alone] at shaped
    obtain ⟨result, u, flat, typed⟩ := bind_eq_ok.mp shaped
    obtain ⟨merges, rfl⟩ := lift_eq_ok.mp flat
    refine ⟨result, depth, inner, t, (merged_of_merges merging).trans merges, depth.le_succ, typed, ?_⟩
    obtain ⟨_, _, _, _, innerFlag⟩ := exists_of_expr typed
    rw [flag, Bool.or_eq_true] at null
    rcases null with own | null
    · rw [innerFlag, nullable_flattenAllOf merges own, Bool.true_or]
    · exact null

/-- An object that gets fields of its own is not null. -/
theorem nullable_of_struct {fuel : Nat} {object : Fields Node} (struct : node.struct? = some object)
    (built : expr env fuel node scope s = .ok (some type) t) : type.nullable = false := by
  obtain ⟨shape, plain, explicit⟩ := Node.struct?_eq_some.mp struct
  obtain ⟨depth, inner, rfl, shaped, flag⟩ := exists_of_expr built
  unfold shapeExpr at shaped
  simp only [shape, explicit, if_true] at shaped
  obtain ⟨_, _, _, same⟩ := bind_eq_ok.mp shaped
  cases same
  rw [flag, plain]
  rfl

/-- A reserved declaration is filled with an expression that may be null. No reference leads to it
meanwhile. -/
theorem fillFrom_nullable {fuel depth : Nat} {base : Store} {u : Session} (preferStruct : Bool)
    (built : expr env depth node scope s = .ok (some type) t) (null : type.nullable = true)
    (le : depth ≤ fuel) (same : s.store.knownRefs = u.store.knownRefs)
    (grows : Grows base u.store) (outside : name ∉ base.names) (reserved : u.store.Builds name)
    (unused : name ∉ u.store.refNames.map (·.2)) :
    ∃ v d type', fillFrom env (expr env fuel) name node preferStruct u = .ok () v ∧
      v.store.find? name = some d ∧ d.type = some type' ∧ type'.nullable = true ∧
      name ∉ v.store.refNames.map (·.2) := by
  cases struct : node.struct? with
  | some object =>
    rw [nullable_of_struct struct built] at null
    cases null
  | none =>
    have plain : DeclarationKind.schema ≠ .brand ∧ DeclarationKind.schema ≠ .taggedError := by simp
    let description := node.notes.description.bind Text.nonBlank?
    let described := u.store.update name fun d => { d with description }
    let started : Session :=
      { u with store := described.update name fun d => { d with kind := .schema } }
    obtain ⟨sound, names, d, declared, _⟩ : started.store.Sound ∧ _ :=
      find?_started description grows outside reserved plain
    obtain ⟨_, w, typed, _, alike⟩ := expr_mimics env le node scope name s started same _ _ built
    cases alike with
    | @some _ type' alike =>
      have grown := (expr_grower env fuel node name started sound).of_ok typed |>.1
      refine ⟨{ w with store := w.store.update name fun d => { d with type := some type' } },
        { d with type := some type' }, type', ?_, ?_, rfl, alike.symm.trans null, ?_⟩
      · rw [fillFrom_of_other struct]
        refine bind_eq_ok.mpr ⟨(), _, rfl, bind_eq_ok.mpr ⟨(), started, rfl, ?_⟩⟩
        exact bind_eq_ok.mpr ⟨_, w, typed, rfl⟩
      · simp [find?_update, grown.find? declared, (mem_of_find? declared).2]
      · obtain ⟨added, refNames, unknown⟩ := grown.referred
        have own : name ∈ started.store.names := by
          rw [names]
          obtain ⟨d, found, _⟩ := reserved
          exact find?_isSome.mp (by simp [found])
        rw [refNames_update, refNames, List.map_append, List.mem_append, not_or]
        refine ⟨unused, fun listed => ?_⟩
        obtain ⟨entry, member, rfl⟩ := List.mem_map.mp listed
        exact unknown entry member own

/-- The declaration of a reference is listed under the reference's text. -/
theorem mem_refNames_of_refName {pointer : Json} {fuel : Nat} {target : String}
    (sound : s.store.Sound) (done : refName env (expr env fuel) pointer s = .ok (some target) t) :
    ∃ p, pointer = .str p ∧ (p, target) ∈ t.store.refNames ∧ (p ∈ s.store.knownRefs → t = s) := by
  obtain ⟨key, u, lifted, rest⟩ := bind_eq_ok.mp done
  obtain ⟨keyed, rfl⟩ := lift_eq_ok.mp lifted
  obtain ⟨_, _, read, rest⟩ := bind_eq_ok.mp rest
  cases read
  cases known : known? u.store key with
  | some name =>
    rw [known] at rest
    cases rest
    cases key with
    | text p => exact ⟨p, eq_str_of_toKey keyed, mem_of_lookup known, fun _ => rfl⟩
    | _ => cases known
  | none =>
    rw [known] at rest
    obtain ⟨found, _, lifted, rest⟩ := bind_eq_ok.mp rest
    obtain ⟨resolved, rfl⟩ := lift_eq_ok.mp lifted
    cases found with
    | none => cases rest
    | some found =>
      obtain ⟨name, v, declared, same⟩ := bind_eq_ok.mp rest
      cases same
      obtain rfl := resolve_pointer resolved
      cases keyed
      have absent := lookup_eq_none known
      have listed := (declareTarget_grows (expr_grower env fuel) sound absent).of_ok declared |>.2
      exact ⟨_, rfl, listed, fun known => absurd known absent⟩

/-- A reference may be null by its flag only. -/
theorem exists_of_ref {fuel : Nat} {pointer : Json} (shape : node.shape = .ref pointer)
    (built : expr env fuel node scope s = .ok (some type) t) :
    type.nullable = node.nullable ∧ ∃ depth target, depth ≤ fuel ∧
      refName env (expr env depth) pointer s = .ok (some target) t := by
  obtain ⟨depth, inner, rfl, shaped, flag⟩ := exists_of_expr built
  unfold shapeExpr at shaped
  simp only [shape] at shaped
  obtain ⟨target, u, named, same⟩ := bind_eq_ok.mp shaped
  cases target with
  | none => cases same
  | some target =>
    cases same
    exact ⟨by simpa [TypeExpr.ref, TypeExpr.nullable] using flag, depth, target, depth.le_succ, named⟩

/-- An `allOf` around one reference may be null by its own flag or by that of the reference. -/
theorem exists_of_wrapped {fuel : Nat} {part : Node} (wraps : node.singleRef? = some part)
    (built : expr env fuel node scope s = .ok (some type) t) :
    type.nullable = (node.nullable || part.nullable) ∧ ∃ depth pointer target, depth ≤ fuel ∧
      part.shape = .ref pointer ∧ refName env (expr env depth) pointer s = .ok (some target) t := by
  obtain ⟨shape, pointer, refers⟩ := Node.singleRef?_eq_some.mp wraps
  obtain ⟨depth, inner, rfl, shaped, flag⟩ := exists_of_expr built
  unfold shapeExpr at shaped
  simp only [shape, wraps] at shaped
  obtain ⟨own, deeper, target, le, named⟩ := exists_of_ref refers shaped
  exact ⟨own ▸ flag, deeper, pointer, target, le.trans depth.le_succ, refers, named⟩

/-- Where an `allOf` hides that its reference may be null, the reference is declared in its place. -/
theorem add_hidden {fuel : Nat} {preferStruct : Bool} (sound : s.store.Sound)
    (built : expr env fuel node scope s = .ok (some type) t) (le : fuel ≤ env.fuel)
    (hides : node.hidesNull = true) :
    ∃ target u part p, add env name node preferStruct s = .ok target u ∧ node.singleRef? = some part ∧
      part.shape = .ref (.str p) ∧ (p, target) ∈ u.store.refNames ∧
      (p ∈ s.store.knownRefs → u = s) := by
  simp only [Node.hidesNull, Bool.and_eq_true, Bool.not_eq_true', Option.any_eq_true] at hides
  obtain ⟨plain, part, wraps, _⟩ := hides
  obtain ⟨_, depth, pointer, _, within, refers, named⟩ := exists_of_wrapped wraps built
  obtain ⟨_, u, mirrored, _, known⟩ :=
    refName_mirrors (expr_mimics env (within.trans le)) pointer s s rfl _ _ named
  cases known with
  | @some _ target _ =>
    obtain ⟨p, rfl, listed, unchanged⟩ := mem_refNames_of_refName sound mirrored
    refine ⟨target, u, part, p, ?_, wraps, refers, listed, unchanged⟩
    have asRef : asRef? node = some (.str p) := by simp [asRef?, wraps, refers]
    unfold add
    simp only [asRef, plain]
    exact bind_eq_ok.mpr ⟨some target, u, mirrored, rfl⟩

/-- A node that may be null and does not hide it is no plain reference. -/
theorem own_of_nullable {fuel : Nat} (built : expr env fuel node scope s = .ok (some type) t)
    (null : type.nullable = true) (shows : node.hidesNull = false) :
    asRef? node = none ∨ node.nullable = true := by
  cases own : node.nullable with
  | true => exact .inr rfl
  | false =>
    left
    cases wraps : node.singleRef? with
    | some part =>
      have flag := (exists_of_wrapped wraps built).1
      simp_all [Node.hidesNull]
    | none =>
      cases refers : asRef? node with
      | none => rfl
      | some pointer =>
        have shape : node.shape = .ref pointer := by
          unfold asRef? at refers
          split at refers
          · rename_i shape
            cases refers
            rwa [wraps] at shape
          · cases refers
        rw [(exists_of_ref shape built).1, own] at null
        cases null

/-- Any other node that may be null at a property is declared under a name of its own, and the
declaration may be null. -/
theorem add_nullable {fuel : Nat} {preferStruct : Bool} (sound : s.store.Sound)
    (built : expr env fuel node scope s = .ok (some type) t) (le : fuel ≤ env.fuel)
    (null : type.nullable = true) (shows : node.hidesNull = false) :
    ∃ u d type', add env name node preferStruct s = .ok (s.store.uniqueName name) u ∧
      u.store.find? (s.store.uniqueName name) = some d ∧ d.type = some type' ∧
      type'.nullable = true ∧ s.store.uniqueName name ∉ u.store.refNames.map (·.2) := by
  obtain ⟨result, depth, _, _, merges, within, again, null'⟩ := expr_merged built null
  have fresh := uniqueName_fresh s.store name
  let reserved : Session := { s with store := s.store.reserve (s.store.uniqueName name) }
  let noted : Session := { reserved with fills := s.fills ++ [s.store.uniqueName name] }
  obtain ⟨u, d, type', filled, found⟩ := fillFrom_nullable (u := noted) preferStruct again null'
    (within.trans le) rfl (reserve_grows sound fresh (uniqueName_ne_empty _ _)) fresh
    (builds_reserve fresh) (sound.not_target_of_fresh fresh)
  refine ⟨u, d, type', ?_, found⟩
  rw [add_of_own (own_of_nullable built null shows)]
  refine bind_eq_ok.mpr ⟨s.store, s, rfl, bind_eq_ok.mpr ⟨(), reserved, rfl, ?_⟩⟩
  exact bind_eq_ok.mpr ⟨(), u, fill_eq_ok.mpr ⟨result, merges, filled⟩, rfl⟩

end Builder

namespace History

open Schema Builder

/-- Schemas that may be null at a property, after every history. Declared under a name, such a
schema gets a new declaration, which may be null and is no target of a reference. Only an `allOf`
that hides the null of its reference gives the declaration of the reference in its place; if the
reference was known, nothing is declared at all. -/
theorem run_add_nullable (brandIds : Bool) (calls : List Call) (name path scope : String)
    (fragment document : Json) (preferStruct : Bool) (type : TypeExpr) (t : Session)
    (built : propertyExpr brandIds fragment document path scope (run brandIds calls).session =
      .ok (some type) t) (null : type.nullable = true) :
    let s := (run brandIds calls).session
    ∃ node declared u, normalize fragment ("#/" ++ name) = .ok node ∧
      addSchema brandIds name fragment document preferStruct s = .ok declared u ∧
      (node.hidesNull = false → declared = s.store.uniqueName name ∧ declared ∉ s.store.names ∧
        declared ∉ u.store.refNames.map (·.2) ∧
        ∃ d type', u.store.find? declared = some d ∧ d.type = some type' ∧ type'.nullable = true) ∧
      (node.hidesNull = true → ∃ part p, node.singleRef? = some part ∧ part.shape = .ref (.str p) ∧
        (p, declared) ∈ u.store.refNames ∧ (p ∈ s.store.knownRefs → u = s)) := by
  have sound := (run_sound brandIds calls).store
  rw [propertyExpr_path brandIds fragment document path ("#/" ++ name)] at built
  obtain ⟨node, _, lifted, typed⟩ := Build.bind_eq_ok.mp built
  obtain ⟨read, rfl⟩ := Build.lift_eq_ok.mp lifted
  cases hides : node.hidesNull with
  | false =>
    obtain ⟨u, d, type', added, found, filled, null', unused⟩ :=
      add_nullable sound typed (Nat.le_refl _) null hides
    refine ⟨node, _, u, read, Build.bind_eq_ok.mpr ⟨node, _, lifted, added⟩, fun _ => ?_, by simp [hides]⟩
    exact ⟨rfl, Store.uniqueName_fresh _ _, unused, d, type', found, filled, null'⟩
  | true =>
    obtain ⟨target, u, part, p, added, reference⟩ := add_hidden sound typed (Nat.le_refl _) hides
    exact ⟨node, target, u, read, Build.bind_eq_ok.mpr ⟨node, _, lifted, added⟩, by simp [hides],
      fun _ => ⟨part, p, reference⟩⟩

def petDocument : Json :=
  .ofMembers [("$defs", .ofMembers [("Pet", .ofMembers [("type", "object"), ("properties",
    .ofMembers [("name", .ofMembers [("type", "string")])])])])]

def petOwner : List Call :=
  [.add "Owner" (.ofMembers [("type", "object"), ("properties",
    .ofMembers [("pet", .ofMembers [("$ref", "#/$defs/Pet")])])]) petDocument false]

def petOrNull : Json :=
  .ofMembers [("anyOf", .arr [.ofMembers [("$ref", "#/$defs/Pet")], .ofMembers [("type", "null")]])]

theorem run_add_nullable_petOrNull :
    let s := (run false petOwner).session
    ∃ type t, propertyExpr false petOrNull petDocument "#/Owner/pet" "OwnerPet" s = .ok (some type) t ∧
      type.nullable = true ∧ ∃ u d type', addSchema false "Patient" petOrNull petDocument false s =
        .ok "Patient" u ∧ u.store.find? "Patient" = some d ∧ d.type = some type' ∧
        type'.nullable = true := by
  intro s
  have typed : Build.succeeds (propertyExpr false petOrNull petDocument "#/Owner/pet" "OwnerPet") s
      (fun type _ => type.any (·.nullable)) = true := by
    decide +kernel
  have shows : (normalize petOrNull ("#/" ++ "Patient")).toOption.map (·.hidesNull) = some false := by
    decide +kernel
  have free : s.store.uniqueName "Patient" = "Patient" := by
    decide +kernel
  obtain ⟨shown, t, built, flag⟩ := Build.exists_of_succeeds typed
  obtain ⟨type, rfl, null⟩ := (Option.any_eq_true _ _).mp flag
  obtain ⟨node, declared, u, read, added, own, _⟩ := run_add_nullable false petOwner "Patient"
    "#/Owner/pet" "OwnerPet" petOrNull petDocument false type t built null
  rw [read] at shows
  obtain ⟨rfl, _, _, d, type', found, filled, null'⟩ := own (Option.some.inj shows)
  rw [free] at added found
  exact ⟨type, t, built, null, u, d, type', added, found, filled, null'⟩

def wrappedPetOrNull : Json :=
  .ofMembers [("allOf", .arr [.ofMembers [("$ref", "#/$defs/Pet"), ("nullable", .bool true)]])]

/-- The wrapped pet may be null at a property, but under a name of its own it is the pet, which may
not: no patient is declared. -/
theorem run_add_wrapped_drops_null :
    let s := (run false petOwner).session
    (∃ type t, propertyExpr false wrappedPetOrNull petDocument "#/Owner/pet" "OwnerPet" s =
      .ok (some type) t ∧ type.nullable = true) ∧
    ∃ u, addSchema false "Patient" wrappedPetOrNull petDocument false s = .ok "Pet" u ∧
      u.store.names = ["Owner", "Pet"] ∧
      ∃ d type, u.store.find? "Pet" = some d ∧ d.type = some type ∧ type.nullable = false := by
  intro s
  have typed : Build.succeeds
      (propertyExpr false wrappedPetOrNull petDocument "#/Owner/pet" "OwnerPet") s
      (fun type _ => type.any (·.nullable)) = true := by
    decide +kernel
  have dropped : Build.succeeds (addSchema false "Patient" wrappedPetOrNull petDocument false) s
      (fun declared u => declared = "Pet" && u.store.names = ["Owner", "Pet"] &&
        (u.store.find? "Pet").any fun d => d.type.any (!·.nullable)) = true := by
    decide +kernel
  obtain ⟨shown, t, built, flag⟩ := Build.exists_of_succeeds typed
  obtain ⟨type, rfl, null⟩ := (Option.any_eq_true _ _).mp flag
  obtain ⟨declared, u, added, result⟩ := Build.exists_of_succeeds dropped
  simp only [Bool.and_eq_true, decide_eq_true_eq, Option.any_eq_true, Bool.not_eq_true'] at result
  obtain ⟨⟨rfl, names⟩, d, found, plain, filled, flag⟩ := result
  exact ⟨⟨type, t, built, null⟩, u, added, names, d, plain, found, filled, flag⟩

end History

end TypedClient
