import TypedClient.Proofs.Builder.Unfolding

/-! What references are declared as. The name of a target is known before its body is built, so
while a schema is added some declarations are still reserved. Where it has been added, every
reference that it met first is declared from its own target. -/
namespace TypedClient

open Schema

/-- The fields of a node that becomes a struct: an object that names its properties and cannot be
null. -/
def Schema.Node.struct? (node : Node) : Option (Fields Node) :=
  match node.shape, node.nullable with
  | .object fields, false => if fields.explicit then some fields else none
  | _, _ => none

theorem Schema.Node.struct?_eq_some {node : Node} {object : Fields Node} :
    node.struct? = some object ↔
      node.shape = .object object ∧ node.nullable = false ∧ object.explicit = true := by
  unfold Node.struct?
  split
  · rename_i fields shape nullable
    rw [shape, nullable]
    cases explicit : fields.explicit <;> grind
  · rename_i other
    simp only [reduceCtorEq, false_iff]
    exact fun ⟨shape, nullable, _⟩ => other object shape nullable

namespace Builder

open Build Store Node

variable {document : Json} {names more : List (String × String)} {node : Node}

/-- The node that a declaration is built from. -/
def MergesTo (document : Json) (node result : Node) : Prop :=
  if node.merges then ∃ fuel, flattenAllOf (lookup document) fuel node = .ok result
  else result = node

theorem mergesTo_of_merged {env : Env} {result : Node} (done : merged env node = .ok result) :
    MergesTo env.document node result := by
  unfold MergesTo
  split
  · rename_i merging
    rw [merged_of_merges merging] at done
    exact ⟨_, done⟩
  · rename_i plain
    rw [merged_of_plain (Bool.eq_false_of_not_eq_true plain)] at done
    exact (Except.ok.inj done).symm

theorem MergesTo.unique {result other : Node} (merges : MergesTo document node result)
    (otherMerges : MergesTo document node other) : result = other := by
  unfold MergesTo at merges otherMerges
  split at merges
  · rename_i merging
    rw [if_pos merging] at otherMerges
    obtain ⟨fuel, done⟩ := merges
    obtain ⟨more, otherDone⟩ := otherMerges
    exact flattenAllOf_unique done otherDone
  · rename_i plain
    rw [if_neg plain] at otherMerges
    rw [merges, otherMerges]

section Resolution

inductive Unresolvable (document : Json) : Node → Prop
  | ref {node : Node} {pointer : Json} (shape : node.shape = .ref pointer)
      (lost : Pointer.resolve pointer document = .ok none) : Unresolvable document node
  | wrapped {node member : Node} (wraps : node.singleRef? = some member)
      (lost : Unresolvable document member) : Unresolvable document node
  | merged {node result : Node} {fuel : Nat} (merging : node.merges = true)
      (done : flattenAllOf (lookup document) fuel node = .ok result)
      (lost : Unresolvable document result) : Unresolvable document node
  | union {node : Node} {members : List Node} (shape : node.shape = .anyOf members)
      (lost : ∀ member ∈ members, Unresolvable document member) : Unresolvable document node
  | items {node item : Node} {minItems maxItems : Option Json}
      (shape : node.shape = .array (.each item) minItems maxItems)
      (lost : Unresolvable document item) : Unresolvable document node

open Classical in
noncomputable def resolvable (document : Json) (node : Node) : Bool :=
  !decide (Unresolvable document node)

@[simp] theorem resolvable_eq_true : resolvable document node = true ↔ ¬ Unresolvable document node := by
  simp [resolvable]

@[simp] theorem resolvable_eq_false : resolvable document node = false ↔ Unresolvable document node := by
  simp [resolvable]

theorem unresolvable_iff : Unresolvable document node ↔
    match node.shape with
    | .ref pointer => Pointer.resolve pointer document = .ok none
    | .allOf _ =>
      match node.singleRef? with
      | some member => Unresolvable document member
      | none => ∃ fuel result, flattenAllOf (lookup document) fuel node = .ok result ∧
        Unresolvable document result
    | .anyOf members => ∀ member ∈ members, Unresolvable document member
    | .array (.each item) _ _ => Unresolvable document item
    | _ => False := by
  constructor
  · intro lost
    cases lost with
    | ref shape lost => simpa [shape] using lost
    | wrapped wraps lost => simpa [(singleRef?_eq_some.mp wraps).1, wraps] using lost
    | merged merging done lost =>
      obtain ⟨isAllOf, wraps⟩ := Bool.and_eq_true_iff.mp merging
      obtain ⟨members, shape⟩ := isAllOf_eq_true.mp isAllOf
      simp only [shape, Option.isNone_iff_eq_none.mp wraps]
      exact ⟨_, _, done, lost⟩
    | union shape lost => simpa [shape] using lost
    | items shape lost => simpa [shape] using lost
  · intro lost
    split at lost
    · exact .ref ‹_› lost
    · rename_i members shape
      split at lost
      · exact .wrapped ‹_› lost
      · rename_i wraps
        obtain ⟨fuel, result, done, lost⟩ := lost
        exact .merged (by simp [merges, isAllOf_eq_true.mpr ⟨members, shape⟩, wraps]) done lost
    · exact .union ‹_› lost
    · exact .items ‹_› lost
    · exact lost.elim

end Resolution

section Types

def kindOf? : Shape Node → Option TypeKind
  | .always accepts => some (if accepts then .json else .never)
  | .primitive p => some (primitiveExpr p).kind
  | .enum _ => some .literals
  | .const _ => some .literal
  | .object fields => some (if fields.explicit then .struct else .record)
  | .array _ _ _ => some .array
  | .tuple _ _ => some .tuple
  | .ref _ | .allOf _ | .anyOf _ => none

/-- The expression is one of the node, when references have these names: of the kind of its shape, or
the name of what it refers to, or that of the node that it stands for. -/
inductive Shows (document : Json) (names : List (String × String)) : Node → TypeExpr → Prop
  | own {node : Node} {type : TypeExpr} (kind : kindOf? node.shape = some type.kind) :
      Shows document names node type
  | ref {node : Node} {type : TypeExpr} {p name : String} (shape : node.shape = .ref (.str p))
      (known : (p, name) ∈ names) (same : type.orNull = (TypeExpr.ref name).orNull) :
      Shows document names node type
  | wrapped {node member : Node} {type : TypeExpr} (wraps : node.singleRef? = some member)
      (inner : Shows document names member type) : Shows document names node type
  | merged {node result : Node} {type : TypeExpr} {fuel : Nat} (merging : node.merges = true)
      (done : flattenAllOf (lookup document) fuel node = .ok result)
      (inner : Shows document names result type) : Shows document names node type
  | only {node member : Node} {type : TypeExpr} {members : List Node}
      (shape : node.shape = .anyOf members)
      (alone : members.filter (resolvable document) = [member])
      (inner : Shows document names member type) : Shows document names node type
  | union {node : Node} {type : TypeExpr} {members : List Node} (shape : node.shape = .anyOf members)
      (kind : type.kind = .union)
      (count : type.args.length = (members.filter (resolvable document)).length) :
      Shows document names node type

theorem Shows.mono {type : TypeExpr} (shows : Shows document names node type) (le : names ⊆ more) :
    Shows document more node type := by
  induction shows with
  | own kind => exact .own kind
  | ref shape known same => exact .ref shape (le known) same
  | wrapped wraps _ ih => exact .wrapped wraps ih
  | merged merging done _ ih => exact .merged merging done ih
  | only shape alone _ ih => exact .only shape alone ih
  | union shape kind count => exact .union shape kind count

theorem Shows.orNull {type : TypeExpr} (shows : Shows document names node type) :
    Shows document names node type.orNull := by
  induction shows with
  | own kind => exact .own kind
  | ref shape known same => exact .ref shape known same
  | wrapped wraps _ ih => exact .wrapped wraps ih
  | merged merging done _ ih => exact .merged merging done ih
  | only shape alone _ ih => exact .only shape alone ih
  | union shape kind count => exact .union shape kind count

/-- Nothing comes of what is lost, and something that holds of all else. -/
def Kept (lost : Prop) (holds : α → Prop) : Option α → Prop
  | none => lost
  | some a => ¬ lost ∧ holds a

theorem Kept.imp {lost : Prop} {holds holds' : α → Prop} {result : Option α}
    (kept : Kept lost holds result) (weaker : ∀ a, holds a → holds' a) : Kept lost holds' result := by
  cases result with
  | none => exact kept
  | some a => exact ⟨kept.1, weaker a kept.2⟩

/-- What remains of a list when each item is lost or gives a result. -/
theorem Kept.filterMap {lost : α → Prop} {keep : α → Bool} {holds : α → β → Prop} {items : List α}
    {results : List (Option β)} (decides : ∀ a, keep a = true ↔ ¬ lost a)
    (each : List.Forall₂ (fun a => Kept (lost a) (holds a)) items results) :
    List.Forall₂ holds (items.filter keep) (results.filterMap id) := by
  induction each with
  | nil => exact .nil
  | @cons a r items results first _ ih =>
    cases r with
    | none =>
      have drop : ¬ keep a = true := fun kept => (decides a).mp kept first
      rwa [List.filter_cons_of_neg drop, List.filterMap_cons_none (f := id) rfl]
    | some b =>
      rw [List.filter_cons_of_pos ((decides a).mpr first.1), List.filterMap_cons_some (f := id) rfl]
      exact .cons first.2 ih

/-- What is read of a node: nothing if it leads nowhere, else an expression of it. -/
def Reads (document : Json) (names : List (String × String)) (node : Node) :
    Option TypeExpr → Prop :=
  Kept (Unresolvable document node) (Shows document names node)

theorem Reads.mono {type : Option TypeExpr} (reads : Reads document names node type)
    (le : names ⊆ more) : Reads document more node type :=
  Kept.imp reads fun _ shows => shows.mono le

theorem Reads.orNull {type : Option TypeExpr} (reads : Reads document names node type) :
    Reads document names node (type.map TypeExpr.orNull) := by
  cases type with
  | none => exact reads
  | some type => exact ⟨reads.1, reads.2.orNull⟩

theorem reads_own {type : TypeExpr} (kind : kindOf? node.shape = some type.kind)
    (resolved : ¬ Unresolvable document node) : Reads document names node (some type) :=
  ⟨resolved, .own kind⟩

/-- An identifier-shaped property of a plain type may refer to a brand. -/
def Branded (key : String) (node : Node) (type : TypeExpr) : Prop :=
  ∃ p owner brand, node.shape = .primitive p ∧ BrandRegistry.brandFor? key owner = some brand ∧
    type.orNull = (TypeExpr.ref brand).orNull

structure Holds (document : Json) (names : List (String × String)) (required : List String)
    (property : Key × Node) (field : Field) : Prop where
  name : property.1 = .text field.name
  description : field.description = property.2.notes.description.bind Text.nonBlank?
  type : ∃ type, field.type = some type ∧
    (Shows document names property.2 type ∨ Branded field.name property.2 type) ∧
    (field.wrapper, field.defaultValue) =
      Wrapper.choose (required.contains field.name) type.nullable property.2.notes.defaultValue

theorem Holds.mono {required : List String} {property : Key × Node} {field : Field}
    (holds : Holds document names required property field) (le : names ⊆ more) :
    Holds document more required property field := by
  obtain ⟨name, description, type, typed, shows, wrapped⟩ := holds
  exact ⟨name, description, type, typed, shows.imp_left (·.mono le), wrapped⟩

/-- The fields of an object: one for each property that leads somewhere, in order. -/
def Held (document : Json) (names : List (String × String)) (object : Fields Node)
    (fields : List Field) : Prop :=
  List.Forall₂ (Holds document names object.required)
    (object.properties.filter (resolvable document ·.2)) fields

theorem Held.mono {object : Fields Node} {fields : List Field}
    (held : Held document names object fields) (le : names ⊆ more) :
    Held document more object fields :=
  List.Forall₂.imp (fun _ _ holds => holds.mono le) held

/-- The body of a declaration that is built from a merged node: a struct of the given kind, or an
expression, where any JSON value stands for what leads nowhere. -/
def Built (document : Json) (names : List (String × String)) (kind : DeclarationKind) (node : Node)
    (d : Declaration) : Prop :=
  match node.struct? with
  | some object => d.kind = kind ∧ ∃ fields, d.type = some (.struct fields) ∧
      Held document names object fields
  | none => d.kind = .schema ∧ ∃ type, Reads document names node type ∧
      d.type = some (type.getD .json)

theorem Built.mono {kind : DeclarationKind} {d : Declaration}
    (built : Built document names kind node d) (le : names ⊆ more) :
    Built document more kind node d := by
  unfold Built at built ⊢
  split at built
  · obtain ⟨kind, fields, typed, held⟩ := built
    exact ⟨kind, fields, typed, held.mono le⟩
  · obtain ⟨kind, type, reads, typed⟩ := built
    exact ⟨kind, type, reads.mono le, typed⟩

end Types

section Settling

/-- The reference is declared from its own target. -/
def Entry (document : Json) (store : Store) (entry : String × String) : Prop :=
  ∃ target node d, lookup document (.str entry.1) = .ok (some target) ∧
    MergesTo document target node ∧ store.find? entry.2 = some d ∧
    Built document store.refNames .classStruct node d

def Resolves (document : Json) (store : Store) : Prop :=
  ∀ entry ∈ store.refNames, ∃ target, Pointer.resolve (.str entry.1) document = .ok (some target)

structure Valid (document : Json) (store : Store) : Prop where
  sound : store.Sound
  resolves : Resolves document store

/-- What building an expression does to the store: it grows, and every reference that is new is
declared from its own target. -/
structure Settles (document : Json) (before after : Store) : Prop where
  grows : Grows before after
  resolves : Resolves document after
  entries : ∀ entry ∈ after.refNames, entry ∈ before.refNames ∨
    entry.2 ∉ before.names ∧ Entry document after entry

variable {before after : Store} {entry : String × String}

theorem Entry.grows (settled : Entry document before entry) (grows : Grows before after) :
    Entry document after entry := by
  obtain ⟨target, node, d, found, merges, declared, built⟩ := settled
  exact ⟨target, node, d, found, merges, grows.find? declared,
    built.mono grows.refNames_prefix.subset⟩

namespace Settles

theorem refl {store : Store} (valid : Valid document store) : Settles document store store :=
  ⟨.refl valid.sound, valid.resolves, fun _ => .inl⟩

theorem trans {first second third : Store} (one : Settles document first second)
    (two : Settles document second third) : Settles document first third := by
  refine ⟨one.grows.trans two.grows, two.resolves, fun entry listed => ?_⟩
  rcases two.entries entry listed with old | ⟨fresh, settled⟩
  · exact (one.entries entry old).imp_right fun earlier => ⟨earlier.1, earlier.2.grows two.grows⟩
  · exact .inr ⟨fun known => fresh (one.grows.names_subset known), settled⟩

theorem valid (settles : Settles document before after) : Valid document after :=
  ⟨settles.grows.sound, settles.resolves⟩

theorem chain (document : Json) : Chain (Valid document) (Settles document) :=
  ⟨refl, trans, valid⟩

theorem refNames_subset (settles : Settles document before after) :
    before.refNames ⊆ after.refNames :=
  settles.grows.refNames_prefix.subset

/-- New references that are settled resolve. -/
theorem of_entries (valid : Valid document before) (grows : Grows before after)
    (entries : ∀ entry ∈ after.refNames, entry ∈ before.refNames ∨
      entry.2 ∉ before.names ∧ Entry document after entry) : Settles document before after := by
  refine ⟨grows, fun entry listed => ?_, entries⟩
  rcases entries entry listed with old | ⟨_, _, _, _, found, _⟩
  · exact valid.resolves entry old
  · obtain ⟨target, resolved, _⟩ := lookup_eq_some.mp found
    exact ⟨target, resolved⟩

end Settles

end Settling

section Building

variable {env : Env} {expr : Typer} {s : Session} {scope : String}

def Settler (document : Json) (expr : Typer) : Prop :=
  ∀ node scope (s : Session), Valid document s.store → Yields (Settles document)
    (fun type store => Fits type store ∧ Reads document store.refNames node type) (expr node scope) s

theorem brandExpr_yields {key owner : String} {type : TypeExpr} (valid : Valid document s.store)
    (fits : type.FitsIn s.store.names) :
    Yields (Settles document)
      (fun result _ => result.nullable = type.nullable ∧ (result = type ∨ Branded key node result))
      (brandExpr env key node type owner) s := by
  -- no reference is declared on the way
  have effect : Yields (fun before after => after.refNames = before.refNames)
      (fun result _ => result.nullable = type.nullable ∧ (result = type ∨ Branded key node result))
      (brandExpr env key node type owner) s := by
    unfold brandExpr
    split
    · rename_i p shape
      simp only []
      split
      · exact .pure rfl ⟨rfl, .inl rfl⟩
      · split
        · exact .pure rfl ⟨rfl, .inl rfl⟩
        · rename_i brand branded
          have own : Branded key node (.ref brand type.nullable) :=
            ⟨p, owner, brand, shape, branded, rfl⟩
          apply Yields.store
          split
          · exact .report (.pure rfl ⟨rfl, .inl rfl⟩)
          · split
            · exact .modifyStore (fun _ => id) (.pure rfl ⟨rfl, .inr own⟩)
            · exact .pure rfl ⟨rfl, .inr own⟩
    · exact .pure rfl ⟨rfl, .inl rfl⟩
  intro result t done
  obtain ⟨same, value⟩ := effect result t done
  have grows := ((brandExpr_grows valid.sound fits).of_ok done).1
  exact ⟨.of_entries valid grows fun entry listed => .inl (same ▸ listed), value⟩

theorem fieldsOf_yields {object : Fields Node} {owner : String} (settler : Settler document expr)
    (valid : Valid document s.store) :
    Yields (Settles document) (fun fields store => Held document store.refNames object fields)
      (fieldsOf env expr object owner) s := by
  have chain := Settles.chain document
  unfold fieldsOf
  apply Yields.bind chain
  · apply Yields.mapM chain (Q := fun (p : Key × Node) field store => Kept
      (Unresolvable document p.2) (Holds document store.refNames object.required p) field) ?_ ?_ valid
    · exact fun p result before after settles kept =>
        kept.imp fun field holds => holds.mono settles.refNames_subset
    · rintro ⟨key, node⟩ _ s valid
      cases key with
      | text key =>
        apply Yields.bind chain (settler node _ s valid)
        rintro type t settles ⟨fits, reads⟩
        cases type with
        | none => exact .report (.pure (.refl settles.valid) reads)
        | some type =>
          apply Yields.bind chain (brandExpr_yields settles.valid (fits_some.mp fits))
          rintro result u further ⟨nullable, same⟩
          refine .pure (.refl further.valid) ⟨reads.1, rfl, rfl, result, rfl, ?_, rfl⟩
          rcases same with rfl | branded
          · exact .inl (reads.2.mono further.refNames_subset)
          · exact .inr branded
      | _ => exact .throw
  · intro results t settles each
    exact .pure (.refl settles.valid) (Kept.filterMap (by simp) each)

/-- A reserved declaration gets its description and its kind before its parts are built. -/
theorem find?_started {base store : Store} {name : String} {kind : DeclarationKind}
    (description : Option String) (grows : Grows base store) (outside : name ∉ base.names)
    (reserved : store.Builds name) (plain : kind ≠ .brand ∧ kind ≠ .taggedError) :
    let started := (store.update name fun d => { d with description }).update name
      fun d => { d with kind }
    started.Sound ∧ started.names = store.names ∧
      ∃ d, started.find? name = some d ∧ d.kind = kind := by
  have described := reserved.update (f := fun d => { d with description }) grows outside (by simp)
    (fun _ notBrand untagged => ⟨notBrand, untagged⟩) (fun _ _ => .inl)
  have started := described.2.update (f := fun d => { d with kind }) described.1 outside (by simp)
    (fun _ _ _ => plain) (fun _ _ => .inl)
  refine ⟨started.1.sound, ?_, ?_⟩
  · rw [names_update, names_update] <;> simp
  · obtain ⟨d, found, _⟩ := described.2
    refine ⟨{ d with kind }, ?_, rfl⟩
    simp [find?_update, found, (mem_of_find? found).2]

/-- The type of a declaration is set last, when its parts are settled. -/
theorem Settles.typed {before after : Store} {name : String} {d : Declaration}
    (settles : Settles document before after) (type : TypeExpr) (declared : before.find? name = some d) :
    let typed := after.update name fun d => { d with type := some type }
    (∀ entry ∈ typed.refNames, entry ∈ before.refNames ∨
      entry.2 ∉ before.names ∧ Entry document typed entry) ∧
    typed.find? name = some { d with type := some type } := by
  intro typed
  refine ⟨fun entry listed => ?_, ?_⟩
  · refine (settles.entries entry listed).imp_right fun ⟨fresh, settled⟩ => ⟨fresh, ?_⟩
    obtain ⟨target, node, e, found, merges, known, built⟩ := settled
    refine ⟨target, node, e, found, merges, ?_, built⟩
    -- the name is not new, so the entry is about another declaration
    have other : e.name ≠ name := by
      rintro rfl
      exact fresh ((mem_of_find? known).2 ▸ find?_isSome.mp (by simp [declared]))
    simp [typed, find?_update, known, other]
  · simp [typed, find?_update, settles.grows.find? declared, (mem_of_find? declared).2]

theorem fillFrom_of_struct {name : String} {preferStruct : Bool} {object : Fields Node}
    (struct : node.struct? = some object) :
    fillFrom env expr name node preferStruct = (do
      Build.modifyStore (·.update name fun d => { d with
        description := node.notes.description.bind Text.nonBlank? })
      Build.modifyStore (·.update name fun d => { d with
        kind := if preferStruct then .struct else .classStruct })
      let fields ← fieldsOf env expr object name
      Build.modifyStore (·.update name fun d => { d with type := some (.struct fields) })) := by
  obtain ⟨shape, nullable, explicit⟩ := struct?_eq_some.mp struct
  obtain ⟨properties, required, _, additional⟩ := object
  cases explicit
  simp only [fillFrom, shape, nullable]

theorem fillFrom_of_other {name : String} {preferStruct : Bool} (other : node.struct? = none) :
    fillFrom env expr name node preferStruct = (do
      Build.modifyStore (·.update name fun d => { d with
        description := node.notes.description.bind Text.nonBlank? })
      Build.modifyStore (·.update name fun d => { d with kind := .schema })
      let type ← match ← expr node name with
        | some type => pure type
        | none => do
          Build.warn s!"Unresolvable schema for {name}, declaring it as any JSON value"
          pure .json
      Build.modifyStore (·.update name fun d => { d with type := some type })) := by
  unfold fillFrom
  split
  · rename_i properties required additional shape nullable
    have struct := struct?_eq_some.mpr ⟨shape, nullable, rfl⟩
    rw [other] at struct
    cases struct
  · rfl

theorem structKind_plain (preferStruct : Bool) :
    (if preferStruct then .struct else .classStruct : DeclarationKind) ≠ .brand ∧
      (if preferStruct then .struct else .classStruct : DeclarationKind) ≠ .taggedError := by
  cases preferStruct <;> simp

theorem fillFrom_yields {base : Store} {name : String} {preferStruct : Bool} {t : Session}
    (settler : Settler document expr) (grows : Grows base s.store) (outside : name ∉ base.names)
    (reserved : s.store.Builds name) (resolves : Resolves document s.store)
    (done : fillFrom env expr name node preferStruct s = .ok () t) :
    (∀ entry ∈ t.store.refNames, entry ∈ s.store.refNames ∨
      entry.2 ∉ s.store.names ∧ Entry document t.store entry) ∧
    ∃ d, t.store.find? name = some d ∧ Built document t.store.refNames
      (if preferStruct then .struct else .classStruct) node d := by
  unfold Built
  cases struct : node.struct? with
  | some object =>
    have plain := structKind_plain preferStruct
    rw [fillFrom_of_struct struct] at done
    obtain ⟨_, _, same, done⟩ := bind_eq_ok.mp done
    cases same
    obtain ⟨_, _, same, done⟩ := bind_eq_ok.mp done
    cases same
    obtain ⟨fields, u, built, done⟩ := bind_eq_ok.mp done
    cases done
    obtain ⟨sound, names, d, declared, kind⟩ := find?_started _ grows outside reserved plain
    have valid : Valid document _ := ⟨sound, fun entry listed => resolves entry listed⟩
    obtain ⟨settles, held⟩ := fieldsOf_yields settler valid fields u built
    obtain ⟨entries, found⟩ := settles.typed (.struct fields) declared
    rw [names] at entries
    exact ⟨entries, _, found, kind, fields, rfl, held⟩
  | none =>
    rw [fillFrom_of_other struct] at done
    obtain ⟨_, _, same, done⟩ := bind_eq_ok.mp done
    cases same
    obtain ⟨_, _, same, done⟩ := bind_eq_ok.mp done
    cases same
    obtain ⟨type, u, built, done⟩ := bind_eq_ok.mp done
    have plain : DeclarationKind.schema ≠ .brand ∧ DeclarationKind.schema ≠ .taggedError := by simp
    obtain ⟨sound, names, d, declared, kind⟩ := find?_started _ grows outside reserved plain
    have valid : Valid document _ := ⟨sound, fun entry listed => resolves entry listed⟩
    obtain ⟨settles, _, reads⟩ := settler node name _ valid type u built
    obtain ⟨entries, found⟩ := settles.typed (type.getD .json) declared
    rw [names] at entries
    cases type with
    | some type =>
      cases done
      exact ⟨entries, _, found, kind, some type, reads, rfl⟩
    | none =>
      cases done
      exact ⟨entries, _, found, kind, none, reads, rfl⟩

def Named (document : Json) (names : List (String × String)) (pointer : Json) : Option String → Prop :=
  Kept (Pointer.resolve pointer document = .ok none) fun name => ∃ p, pointer = .str p ∧ (p, name) ∈ names

theorem fill_yields {base : Store} {name : String} {preferStruct : Bool} {t : Session}
    (settler : Settler env.document expr) (grows : Grows base s.store) (outside : name ∉ base.names)
    (reserved : s.store.Builds name) (resolves : Resolves env.document s.store)
    (done : fill env expr name node preferStruct s = .ok () t) :
    (∀ entry ∈ t.store.refNames, entry ∈ s.store.refNames ∨
      entry.2 ∉ s.store.names ∧ Entry env.document t.store entry) ∧
    ∃ result d, MergesTo env.document node result ∧ t.store.find? name = some d ∧
      Built env.document t.store.refNames (if preferStruct then .struct else .classStruct) result d := by
  obtain ⟨result, flat, filled⟩ := fill_eq_ok.mp done
  obtain ⟨entries, d, found, built⟩ :=
    fillFrom_yields (s := { s with fills := s.fills ++ [name] }) settler grows outside reserved resolves
      filled
  exact ⟨entries, result, d, mergesTo_of_merged flat, found, built⟩

theorem declareTarget_yields {target : Pointer.Target} (settler : Settler env.document expr)
    (grower : Grower expr) (valid : Valid env.document s.store)
    (resolved : Pointer.resolve (.str target.pointer) env.document = .ok (some target))
    (absent : target.pointer ∉ s.store.refNames.map (·.1)) :
    Yields (Settles env.document) (fun name store => (target.pointer, name) ∈ store.refNames)
      (declareTarget env expr target) s := by
  intro name t done
  obtain ⟨grows, listed⟩ := (declareTarget_grows grower valid.sound absent).of_ok done
  have fresh : s.store.uniqueName target.name ∉ s.store.names := uniqueName_fresh _ _
  obtain ⟨started, reserved⟩ := registered_grows valid.sound absent
  have resolves : Resolves env.document (s.registered target).store := by
    intro entry known
    rcases List.mem_append.mp known with old | new
    · exact valid.resolves entry old
    · obtain rfl := List.mem_singleton.mp new
      exact ⟨target, resolved⟩
  rw [declareTarget_apply] at done
  obtain ⟨node, u, lifted, rest⟩ := bind_eq_ok.mp done
  obtain ⟨normal, rfl⟩ := lift_eq_ok.mp lifted
  obtain ⟨_, v, filled, same⟩ := bind_eq_ok.mp rest
  cases same
  obtain ⟨entries, result, d, merges, found, built⟩ :=
    fill_yields settler started fresh reserved resolves filled
  refine ⟨.of_entries valid grows fun entry known => ?_, listed⟩
  rcases entries entry known with earlier | ⟨unknown, settled⟩
  · rcases List.mem_append.mp earlier with old | new
    · exact .inl old
    · obtain rfl := List.mem_singleton.mp new
      exact .inr ⟨fresh, node, result, d, lookup_eq_some.mpr ⟨target, resolved, normal⟩, merges,
        found, built⟩
  · exact .inr ⟨fun old => unknown (started.names_subset old), settled⟩

theorem eq_str_of_toKey {pointer : Json} {p : String} (keyed : pointer.toKey = .ok (.text p)) :
    pointer = .str p := by
  cases pointer <;> simp_all [Json.toKey, Json.key?]

theorem refName_yields {pointer : Json} (settler : Settler env.document expr)
    (grower : Grower expr) (valid : Valid env.document s.store) :
    Yields (Settles env.document) (fun name store => Named env.document store.refNames pointer name)
      (refName env expr pointer) s := by
  unfold refName
  apply Yields.lift_bind
  intro key keyed
  apply Yields.store
  cases known : known? s.store key with
  | some name =>
    cases key with
    | text p =>
      obtain rfl := eq_str_of_toKey keyed
      have listed := mem_of_lookup known
      obtain ⟨target, resolved⟩ := valid.resolves _ listed
      exact .pure (.refl valid) ⟨by simp [resolved], p, rfl, listed⟩
    | _ => cases known
  | none =>
    apply Yields.lift_bind
    intro target resolved
    cases target with
    | none => exact .pure (.refl valid) resolved
    | some target =>
      obtain rfl := resolve_pointer resolved
      cases keyed
      apply Yields.bind (Settles.chain _)
        (declareTarget_yields settler grower valid resolved (lookup_eq_none known))
      intro name t settles listed
      exact .pure (.refl settles.valid) ⟨by simp [resolved], _, rfl, listed⟩

theorem itemsExpr_yields {items : Items Node} (settler : Settler document expr)
    (valid : Valid document s.store) :
    Yields (Settles document) (fun type _ =>
        Kept (∃ item, items = .each item ∧ Unresolvable document item) (fun _ => True) type)
      (itemsExpr expr scope items) s := by
  cases items with
  | anything | nothing => exact .pure (.refl valid) (by simp [Kept])
  | each item =>
    intro type t done
    obtain ⟨settles, _, reads⟩ := settler item scope s valid type t done
    refine ⟨settles, ?_⟩
    cases type with
    | none => exact ⟨item, rfl, reads⟩
    | some type =>
      refine ⟨?_, trivial⟩
      rintro ⟨other, same, lost⟩
      cases same
      exact reads.1 lost

theorem unionExpr_yields {members : List Node} (settler : Settler document expr)
    (valid : Valid document s.store) (shape : node.shape = .anyOf members) :
    Yields (Settles document) (fun type store => Reads document store.refNames node type)
      (unionExpr expr scope members) s := by
  have chain := Settles.chain document
  unfold unionExpr
  apply Yields.bind chain
  · apply Yields.mapM chain (Q := fun member type store => Reads document store.refNames member type)
      _ _ valid
    · exact fun _ _ _ _ settles reads => reads.mono settles.refNames_subset
    · intro member _ s valid type t done
      obtain ⟨settles, _, reads⟩ := settler member scope s valid type t done
      exact ⟨settles, reads⟩
  · intro types t settles each
    have kept := Kept.filterMap (fun _ => resolvable_eq_true) each
    have lost : Unresolvable document node ↔ types.filterMap id = [] := by
      rw [unresolvable_iff, shape, ← List.length_eq_zero_iff, ← kept.length_eq,
        List.length_eq_zero_iff, List.filter_eq_nil_iff]
      simp
    split
    · rename_i empty
      exact .pure (.refl settles.valid) (lost.mpr empty)
    · rename_i only single
      have resolved : ¬ Unresolvable document node := by
        rw [lost, single]
        simp
      rw [single] at kept
      obtain ⟨member, rest, shows, rest_nil, alone⟩ := List.forall₂_cons_right_iff.mp kept
      rw [List.forall₂_nil_right_iff.mp rest_nil] at alone
      exact .pure (.refl settles.valid) ⟨resolved, .only shape alone shows⟩
    · rename_i nonempty _
      refine .pure (.refl settles.valid) ⟨fun gone => nonempty (lost.mp gone), ?_⟩
      exact .union shape rfl kept.length_eq.symm

theorem recordExpr_yields {additional : Option Node} (settler : Settler document expr)
    (valid : Valid document s.store) :
    Yields (Settles document) (fun type _ => ∃ record, type = some record ∧ record.kind = .record)
      (recordExpr expr scope additional) s := by
  unfold recordExpr
  cases additional with
  | none => exact .pure (.refl valid) ⟨_, rfl, rfl⟩
  | some item =>
    apply Yields.bind (Settles.chain document) (settler item scope s valid)
    exact fun value t settles _ => .pure (.refl settles.valid) ⟨_, rfl, rfl⟩

theorem listExpr_yields {item : TypeExpr} {minItems maxItems : Option Json}
    (valid : Valid document s.store) :
    Yields (Settles document) (fun type _ => ∃ list, type = some list ∧ list.kind = .array)
      (listExpr item minItems maxItems) s := by
  unfold listExpr
  cases minItems with
  | none => exact .pure (.refl valid) ⟨_, rfl, rfl⟩
  | some bound => exact .lift_bind fun _ _ => .pure (.refl valid) ⟨_, rfl, rfl⟩

theorem tupleExpr_yields {lead : List Node} {rest : Items Node} (settler : Settler document expr)
    (valid : Valid document s.store) :
    Yields (Settles document) (fun type _ => ∃ tuple, type = some tuple ∧ tuple.kind = .tuple)
      (tupleExpr expr scope lead rest) s := by
  have chain := Settles.chain document
  unfold tupleExpr
  apply Yields.bind chain
  · apply Yields.mapM chain (Q := fun _ _ _ => True) (fun _ _ _ _ _ => id) _ valid
    intro item _ s valid
    apply Yields.bind chain (settler item scope s valid)
    exact fun _ _ settles _ => .pure (.refl settles.valid) trivial
  · intro args t settles _
    split
    · exact .pure (.refl settles.valid) ⟨_, rfl, rfl⟩
    · apply Yields.bind chain (itemsExpr_yields settler settles.valid)
      exact fun _ _ settles _ => .pure (.refl settles.valid) ⟨_, rfl, rfl⟩

/-- A reference that an `allOf` wraps alone is read in its place. -/
theorem wrapped_yields {member : Node} (settler : Settler env.document expr)
    (valid : Valid env.document s.store) (wraps : node.singleRef? = some member) :
    Yields (Settles env.document) (fun type store => Reads env.document store.refNames node type)
      (expr member scope) s := by
  intro type t done
  obtain ⟨settles, _, reads⟩ := settler member scope s valid type t done
  refine ⟨settles, ?_⟩
  have lost : Unresolvable env.document node ↔ Unresolvable env.document member := by
    rw [unresolvable_iff, (singleRef?_eq_some.mp wraps).1]
    simp [wraps]
  cases type with
  | none => exact lost.mpr reads
  | some type => exact ⟨fun gone => reads.1 (lost.mp gone), .wrapped wraps reads.2⟩

/-- Any other `allOf` is read as what it merges to, which is one node at every depth. -/
theorem flattened_yields {members : List Node} (settler : Settler env.document expr)
    (valid : Valid env.document s.store) (shape : node.shape = .allOf members)
    (wraps : node.singleRef? = none) :
    Yields (Settles env.document) (fun type store => Reads env.document store.refNames node type)
      (Build.lift (flattenAllOf (lookup env.document) env.fuel node) >>= (expr · scope)) s := by
  have merging : node.merges = true := by
    simp [merges, isAllOf_eq_true.mpr ⟨members, shape⟩, wraps]
  apply Yields.lift_bind
  intro result flat type t done
  obtain ⟨settles, _, reads⟩ := settler result scope s valid type t done
  refine ⟨settles, ?_⟩
  cases type with
  | none => exact .merged merging flat reads
  | some type =>
    refine ⟨fun lost => reads.1 ?_, .merged merging flat reads.2⟩
    rw [unresolvable_iff, shape] at lost
    simp only [wraps] at lost
    obtain ⟨fuel, other, otherFlat, gone⟩ := lost
    rwa [flattenAllOf_unique flat otherFlat]

theorem shapeExpr_yields (settler : Settler env.document expr) (grower : Grower expr)
    (valid : Valid env.document s.store) :
    Yields (Settles env.document) (fun type store => Reads env.document store.refNames node type)
      (shapeExpr env expr node scope) s := by
  have chain := Settles.chain env.document
  unfold shapeExpr
  split
  case h_2 pointer shape =>
    apply Yields.bind chain (refName_yields settler grower valid)
    intro name t settles named
    refine .pure (.refl settles.valid) ?_
    cases name with
    | none => exact .ref shape named
    | some name =>
      obtain ⟨resolved, p, rfl, known⟩ := named
      exact ⟨fun lost => resolved (by simpa [unresolvable_iff, shape] using lost),
        .ref shape known rfl⟩
  case h_6 members shape =>
    cases wraps : node.singleRef? with
    | some member => exact wrapped_yields settler valid wraps
    | none => exact flattened_yields settler valid shape wraps
  case h_7 members shape => exact unionExpr_yields settler valid shape
  case h_8 fields shape =>
    have resolved : ¬ Unresolvable env.document node := by simp [unresolvable_iff, shape]
    split
    · rename_i explicit
      apply Yields.bind chain (fieldsOf_yields settler valid)
      intro held t settles _
      exact .pure (.refl settles.valid) (reads_own (by simp [kindOf?, shape, explicit]; rfl) resolved)
    · rename_i implicit
      intro type t done
      obtain ⟨settles, record, rfl, kind⟩ := recordExpr_yields settler valid type t done
      exact ⟨settles, reads_own (by simp [kindOf?, shape, implicit, kind]) resolved⟩
  case h_9 items minItems maxItems shape =>
    have lost : Unresolvable env.document node ↔
        ∃ item, items = .each item ∧ Unresolvable env.document item := by
      rw [unresolvable_iff, shape]
      cases items <;> simp
    apply Yields.bind chain (itemsExpr_yields settler valid)
    intro item t settles kept
    cases item with
    | none => exact .pure (.refl settles.valid) (lost.mpr kept)
    | some item =>
      intro type u done
      obtain ⟨further, list, rfl, kind⟩ := listExpr_yields settles.valid type u done
      exact ⟨further, reads_own (by simp [kindOf?, shape, kind]) fun gone => kept.1 (lost.mp gone)⟩
  case h_10 lead rest shape =>
    intro type t done
    obtain ⟨settles, tuple, rfl, kind⟩ := tupleExpr_yields settler valid type t done
    exact ⟨settles, reads_own (by simp [kindOf?, shape, kind]) (by simp [unresolvable_iff, shape])⟩
  all_goals
    rename_i shape
    refine .pure (.refl valid) (reads_own (by rw [shape]; rfl) ?_)
    simp [unresolvable_iff, shape]

theorem expr_settler (env : Env) (fuel : Nat) : Settler env.document (Builder.expr env fuel) := by
  induction fuel with
  | zero => exact fun _ _ _ _ => .throw
  | succ fuel ih =>
    intro node scope s valid type t done
    have fits := ((expr_grower env (fuel + 1) node scope s valid.sound).of_ok done).2
    obtain ⟨plain, u, shaped, same⟩ := bind_eq_ok.mp done
    obtain ⟨settles, reads⟩ := shapeExpr_yields ih (expr_grower env fuel) valid plain u shaped
    cases same
    refine ⟨settles, fits, ?_⟩
    split
    · exact reads.orNull
    · exact reads

/-- Adding a node settles every reference that it meets first. -/
theorem add_settles {name declared : String} {preferStruct : Bool} {t : Session}
    (valid : Valid env.document s.store)
    (done : add env name node preferStruct s = .ok declared t) :
    Settles env.document s.store t.store := by
  have settler := expr_settler env env.fuel
  have grower := expr_grower env env.fuel
  have yields : Yields (Settles env.document) (fun _ _ => True)
      (add env name node preferStruct) s := by
    unfold add
    simp only []
    split
    · apply Yields.bind (Settles.chain _) (refName_yields settler grower valid)
      intro target t settles _
      cases target with
      | some target => exact .pure (.refl settles.valid) trivial
      | none =>
        have fresh := uniqueName_fresh t.store name
        have reserved := reserve_grows settles.valid.sound fresh (uniqueName_ne_empty _ _)
        have grown : Settles env.document t.store (t.store.reserve (t.store.uniqueName name)) :=
          .of_entries settles.valid reserved fun _ => .inl
        exact .report (.store (.modifyStore (fun _ => grown.trans) (.pure (.refl grown.valid) trivial)))
    · intro declared t done
      have fresh := uniqueName_fresh s.store name
      have reserved := reserve_grows valid.sound fresh (uniqueName_ne_empty _ _)
      obtain ⟨_, _, same, rest⟩ := bind_eq_ok.mp done
      cases same
      obtain ⟨_, _, same, rest⟩ := bind_eq_ok.mp rest
      cases same
      obtain ⟨_, u, filled, same⟩ := bind_eq_ok.mp rest
      cases same
      have grows := ((fill_grows grower reserved fresh (builds_reserve fresh)).of_ok filled).1
      obtain ⟨entries, _⟩ := fill_yields
        (s := { s with store := s.store.reserve (s.store.uniqueName name) }) settler reserved fresh
        (builds_reserve fresh) valid.resolves filled
      refine ⟨.of_entries valid grows fun entry listed => ?_, trivial⟩
      exact (entries entry listed).imp_right fun ⟨unknown, settled⟩ =>
        ⟨fun old => unknown (reserved.names_subset old), settled⟩
  exact (yields declared t done).1

theorem addSchema_settles {brandIds preferStruct : Bool} {name declared : String} {fragment : Json}
    {t : Session} (valid : Valid document s.store)
    (done : addSchema brandIds name fragment document preferStruct s = .ok declared t) :
    Settles document s.store t.store := by
  obtain ⟨node, u, lifted, added⟩ := bind_eq_ok.mp done
  obtain ⟨_, rfl⟩ := lift_eq_ok.mp lifted
  have settles : ∀ env : Env, env.document = document → add env name node preferStruct u = .ok declared t →
      Settles document u.store t.store := by
    rintro env rfl added
    exact add_settles valid added
  exact settles _ rfl added

/-- A node that is no reference gets a name of its own, and no reference leads to it. -/
theorem add_own {name declared : String} {preferStruct : Bool} {t : Session}
    (valid : Valid env.document s.store) (inline : asRef? node = none)
    (done : add env name node preferStruct s = .ok declared t) :
    declared ∉ t.store.refNames.map (·.2) := by
  unfold add at done
  simp only [inline] at done
  obtain ⟨_, _, same, rest⟩ := bind_eq_ok.mp done
  cases same
  obtain ⟨_, _, same, rest⟩ := bind_eq_ok.mp rest
  cases same
  obtain ⟨_, u, filled, same⟩ := bind_eq_ok.mp rest
  cases same
  have fresh := uniqueName_fresh s.store name
  obtain ⟨entries, _⟩ := fill_yields
    (s := { s with store := s.store.reserve (s.store.uniqueName name) }) (expr_settler env env.fuel)
    (reserve_grows valid.sound fresh (uniqueName_ne_empty _ _)) fresh (builds_reserve fresh)
    valid.resolves filled
  intro listed
  obtain ⟨entry, known, named⟩ := List.mem_map.mp listed
  rcases entries entry known with old | ⟨unknown, _⟩
  · exact fresh (named ▸ valid.sound.referred entry old)
  · exact unknown (by simp [named, names_reserve fresh])

theorem addSchema_own {brandIds preferStruct : Bool} {name declared : String} {fragment : Json}
    {t : Session} (valid : Valid document s.store)
    (inline : ∀ node, normalize fragment ("#/" ++ name) = .ok node → asRef? node = none)
    (done : addSchema brandIds name fragment document preferStruct s = .ok declared t) :
    declared ∉ t.store.refNames.map (·.2) := by
  obtain ⟨node, u, lifted, added⟩ := bind_eq_ok.mp done
  obtain ⟨read, rfl⟩ := lift_eq_ok.mp lifted
  have own : ∀ env : Env, env.document = document → add env name node preferStruct u = .ok declared t →
      declared ∉ t.store.refNames.map (·.2) := by
    rintro env rfl added
    exact add_own valid (inline node read) added
  exact own _ rfl added

end Building

end Builder

end TypedClient
