import TypedClient.Proofs.Session.Outcome
import TypedClient.Schema.Normal

/-! Parts of nodes and of the fragments that they are read from. A node is no deeper than its
fragment, and it refers to nothing that its fragment does not refer to. -/
namespace TypedClient

namespace Json

def referenceAt (key : Key) : Json → List String
  | .str p => if key.same "$ref" then [p] else []
  | _ => []

theorem mem_referenceAt {key : Key} {v : Json} {p : String} :
    p ∈ referenceAt key v ↔ key.same "$ref" = true ∧ v = .str p := by
  cases v with
  | str q =>
    by_cases own : key.same "$ref" = true
    · simp [referenceAt, own, eq_comm]
    · simp [referenceAt, own]
  | _ => simp [referenceAt]

theorem length_referenceAt_le (key : Key) (v : Json) : (referenceAt key v).length ≤ 1 := by
  cases v with
  | str q => by_cases own : key.same "$ref" = true <;> simp [referenceAt, own]
  | _ => simp [referenceAt]

mutual

/-- The texts that a value has under the key of references, at any depth. -/
def references : Json → List String
  | .arr items => referencesOfItems items
  | .obj members => referencesOfMembers members
  | _ => []

def referencesOfItems : List Json → List String
  | [] => []
  | v :: rest => v.references ++ referencesOfItems rest

def referencesOfMembers : List (Key × Json) → List String
  | [] => []
  | (k, v) :: rest => referenceAt k v ++ v.references ++ referencesOfMembers rest

end

theorem mem_referencesOfItems {items : List Json} {p : String} :
    p ∈ referencesOfItems items ↔ ∃ v ∈ items, p ∈ v.references := by
  induction items with
  | nil => simp [referencesOfItems]
  | cons v rest ih => simp [referencesOfItems, ih]

theorem mem_referencesOfMembers {members : Members} {p : String} :
    p ∈ referencesOfMembers members ↔
      ∃ m ∈ members, (m.1.same "$ref" = true ∧ m.2 = .str p) ∨ p ∈ m.2.references := by
  induction members with
  | nil => simp [referencesOfMembers]
  | cons m rest ih => simp [referencesOfMembers, mem_referenceAt, ih, or_assoc]

theorem references_arr_subset {items : List Json} {v : Json} (member : v ∈ items) :
    v.references ⊆ (arr items).references := by
  intro p occurs
  rw [references]
  exact mem_referencesOfItems.mpr ⟨v, member, occurs⟩

theorem references_obj_subset {members : Members} {m : Key × Json} (member : m ∈ members) :
    m.2.references ⊆ (obj members).references := by
  intro p occurs
  rw [references]
  exact mem_referencesOfMembers.mpr ⟨m, member, .inr occurs⟩

theorem references_get?_subset {members : Members} {name : Key} {v : Json}
    (found : members.get? name = some v) : v.references ⊆ (obj members).references := by
  obtain ⟨m, member, _, rfl⟩ := Members.exists_of_get? found
  exact references_obj_subset member

mutual

/-- Every reference takes a value of its own. -/
theorem length_references_le (value : Json) : value.references.length ≤ value.size := by
  match value with
  | .arr items =>
    have := length_referencesOfItems_le items
    simp only [references, size]
    omega
  | .obj members =>
    have := length_referencesOfMembers_le members
    simp only [references, size]
    omega
  | .null | .bool _ | .int _ | .float _ | .str _ => simp [references]

theorem length_referencesOfItems_le (items : List Json) :
    (referencesOfItems items).length ≤ sizeItems items := by
  match items with
  | [] => simp [referencesOfItems]
  | v :: rest =>
    have := length_references_le v
    have := length_referencesOfItems_le rest
    simp only [referencesOfItems, sizeItems, List.length_append]
    omega

theorem length_referencesOfMembers_le (members : List (Key × Json)) :
    (referencesOfMembers members).length ≤ sizeMembers members := by
  match members with
  | [] => simp [referencesOfMembers]
  | (k, v) :: rest =>
    have inner := length_references_le v
    have own : (referenceAt k v).length + v.references.length ≤ v.size := by
      cases v with
      | str p => simpa [references, size] using length_referenceAt_le k (.str p)
      | _ => simpa [referenceAt] using inner
    have := length_referencesOfMembers_le rest
    simp only [referencesOfMembers, sizeMembers, List.length_append]
    omega

end

end Json

namespace Schema

namespace Node

theorem singleRef?_eq_some {node part : Node} : node.singleRef? = some part ↔
    node.shape = .allOf [part] ∧ ∃ pointer, part.shape = .ref pointer := by
  constructor
  · intro wraps
    unfold singleRef? at wraps
    split at wraps
    · split at wraps <;> cases wraps
      exact ⟨‹_›, _, ‹_›⟩
    · cases wraps
  · rintro ⟨shape, pointer, inner⟩
    simp [singleRef?, shape, inner]

theorem induction_on_parts {motive : Node → Prop} (node : Node)
    (step : ∀ node : Node, (∀ part ∈ node.shape.parts, motive part) → motive node) :
    motive node := by
  induction h : sizeOf node using Nat.strong_induction_on generalizing node with
  | _ n ih =>
    apply step
    intro part member
    exact ih _ (h ▸ sizeOf_part_lt member) part rfl

theorem mem_subnodes {node other : Node} :
    other ∈ node.subnodes ↔ other = node ∨ ∃ part ∈ node.shape.parts, other ∈ part.subnodes := by
  rw [subnodes]
  simp

theorem length_subnodes (node : Node) : node.subnodes.length =
    (node.shape.parts.map fun part => part.subnodes.length).sum + 1 := by
  rw [subnodes, List.length_cons, List.length_flatMap]
  exact congrArg (List.sum · + 1) (List.attach_map_val (f := fun part : Node => part.subnodes.length))

theorem self_mem_subnodes (node : Node) : node ∈ node.subnodes :=
  mem_subnodes.mpr (.inl rfl)

theorem subnodes_part_subset {node part : Node} (member : part ∈ node.shape.parts) :
    part.subnodes ⊆ node.subnodes :=
  fun _ inner => mem_subnodes.mpr (.inr ⟨part, member, inner⟩)

def Within : Node → Nat → Prop
  | _, 0 => False
  | node, depth + 1 => ∀ part ∈ node.shape.parts, part.Within depth

theorem Within.pos {node : Node} {depth : Nat} (within : node.Within depth) : 0 < depth := by
  cases depth with
  | zero => exact within.elim
  | succ depth => exact depth.succ_pos

theorem Within.mono {node : Node} {depth more : Nat} (within : node.Within depth)
    (le : depth ≤ more) : node.Within more := by
  induction depth generalizing node more with
  | zero => exact within.elim
  | succ depth ih =>
    obtain ⟨more, rfl⟩ := Nat.exists_eq_add_of_lt le
    exact fun part member => ih (within part member) (by omega)

theorem Within.part {node part : Node} {depth : Nat} (within : node.Within depth)
    (member : part ∈ node.shape.parts) : part.Within (depth - 1) := by
  cases depth with
  | zero => exact within.elim
  | succ depth => exact within part member

theorem within_length_subnodes (node : Node) : node.Within node.subnodes.length := by
  induction node using induction_on_parts with
  | _ node ih =>
    rw [length_subnodes]
    intro part member
    exact (ih part member).mono (List.single_le_sum (by simp) _ (List.mem_map_of_mem member))

def pointers (node : Node) : List String :=
  node.subnodes.filterMap fun other =>
    match other.shape with
    | .ref (.str p) => some p
    | _ => none

theorem length_pointers_le (node : Node) : node.pointers.length ≤ node.subnodes.length :=
  List.length_filterMap_le _ _

theorem mem_pointers {node : Node} {p : String} :
    p ∈ node.pointers ↔ ∃ other ∈ node.subnodes, other.shape = .ref (.str p) := by
  simp only [pointers, List.mem_filterMap]
  constructor
  · rintro ⟨other, inner, found⟩
    split at found
    · rename_i q shape
      cases found
      exact ⟨other, inner, shape⟩
    · cases found
  · rintro ⟨other, inner, shape⟩
    exact ⟨other, inner, by simp [shape]⟩

theorem mem_pointers_iff {node : Node} {p : String} :
    p ∈ node.pointers ↔
      node.shape = .ref (.str p) ∨ ∃ part ∈ node.shape.parts, p ∈ part.pointers := by
  have split : ∀ other, other ∈ node.subnodes ↔ _ := fun _ => mem_subnodes
  simp only [mem_pointers, split]
  grind

theorem pointers_part_subset {node part : Node} (member : part ∈ node.shape.parts) :
    part.pointers ⊆ node.pointers :=
  fun _ occurs => mem_pointers_iff.mpr (.inr ⟨part, member, occurs⟩)

end Node

section Mapping

variable {f : α → β} {g : β → γ}

namespace Items

theorem attach_map (items : Items α) : items.attach.map (fun part => f part.val) = items.map f := by
  cases items <;> rfl

@[simp] theorem map_map (items : Items α) : (items.map f).map g = items.map fun part => g (f part) := by
  cases items <;> rfl

end Items

def Fields.map (f : α → β) (fields : Fields α) : Fields β :=
  { properties := fields.properties.map fun p => (p.1, f p.2)
    required := fields.required
    explicit := fields.explicit
    additional := fields.additional.map f }

namespace Shape

def map (f : α → β) : Shape α → Shape β
  | .primitive p => .primitive p
  | .enum values => .enum values
  | .const value => .const value
  | .ref pointer => .ref pointer
  | .allOf members => .allOf (members.map f)
  | .anyOf members => .anyOf (members.map f)
  | .object fields => .object (fields.map f)
  | .array items minItems maxItems => .array (items.map f) minItems maxItems
  | .tuple lead rest => .tuple (lead.map f) (rest.map f)
  | .always accepts => .always accepts

theorem attach_map (shape : Shape α) : shape.attach.map (fun part => f part.val) = shape.map f := by
  cases shape with
  | allOf members => exact congrArg Shape.allOf List.attach_map_val
  | anyOf members => exact congrArg Shape.anyOf List.attach_map_val
  | object fields =>
    obtain ⟨properties, required, explicit, additional⟩ := fields
    have same : properties.attach.map (fun p => (p.val.1, f p.val.2)) =
        properties.map fun p => (p.1, f p.2) :=
      List.attach_map_val (f := fun p : Key × α => (p.1, f p.2))
    cases additional <;> simpa [attach, map, Fields.map, Function.comp_def] using same
  | array items minItems maxItems =>
    exact congrArg (Shape.array · minItems maxItems) (Items.attach_map items)
  | tuple lead rest =>
    have same : lead.attach.map (fun part => f part.val) = lead.map f := List.attach_map_val
    simp [attach, map, Function.comp_def, Items.attach_map, same]
  | primitive | enum | const | ref | always => rfl

theorem map_map (shape : Shape α) : (shape.map f).map g = shape.map fun part => g (f part) := by
  cases shape <;> simp [map, Fields.map, Function.comp_def]

theorem parts_map (shape : Shape α) : (shape.map f).parts = shape.parts.map f := by
  cases shape with
  | object fields =>
    obtain ⟨properties, required, explicit, additional⟩ := fields
    cases additional <;> simp [map, parts, Fields.map, Function.comp_def]
  | array items minItems maxItems => cases items <;> rfl
  | tuple lead rest => cases rest <;> simp [map, parts, Items.map, Items.parts]
  | primitive | enum | const | ref | always | allOf | anyOf => rfl

theorem map_congr {f' : α → β} (shape : Shape α) (same : ∀ part ∈ shape.parts, f part = f' part) :
    shape.map f = shape.map f' := by
  have parts : (fun part : { part // part ∈ shape.parts } => f part.val) = fun part => f' part.val :=
    funext fun part => same part.val part.property
  rw [← attach_map, parts, attach_map]

theorem map_id (shape : Shape α) : shape.map id = shape := by
  cases shape with
  | object fields =>
    obtain ⟨properties, required, explicit, additional⟩ := fields
    simp [map, Fields.map]
  | array items minItems maxItems => cases items <;> rfl
  | tuple lead rest => cases rest <;> simp [map, Items.map]
  | allOf | anyOf => simp [map]
  | primitive | enum | const | ref | always => rfl

theorem map_val_attach (shape : Shape α) : shape.attach.map Subtype.val = shape :=
  (attach_map (f := id) shape).trans shape.map_id

theorem mapM_map {h : β → Except Fault γ} (shape : Shape α) :
    (shape.map f).mapM h = shape.mapM fun part => h (f part) := by
  cases shape with
  | object fields =>
    obtain ⟨properties, required, explicit, additional⟩ := fields
    cases additional <;> simp [map, mapM, Fields.map, List.mapM_map, Function.comp_def]
  | array items minItems maxItems => cases items <;> rfl
  | tuple lead rest =>
    cases rest <;> simp [map, mapM, Items.map, Items.mapM, List.mapM_map, Function.comp_def]
  | allOf | anyOf => simp [map, mapM, List.mapM_map, Function.comp_def]
  | primitive | enum | const | ref | always => rfl

end Shape

theorem Layer.node_attach (f : α → Except Fault Node) (layer : Layer α) :
    layer.attach.node (fun part => f part.val) = layer.node f := by
  cases layer with
  | shape shape =>
    have same : shape.attach.mapM (fun part => f part.val) = shape.mapM f := by
      rw [← Shape.mapM_map (f := Subtype.val), Shape.map_val_attach]
    exact congrArg (· >>= _) same
  | union members =>
    have same : members.attach.mapM (f ∘ Subtype.val) = members.mapM f := by
      rw [← List.mapM_map, List.attach_map_subtype_val]
    exact congrArg (· >>= _) same

end Mapping

/-- What a fragment says of itself is laid over the node of its layer. -/
theorem normalize_obj (members : Members) (path : String) :
    normalize (.obj members) path = do
      let node ← (← layer members path).node fun part => normalize part.fragment part.path
      return annotate node members path := by
  rw [normalize]
  split
  · rename_i fault unread
    rw [unread]
    rfl
  · rename_i read layered
    rw [layered, Layer.node_attach fun part : Part => normalize part.fragment part.path]
    rfl

/-- A fragment is read as one layer, or accepts every value or none. -/
theorem normalize_cases {fragment : Json} {path : String} {node : Node}
    (done : normalize fragment path = .ok node) :
    (∃ accepts, node = { notes := { path }, shape := .always accepts }) ∨
      ∃ members read inner, fragment = .obj members ∧ layer members path = .ok read ∧
        read.node (fun part => normalize part.fragment part.path) = .ok inner ∧
        node = annotate inner members path := by
  cases fragment with
  | obj members =>
    rw [normalize_obj] at done
    obtain ⟨read, layered, done⟩ := except_bind_eq_ok.mp done
    obtain ⟨inner, normal, done⟩ := except_bind_eq_ok.mp done
    cases done
    exact .inr ⟨members, read, inner, rfl, layered, normal, rfl⟩
  | bool accepts =>
    rw [normalize] at done
    cases done
    exact .inl ⟨accepts, rfl⟩
  | _ =>
    rw [normalize] at done
    · cases done
      exact .inl ⟨true, rfl⟩
    all_goals simp

section References

variable {members : Members} {path : String}

/-- The types that are left after folding are among those that were named. -/
theorem references_foldType_subset (type : Json) :
    (foldType type).1.references ⊆ type.references := by
  unfold foldType
  split
  · rename_i types
    have filtered : ∀ t ∈ types.filter (!·.isText "null"), t ∈ types :=
      fun t member => (List.mem_filter.mp member).1
    dsimp only
    split
    · simp [Json.references]
    · rename_i only left
      exact Json.references_arr_subset (filtered only (by simp [left]))
    · intro p occurs
      obtain ⟨t, member, inner⟩ := Json.mem_referencesOfItems.mp occurs
      exact Json.references_arr_subset (filtered t member) inner
  · exact List.Subset.refl _

theorem PartOf.refers {v : Json} (part : PartOf members v) :
    v.references ⊆ (Json.obj members).references := by
  cases part with
  | value found => exact Json.references_get?_subset found
  | item found listed =>
    exact List.Subset.trans (Json.references_arr_subset listed) (Json.references_get?_subset found)
  | entry found listed =>
    exact List.Subset.trans (Json.references_obj_subset listed) (Json.references_get?_subset found)
  | @typed types t folded listed =>
    intro p occurs
    obtain ⟨m, member, refers⟩ := Json.mem_referencesOfMembers.mp occurs
    rcases List.mem_append.mp member with shared | own
    · exact Json.mem_referencesOfMembers.mpr ⟨m, (List.mem_filter.mp shared).1, refers⟩
    -- the one member that is new is a type of the list that the fragment names
    · obtain rfl := List.mem_singleton.mp own
      have inner : p ∈ t.references := refers.resolve_left (by simp [Key.same])
      have named := Json.references_arr_subset listed inner
      rw [← folded] at named
      exact Json.references_get?_subset (get?_of_foldType folded)
        (references_foldType_subset _ named)

theorem typeLayer_ne_ref {type pointer : Json} :
    typeLayer members type path ≠ .ok (.ref pointer) := by
  unfold typeLayer arrayLayer objectLayer
  intro read
  split at read
  · split at read <;> cases read
  · split at read <;> cases read
  · split at read <;> cases read
  all_goals cases read

/-- Only the key of references makes a reference. -/
theorem get?_of_layer_ref {pointer : Json} (layered : layer members path = .ok (.shape (.ref pointer))) :
    members.get? "$ref" = some pointer := by
  unfold layer Layer.choose at layered
  split at layered
  case h_1 =>
    cases layered
    assumption
  case h_6 =>
    obtain ⟨shape, typed, same⟩ := except_map_eq_ok.mp layered
    cases same
    exact absurd typed typeLayer_ne_ref
  all_goals cases layered

end References

namespace Shape

variable {f : α → Except Fault β} {shape : Shape α} {result : Shape β}

theorem exists_part_of_mapM (done : shape.mapM f = .ok result) {b : β} (member : b ∈ result.parts) :
    ∃ a ∈ shape.parts, f a = .ok b := by
  have ofItems {items : Items α} {i : Items β} (done : items.mapM f = .ok i) (member : b ∈ i.parts) :
      ∃ a ∈ items.parts, f a = .ok b := by
    cases items with
    | each item =>
      obtain ⟨value, found, rfl⟩ := except_map_eq_ok.mp done
      obtain rfl := List.mem_singleton.mp member
      exact ⟨item, List.mem_singleton_self _, found⟩
    | anything | nothing =>
      cases done
      cases member
  cases shape with
  | allOf members | anyOf members =>
    obtain ⟨results, found, rfl⟩ := except_map_eq_ok.mp done
    exact exists_of_mapM_eq_ok found member
  | object o =>
    obtain ⟨properties, found, done⟩ := except_bind_eq_ok.mp done
    obtain ⟨additional, foundAdditional, done⟩ := except_bind_eq_ok.mp done
    cases done
    rcases List.mem_append.mp member with property | further
    · obtain ⟨entry, listed, rfl⟩ := List.mem_map.mp property
      obtain ⟨old, oldListed, step⟩ := exists_of_mapM_eq_ok found listed
      obtain ⟨value, valued, same⟩ := except_bind_eq_ok.mp step
      cases same
      exact ⟨old.2, List.mem_append_left _ (List.mem_map_of_mem oldListed), valued⟩
    · cases extra : o.additional with
      | none =>
        rw [extra] at foundAdditional
        cases foundAdditional
        cases further
      | some node =>
        rw [extra] at foundAdditional
        obtain ⟨value, valued, same⟩ := except_map_eq_ok.mp foundAdditional
        cases same
        obtain rfl := List.mem_singleton.mp further
        exact ⟨node, List.mem_append_right _ (by simp [extra]), valued⟩
  | array items minItems maxItems =>
    obtain ⟨read, found, done⟩ := except_bind_eq_ok.mp done
    cases done
    exact ofItems found member
  | tuple lead rest =>
    obtain ⟨leading, found, done⟩ := except_bind_eq_ok.mp done
    obtain ⟨further, foundFurther, done⟩ := except_bind_eq_ok.mp done
    cases done
    rcases List.mem_append.mp member with member | member
    · obtain ⟨a, listed, step⟩ := exists_of_mapM_eq_ok found member
      exact ⟨a, List.mem_append_left _ listed, step⟩
    · obtain ⟨a, listed, step⟩ := ofItems foundFurther member
      exact ⟨a, List.mem_append_right _ listed, step⟩
  | primitive | enum | const | ref | always =>
    cases done
    cases member

theorem exists_part_of_mapM_error {fault : Fault} (failed : shape.mapM f = .error fault) :
    ∃ a ∈ shape.parts, f a = .error fault := by
  have ofItems {items : Items α} (failed : items.mapM f = .error fault) :
      ∃ a ∈ items.parts, f a = .error fault := by
    cases items with
    | each item => exact ⟨item, List.mem_singleton_self _, except_map_eq_error.mp failed⟩
    | anything | nothing => cases failed
  cases shape with
  | allOf members | anyOf members => exact exists_of_mapM_eq_error (except_map_eq_error.mp failed)
  | object o =>
    rcases except_bind_eq_error.mp failed with failed | ⟨_, _, failed⟩
    · obtain ⟨entry, listed, failed⟩ := exists_of_mapM_eq_error failed
      rcases except_bind_eq_error.mp failed with failed | ⟨_, _, done⟩
      · exact ⟨entry.2, List.mem_append_left _ (List.mem_map_of_mem listed), failed⟩
      · cases done
    · rcases except_bind_eq_error.mp failed with failed | ⟨_, _, done⟩
      · cases extra : o.additional with
        | none =>
          rw [extra] at failed
          cases failed
        | some node =>
          rw [extra] at failed
          exact ⟨node, List.mem_append_right _ (by simp [extra]), except_map_eq_error.mp failed⟩
      · cases done
  | array items minItems maxItems =>
    rcases except_bind_eq_error.mp failed with failed | ⟨_, _, done⟩
    · exact ofItems failed
    · cases done
  | tuple lead rest =>
    rcases except_bind_eq_error.mp failed with failed | ⟨_, _, failed⟩
    · obtain ⟨a, listed, failed⟩ := exists_of_mapM_eq_error failed
      exact ⟨a, List.mem_append_left _ listed, failed⟩
    · rcases except_bind_eq_error.mp failed with failed | ⟨_, _, done⟩
      · obtain ⟨a, listed, failed⟩ := ofItems failed
        exact ⟨a, List.mem_append_right _ listed, failed⟩
      · cases done
  | primitive | enum | const | ref | always => cases failed

theorem eq_ref_of_mapM {pointer : Json} (done : shape.mapM f = .ok (.ref pointer)) :
    shape = .ref pointer := by
  cases shape with
  | ref other =>
    cases done
    rfl
  | allOf members | anyOf members =>
    obtain ⟨_, _, same⟩ := except_map_eq_ok.mp done
    cases same
  | object o =>
    obtain ⟨_, _, done⟩ := except_bind_eq_ok.mp done
    obtain ⟨_, _, done⟩ := except_bind_eq_ok.mp done
    cases done
  | array items minItems maxItems =>
    obtain ⟨_, _, done⟩ := except_bind_eq_ok.mp done
    cases done
  | tuple lead rest =>
    obtain ⟨_, _, done⟩ := except_bind_eq_ok.mp done
    obtain ⟨_, _, done⟩ := except_bind_eq_ok.mp done
    cases done
  | primitive | enum | const | always => cases done

end Shape

/-- The shape of a union: null, that of the only member left, or an `anyOf` of members whose flags
are taken off. -/
theorem shape_unionOf (members : List Node) :
    (unionOf members).shape = .primitive { type := .null } ∨
      (∃ member ∈ members, (unionOf members).shape = member.shape) ∨
      ∃ chosen ⊆ members, (unionOf members).shape = .anyOf (chosen.map (·.withNullable false)) := by
  have kept : members.filter (!·.isNull) ⊆ members := List.filter_subset_self _
  unfold unionOf
  dsimp only
  split
  · exact .inl rfl
  · rename_i only left
    exact .inr (.inl ⟨only, kept (by simp [left]), rfl⟩)
  · exact .inr (.inr ⟨_, kept, rfl⟩)

theorem Node.Within.congr {node other : Node} {depth : Nat} (within : node.Within depth)
    (same : other.shape = node.shape) : other.Within depth := by
  cases depth with
  | zero => exact within.elim
  | succ depth =>
    intro part member
    rw [same] at member
    exact within part member

/-- Depth and references are a matter of the shape. -/
theorem Node.bounds_congr {node other : Node} {depth : Nat} {texts : List String}
    (bounds : node.Within depth ∧ node.pointers ⊆ texts) (same : other.shape = node.shape) :
    other.Within depth ∧ other.pointers ⊆ texts := by
  refine ⟨bounds.1.congr same, fun p occurs => bounds.2 ?_⟩
  rw [mem_pointers_iff, same] at occurs
  exact mem_pointers_iff.mpr occurs

/-- The depth and the references of a node, as far as its parts account for them. -/
theorem Node.bounds_of_parts {node : Node} {depth : Nat} {texts : List String}
    (own : ∀ p, node.shape = .ref (.str p) → p ∈ texts)
    (parts : ∀ part ∈ node.shape.parts, part.Within depth ∧ part.pointers ⊆ texts) :
    node.Within (depth + 1) ∧ node.pointers ⊆ texts := by
  refine ⟨fun part member => (parts part member).1, fun p occurs => ?_⟩
  rcases mem_pointers_iff.mp occurs with shape | ⟨part, member, inner⟩
  · exact own p shape
  · exact (parts part member).2 inner

/-- A union is no deeper than one layer over its members. -/
theorem unionOf_bounds {members : List Node} {depth : Nat} {texts : List String}
    (inside : ∀ member ∈ members, member.Within depth ∧ member.pointers ⊆ texts) :
    (unionOf members).Within (depth + 1) ∧ (unionOf members).pointers ⊆ texts := by
  rcases shape_unionOf members with shape | ⟨member, listed, shape⟩ | ⟨chosen, listed, shape⟩
  · exact Node.bounds_of_parts (by simp [shape]) (by simp [shape, Shape.parts])
  · obtain ⟨within, refers⟩ := Node.bounds_congr (inside member listed) shape
    exact ⟨within.mono (Nat.le_succ _), refers⟩
  · refine Node.bounds_of_parts (by simp [shape]) ?_
    intro part member
    rw [shape] at member
    obtain ⟨old, oldMember, rfl⟩ := List.mem_map.mp member
    exact Node.bounds_congr (inside old (listed oldMember)) rfl

theorem normalize_bounds {fragment : Json} {path : String} {node : Node}
    (done : normalize fragment path = .ok node) :
    node.Within fragment.size ∧ node.pointers ⊆ fragment.references := by
  induction h : fragment.size using Nat.strong_induction_on generalizing fragment path node with
  | _ n ih =>
    rcases normalize_cases done with ⟨accepts, rfl⟩ | ⟨members, read, inner, rfl, layered, normal, rfl⟩
    · obtain ⟨n, rfl⟩ : ∃ m, n = m + 1 := by
        cases fragment <;> simp only [Json.size] at h <;> exact ⟨_, h.symm⟩
      exact Node.bounds_of_parts (by simp) (by simp [Shape.parts])
    · obtain ⟨n, rfl⟩ : ∃ m, n = m + 1 := ⟨_, by rw [← h, Json.size]⟩
      -- each part is smaller than the fragment, and refers to what the fragment refers to
      have part {p : Part} {result : Node} (member : p ∈ read.parts)
          (done : normalize p.fragment p.path = .ok result) :
          result.Within n ∧ result.pointers ⊆ (Json.obj members).references := by
        have inner := layer_partOf layered p member
        have smaller := inner.size_lt
        obtain ⟨within, refers⟩ := ih _ (by omega) done rfl
        exact ⟨within.mono (by omega), List.Subset.trans refers inner.refers⟩
      cases read with
      | shape shape =>
        obtain ⟨result, mapped, same⟩ := except_bind_eq_ok.mp normal
        cases same
        refine Node.bounds_of_parts ?_ ?_
        · rintro p rfl
          obtain rfl := Shape.eq_ref_of_mapM mapped
          obtain ⟨m, listed, key, value⟩ := Members.exists_of_get? (get?_of_layer_ref layered)
          exact Json.mem_referencesOfMembers.mpr ⟨m, listed, .inl ⟨key, value⟩⟩
        · intro other member
          obtain ⟨p, listed, step⟩ := Shape.exists_part_of_mapM mapped member
          exact part listed step
      | union parts =>
        obtain ⟨nodes, mapped, same⟩ := except_bind_eq_ok.mp normal
        cases same
        have inside : ∀ other ∈ nodes,
            other.Within n ∧ other.pointers ⊆ (Json.obj members).references := by
          intro other member
          obtain ⟨p, listed, step⟩ := exists_of_mapM_eq_ok mapped member
          exact part listed step
        exact Node.bounds_congr (unionOf_bounds inside) rfl

theorem layer_error {members : Members} {path : String} {fault : Fault}
    (failed : layer members path = .error fault) : fault = .compoundKey := by
  unfold layer Layer.choose at failed
  split at failed
  case h_6 =>
    have typed := except_map_eq_error.mp failed
    unfold typeLayer at typed
    split at typed
    case h_3 => split at typed <;> cases typed
    case h_4 | h_5 =>
      cases typed
      rfl
    all_goals cases typed
  all_goals cases failed

/-- The only thing that a fragment can get wrong is to name a type by a list or an object. -/
theorem normalize_error {fragment : Json} {path : String} {fault : Fault}
    (failed : normalize fragment path = .error fault) : fault = .compoundKey := by
  induction h : fragment.size using Nat.strong_induction_on generalizing fragment path with
  | _ n ih =>
    cases fragment with
    | obj members =>
      rw [normalize_obj] at failed
      rcases except_bind_eq_error.mp failed with unread | ⟨read, layered, failed⟩
      · exact layer_error unread
      · rcases except_bind_eq_error.mp failed with failed | ⟨_, _, done⟩
        · have part {p : Part} (member : p ∈ read.parts)
              (failed : normalize p.fragment p.path = .error fault) : fault = .compoundKey :=
            ih _ (h ▸ (layer_partOf layered p member).size_lt) failed rfl
          cases read with
          | shape s =>
            rcases except_bind_eq_error.mp failed with failed | ⟨_, _, done⟩
            · obtain ⟨p, member, failed⟩ := Shape.exists_part_of_mapM_error failed
              exact part member failed
            · cases done
          | union parts =>
            rcases except_bind_eq_error.mp failed with failed | ⟨_, _, done⟩
            · obtain ⟨p, member, failed⟩ := exists_of_mapM_eq_error failed
              exact part member failed
            · cases done
        · cases done
    | bool accepts =>
      rw [normalize] at failed
      cases failed
    | _ =>
      rw [normalize] at failed
      · cases failed
      all_goals simp

end Schema

end TypedClient
