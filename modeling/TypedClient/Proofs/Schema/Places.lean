import TypedClient.Proofs.Schema.Merging
import TypedClient.Schema.Union

/-! Nodes without their places. A node remembers where its fragment was found; neither unions nor
merging look there. -/
namespace TypedClient.Schema

namespace Items

theorem map_overlay (f : α → β) (lower upper : Items α) :
    (lower.map f).overlay (upper.map f) = (lower.overlay upper).map f := by
  cases upper <;> rfl

end Items

namespace Fields

theorem setProperty_map (f : Node → Node) (properties : List (Key × Node)) (p : Key × Node) :
    setProperty (properties.map fun q => (q.1, f q.2)) (p.1, f p.2) =
      (setProperty properties p).map fun q => (q.1, f q.2) := by
  unfold setProperty
  rw [List.any_map, Function.comp_def]
  split
  · simp only [List.map_map, Function.comp_def]
    refine List.map_congr_left fun q _ => ?_
    split <;> rfl
  · simp

theorem map_overlay (f : Node → Node) (lower upper : Fields Node) :
    (lower.map f).overlay (upper.map f) = (lower.overlay upper).map f := by
  have properties (old : List (Key × Node)) :
      (upper.properties.map fun q => (q.1, f q.2)).foldl setProperty (old.map fun q => (q.1, f q.2)) =
        (upper.properties.foldl setProperty old).map fun q => (q.1, f q.2) := by
    induction upper.properties generalizing old with
    | nil => rfl
    | cons p rest ih => rw [List.map_cons, List.foldl_cons, setProperty_map, ih, List.foldl_cons]
  simp only [overlay, map, properties]
  cases upper.additional <;> rfl

end Fields

namespace Shape

/-- Laying shapes over each other moves their parts as they are. -/
theorem map_overlay? (f : Node → Node) (lower upper : Shape Node) :
    (lower.map f).overlay? (upper.map f) = (lower.overlay? upper).map (Shape.map f) := by
  cases lower with
  | object lower =>
    cases upper with
    | object upper => simp [map, overlay?, Fields.map_overlay]
    | _ => rfl
  | anyOf lower =>
    cases upper with
    | anyOf upper => cases upper <;> rfl
    | _ => rfl
  | array lower a b =>
    cases upper with
    | array upper c d => simp [map, overlay?, Items.map_overlay]
    | _ => rfl
  | tuple lower r =>
    cases upper with
    | tuple upper s =>
      cases upper <;> simp [map, overlay?, Items.map_overlay]
    | _ => rfl
  | _ => cases upper <;> rfl

end Shape

namespace Node

variable {node : Node}

def unplaced (node : Node) : Node :=
  { notes := { node.notes with path := "" }
    shape := node.shape.attach.map fun part => part.val.unplaced }
termination_by sizeOf node
decreasing_by exact sizeOf_part_lt part.property

theorem unplaced_eq (node : Node) : node.unplaced =
    { notes := { node.notes with path := "" }, shape := node.shape.map unplaced } := by
  rw [unplaced, Shape.attach_map]

@[simp] theorem notes_unplaced : node.unplaced.notes = { node.notes with path := "" } := by
  rw [unplaced_eq]

@[simp] theorem shape_unplaced : node.unplaced.shape = node.shape.map unplaced := by
  rw [unplaced_eq]

theorem unplaced_eq_iff {other : Node} : node.unplaced = other.unplaced ↔
    node.notes = { other.notes with path := node.notes.path } ∧
      node.shape.map unplaced = other.shape.map unplaced := by
  rw [unplaced_eq node, unplaced_eq other, mk.injEq]
  obtain ⟨⟨path, _, _, _, _⟩, shape⟩ := node
  obtain ⟨⟨path', _, _, _, _⟩, shape'⟩ := other
  simp

theorem unplaced_unplaced (node : Node) : node.unplaced.unplaced = node.unplaced := by
  induction node using induction_on_parts with
  | _ node ih =>
    rw [unplaced_eq_iff, shape_unplaced, Shape.map_map, Shape.map_congr node.shape ih]
    simp

@[simp] theorem nullable_unplaced : node.unplaced.nullable = node.nullable := by
  simp [nullable]

@[simp] theorem isNull_unplaced : node.unplaced.isNull = node.isNull := by
  cases shape : node.shape <;> simp [isNull, shape, Shape.map]

@[simp] theorem isAllOf_unplaced : node.unplaced.isAllOf = node.isAllOf := by
  cases shape : node.shape <;> simp [isAllOf, shape, Shape.map]

@[simp] theorem isObject_unplaced : node.unplaced.isObject = node.isObject := by
  cases shape : node.shape <;> simp [isObject, shape, Shape.map]

@[simp] theorem isUnconstrained_unplaced : node.unplaced.isUnconstrained = node.isUnconstrained := by
  cases shape : node.shape <;> simp [isUnconstrained, shape, Shape.map]

theorem withNullable_unplaced (node : Node) (nullable : Bool) :
    (node.withNullable nullable).unplaced = node.unplaced.withNullable nullable := by
  rw [unplaced_eq node, unplaced_eq (node.withNullable nullable)]
  rfl

theorem singleRef?_unplaced : node.unplaced.singleRef? = node.singleRef?.map unplaced := by
  unfold singleRef?
  rw [shape_unplaced]
  cases node.shape with
  | allOf members =>
    match members with
    | [] | _ :: _ :: _ => rfl
    | [member] => cases shape : member.shape <;> simp [Shape.map, shape]
  | _ => rfl

theorem length_subnodes_unplaced (node : Node) :
    node.unplaced.subnodes.length = node.subnodes.length := by
  induction node using induction_on_parts with
  | _ node ih =>
    rw [length_subnodes, length_subnodes, shape_unplaced, Shape.parts_map, List.map_map]
    congr 2
    exact List.map_congr_left ih

end Node

open Node

theorem unionOf_unplaced (members : List Node) :
    (unionOf members).unplaced = unionOf (members.map unplaced) := by
  have remaining : (members.map unplaced).filter (!·.isNull) =
      (members.filter (!·.isNull)).map unplaced := by
    simp [List.filter_map, Function.comp_def]
  simp only [unionOf, remaining, List.length_map]
  generalize members.filter (!·.isNull) = rest
  match rest with
  | [] => simp [unplaced_eq, Shape.map]
  | [member] => simp [withNullable_unplaced]
  | first :: second :: rest =>
    simp [unplaced_eq { notes := _, shape := _ }, Shape.map, withNullable_unplaced, Function.comp_def]

theorem annotatedBy_unplaced (node : Node) (notes : Notes) :
    (node.annotatedBy notes).unplaced = node.unplaced.annotatedBy { notes with path := "" } := by
  rw [unplaced_eq, unplaced_eq]
  rfl

theorem above_unplaced (node : Node) (notes : Notes) :
    (node.above notes).unplaced = node.unplaced.above { notes with path := "" } := by
  rw [unplaced_eq, unplaced_eq]
  rfl

theorem overlay_unplaced (acc member : Node) :
    (acc.overlay member).unplaced = acc.unplaced.overlay member.unplaced := by
  unfold Node.overlay
  simp only [isUnconstrained_unplaced, isObject_unplaced, shape_unplaced, Shape.map_overlay?,
    notes_unplaced, ← annotatedBy_unplaced, ← above_unplaced]
  split
  · rfl
  split
  · rfl
  cases acc.shape.overlay? member.shape with
  | none =>
    dsimp only [Option.map_none]
    split <;> rfl
  | some shape =>
    rw [annotatedBy_unplaced, unplaced_eq { notes := _, shape := _ }]
    simp [annotatedBy, Notes.overlay]

section Merging

variable (lookup : Json → Except Fault (Option Node))

theorem map_unplaced_eq {first second : Except Fault Node}
    (same : unplaced <$> first = unplaced <$> second) :
    (∃ fault, first = .error fault ∧ second = .error fault) ∨
      ∃ node other, first = .ok node ∧ second = .ok other ∧ node.unplaced = other.unplaced := by
  cases first <;> cases second <;> simp_all

theorem map_foldlM {step : β → α → Except Fault β} {step' : γ → α → Except Fault γ} {f : β → γ}
    (same : ∀ acc item, f <$> step acc item = step' (f acc) item) (items : List α) (init : β) :
    f <$> items.foldlM step init = items.foldlM step' (f init) := by
  induction items generalizing init with
  | nil => rfl
  | cons item rest ih =>
    rw [List.foldlM_cons, List.foldlM_cons, ← same, map_bind, bind_map_left]
    simp only [ih]

theorem mergeMember_unplaced (flatten : Node → Except Fault (Option Node)) (acc : Option Node)
    (member : Node) : Option.map unplaced <$> mergeMember flatten acc member =
      mergeMember (fun member => Option.map unplaced <$> flatten member) (acc.map unplaced) member := by
  rw [mergeMember, mergeMember, map_bind, bind_map_left]
  refine bind_congr fun flat => ?_
  cases acc <;> cases flat <;> simp [overlay_unplaced]

theorem mergeWith_unplaced (flatten : Node → Except Fault (Option Node)) (members : List Node) :
    unplaced <$> mergeWith flatten members =
      mergeWith (fun member => Option.map unplaced <$> flatten member) members := by
  have folded := map_foldlM (mergeMember_unplaced flatten) members none
  rw [Option.map_none] at folded
  rw [mergeWith, mergeWith, ← folded, map_bind, bind_map_left]
  refine bind_congr fun last => ?_
  cases last with
  | none => simp [unplaced_eq, Shape.map]
  | some node => simp

/-- Members are merged alike if each leads to the same as it does without its places. -/
theorem mergeWith_map_unplaced {flatten : Node → Except Fault (Option Node)}
    (same : ∀ member, Option.map unplaced <$> flatten member.unplaced =
      Option.map unplaced <$> flatten member) (members : List Node) :
    unplaced <$> mergeWith flatten (members.map unplaced) =
      unplaced <$> mergeWith flatten members := by
  have moved (acc : Option Node) (member : Node) :
      mergeMember (fun member => Option.map unplaced <$> flatten member) acc member.unplaced =
        mergeMember (fun member => Option.map unplaced <$> flatten member) acc member := by
    simp only [mergeMember, same]
  rw [mergeWith_unplaced, mergeWith_unplaced, mergeWith, mergeWith, List.foldlM_map]
  simp only [moved]

theorem flatten_unplaced (fuel : Nat) (seen : List Key) (node : Node) :
    Option.map unplaced <$> flatten lookup fuel seen node.unplaced =
      Option.map unplaced <$> flatten lookup fuel seen node := by
  induction fuel generalizing seen node with
  | zero => rfl
  | succ fuel ih =>
    unfold flatten
    rw [shape_unplaced]
    cases node.shape with
    | ref pointer => rfl
    | allOf members =>
      rcases map_unplaced_eq (mergeWith_map_unplaced (ih seen) members) with
        ⟨fault, failed, failed'⟩ | ⟨inner, inner', merged, merged', same⟩
      · simp [Shape.map, failed, failed']
      · simp [Shape.map, merged, merged', annotatedBy_unplaced, same]
    | _ => simp [Shape.map, unplaced_unplaced]

theorem flattenAllOf_unplaced (fuel : Nat) (node : Node) :
    unplaced <$> flattenAllOf lookup fuel node.unplaced =
      unplaced <$> flattenAllOf lookup fuel node := by
  unfold flattenAllOf mergeAllOf
  rw [shape_unplaced]
  cases node.shape with
  | allOf members =>
    rcases map_unplaced_eq (mergeWith_map_unplaced (flatten_unplaced lookup fuel []) members) with
      ⟨fault, failed, failed'⟩ | ⟨inner, inner', merged, merged', same⟩
    · simp [Shape.map, failed, failed']
    · simp [Shape.map, merged, merged', annotatedBy_unplaced, same]
  | _ => rfl

end Merging

end TypedClient.Schema
