import TypedClient.Proofs.Schema.Places

/-! How a fragment is read. Its layer is known from its keywords and from what becomes of its parts;
without its places a node does not depend on where its fragment was found. -/
namespace TypedClient.Schema

open Node

theorem map_mapM {f : α → Except Fault β} {g : β → γ} (items : List α) :
    List.map g <$> items.mapM f = items.mapM fun item => g <$> f item := by
  induction items with
  | nil => rfl
  | cons item rest ih => simp [List.mapM_cons, ← ih]

theorem Shape.map_mapM {f : α → Except Fault β} {g : β → γ} (shape : Shape α) :
    Shape.map g <$> shape.mapM f = shape.mapM fun part => g <$> f part := by
  have items (items : Items α) : Items.map g <$> items.mapM f = items.mapM fun part => g <$> f part := by
    cases items <;> simp [Items.mapM, Items.map]
  cases shape with
  | object fields =>
    have properties (entries : List (Key × α)) :
        (entries.mapM fun p => (fun value => (p.1, g value)) <$> f p.2) =
          List.map (fun q => (q.1, g q.2)) <$> entries.mapM fun p => Prod.mk p.1 <$> f p.2 := by
      rw [Schema.map_mapM]
      simp
    have additional (other : Option α) :
        (other.mapM fun part => g <$> f part) = Option.map g <$> other.mapM f := by
      cases other <;> simp [Option.mapM]
    simp [mapM, map, Fields.map, properties, additional]
  | array part minItems maxItems => simp [mapM, map, ← items]
  | tuple lead rest => simp [mapM, map, ← items, ← Schema.map_mapM]
  | allOf | anyOf => simp [mapM, map, ← Schema.map_mapM]
  | primitive | enum | const | ref | always => rfl

namespace Layer

def map (f : α → β) : Layer α → Layer β
  | .shape s => .shape (s.map f)
  | .union members => .union (members.map f)

theorem map_id (layer : Layer α) : layer.map id = layer := by
  cases layer with
  | shape s => rw [map, Shape.map_id]
  | union members => simp [map]

/-- Which rule matches does not depend on the parts. -/
theorem map_choose (f : α → β) (pointer value : Option Json) (values : Json)
    (allOf union : Option (List α)) (typed : Except Fault (Shape α)) :
    Layer.map f <$> choose pointer value values allOf union typed =
      choose pointer value values (allOf.map (List.map f)) (union.map (List.map f))
        (Shape.map f <$> typed) := by
  cases pointer with
  | some pointer => rfl
  | none =>
    cases value with
    | some value => rfl
    | none =>
      cases values <;> cases allOf <;> cases union <;> cases typed <;> rfl

theorem node_map (f : α → β) (g : β → Except Fault Node) (layer : Layer α) :
    (layer.map f).node g = layer.node fun part => g (f part) := by
  cases layer with
  | shape s => simp [map, node, Shape.mapM_map]
  | union members => simp [map, node, List.mapM_map, Function.comp_def]

theorem node_congr {f g : α → Except Fault Node} (layer : Layer α)
    (same : ∀ part ∈ layer.parts, f part = g part) : layer.node f = layer.node g := by
  have parts : (fun part : { part // part ∈ layer.parts } => f part.val) = fun part => g part.val :=
    funext fun part => same part.val part.property
  rw [← node_attach f, parts, node_attach]

theorem unplaced_node (f : α → Except Fault Node) (layer : Layer α) :
    unplaced <$> layer.node f = layer.node fun part => unplaced <$> f part := by
  cases layer with
  | shape s => simp [node, ← Shape.map_mapM, unplaced_eq]
  | union members => simp [node, ← map_mapM, unionOf_unplaced]

end Layer

section Keywords

/-- Keywords whose values are no schemas. -/
def plainKeywords : List String :=
  ["$ref", "const", "enum", "required", "minItems", "maxItems", "format", "minLength", "maxLength",
    "pattern", "minimum", "maximum", "exclusiveMinimum", "exclusiveMaximum", "multipleOf"]

/-- Keywords that tell a type by being there. -/
def tellingKeywords : List String :=
  ["properties", "additionalProperties", "items", "prefixItems"]

/-- Two fragments have keywords that read alike, as far as a function of their parts can tell. -/
structure ReadAlike (f : Part → β) (first second : Members) (path path' : String) : Prop where
  plain : ∀ name ∈ plainKeywords, first.get? name = second.get? name
  uses : ∀ name ∈ tellingKeywords, first.has name = second.has name
  type : (foldType (first.get "type")).1 = (foldType (second.get "type")).1
  types : (typesLayer first path).map (List.map f) = (typesLayer second path').map (List.map f)
  lists : ∀ name ∈ ["allOf", "anyOf", "oneOf", "prefixItems", "items"],
    (listAt? first name path).map (List.map f) = (listAt? second name path').map (List.map f)
  items : ∀ name ∈ ["items", "additionalItems"],
    (itemsAt first name path).map f = (itemsAt second name path').map f
  properties : (propertiesAt? first path).map (List.map fun p => (p.1, f p.2)) =
    (propertiesAt? second path').map (List.map fun p => (p.1, f p.2))
  additional : (additionalAt? first path).map f = (additionalAt? second path').map f

variable {f : Part → β} {first second : Members} {path path' : String}

namespace ReadAlike

theorem get (alike : ReadAlike f first second path path') (name : String)
    (plain : name ∈ plainKeywords) : first.get name = second.get name := by
  rw [Members.get, Members.get, alike.plain name plain]

theorem has (alike : ReadAlike f first second path path') (name : String)
    (read : name ∈ plainKeywords ++ tellingKeywords) : first.has name = second.has name := by
  rcases List.mem_append.mp read with plain | holds
  · rw [Members.has, Members.has, alike.plain name plain]
  · exact alike.uses name holds

theorem typeOf (alike : ReadAlike f first second path path') : typeOf first = typeOf second := by
  have uses (names : List String)
      (read : ∀ name ∈ names, name ∈ plainKeywords ++ tellingKeywords) :
      (names.any fun name => first.has name) = names.any fun name => second.has name := by
    rw [Bool.eq_iff_iff, List.any_eq_true, List.any_eq_true]
    refine exists_congr fun name => and_congr_right fun member => ?_
    rw [alike.has name (read name member)]
  have objects := uses ["properties", "additionalProperties"] (by decide)
  have arrays := uses ["items", "prefixItems"] (by decide)
  have strings := uses ["minLength", "maxLength", "pattern"] (by decide)
  have numbers := uses
    ["minimum", "maximum", "exclusiveMinimum", "exclusiveMaximum", "multipleOf"] (by decide)
  have inferred : inferType first = inferType second := by
    simp only [inferType, alike.get "required" (by decide), objects, arrays, strings, numbers]
  rw [Schema.typeOf, Schema.typeOf, alike.type, inferred]

theorem readPrimitive (alike : ReadAlike f first second path path') (type : PrimitiveType) :
    readPrimitive first type = readPrimitive second type := by
  unfold Schema.readPrimitive
  dsimp only
  rw [alike.get "format" (by decide), alike.get "minLength" (by decide),
    alike.get "maxLength" (by decide), alike.get "pattern" (by decide),
    alike.get "minimum" (by decide), alike.get "maximum" (by decide),
    alike.get "exclusiveMinimum" (by decide), alike.get "exclusiveMaximum" (by decide),
    alike.get "multipleOf" (by decide)]

theorem arrayLayer (alike : ReadAlike f first second path path') :
    (arrayLayer first path).map f = (arrayLayer second path').map f := by
  have lead := alike.lists "prefixItems" (by decide)
  have listed := alike.lists "items" (by decide)
  have items := alike.items "items" (by decide)
  have further := alike.items "additionalItems" (by decide)
  unfold Schema.arrayLayer
  rw [alike.get "minItems" (by decide), alike.get "maxItems" (by decide)]
  generalize listAt? first "prefixItems" path = a, listAt? second "prefixItems" path' = b at lead ⊢
  generalize listAt? first "items" path = c, listAt? second "items" path' = d at listed ⊢
  cases a <;> cases b <;> cases c <;> cases d <;> simp_all [Shape.map]

theorem objectLayer (alike : ReadAlike f first second path path') :
    (objectLayer first path).map f = (objectLayer second path').map f := by
  have required : requiredOf first = requiredOf second := by
    rw [requiredOf, requiredOf, alike.get "required" (by decide)]
  have properties := alike.properties
  have additional := alike.additional
  unfold Schema.objectLayer
  generalize propertiesAt? first path = a, propertiesAt? second path' = b at properties ⊢
  cases a <;> cases b <;> simp_all [Shape.map, Fields.map]

theorem typeLayer (alike : ReadAlike f first second path path') (type : Json) :
    Shape.map f <$> typeLayer first type path = Shape.map f <$> typeLayer second type path' := by
  unfold Schema.typeLayer
  split
  · exact congrArg Except.ok alike.arrayLayer
  · exact congrArg Except.ok alike.objectLayer
  · split
    · rw [alike.readPrimitive]
    · rfl
  all_goals rfl

/-- The layer is known from the keywords. -/
theorem layer (alike : ReadAlike f first second path path') :
    Layer.map f <$> layer first path = Layer.map f <$> layer second path' := by
  unfold Schema.layer unionAt?
  rw [Layer.map_choose, Layer.map_choose, alike.typeOf, alike.typeLayer, alike.plain "$ref" (by decide),
    alike.plain "const" (by decide), alike.get "enum" (by decide), Option.map_or,
    Option.map_or, Option.map_or, Option.map_or, alike.types, alike.lists "allOf" (by decide),
    alike.lists "anyOf" (by decide), alike.lists "oneOf" (by decide)]

end ReadAlike

end Keywords

section Places

theorem annotate_unplaced (node : Node) (members : Members) (path : String) :
    (annotate node members path).unplaced = annotate node.unplaced members "" := by
  rw [unplaced_eq (annotate node members path)]
  simp [annotate]

theorem map_parts (g : Json → β) (items : List Json) (path : String) :
    (parts items path).map (fun part => g part.fragment) = items.map g :=
  List.ext_getElem (by simp [parts]) (by simp [parts])

/-- Places do not matter to what a layer holds. -/
theorem readAlike_self (g : Json → β) (members : Members) (path path' : String) :
    ReadAlike (fun part => g part.fragment) members members path path' where
  plain _ _ := rfl
  uses _ _ := rfl
  type := rfl
  types := by
    unfold typesLayer
    split <;> simp
  lists name _ := by
    unfold listAt?
    split <;> simp [map_parts]
  items name _ := by
    unfold itemsAt
    split <;> simp [Items.map]
  properties := by
    unfold propertiesAt?
    split <;> simp
  additional := by
    unfold additionalAt?
    split <;> simp

def form (fragment : Json) : Except Fault Node :=
  unplaced <$> normalize fragment ""

theorem unplaced_form (fragment : Json) : unplaced <$> form fragment = form fragment := by
  simp [form, unplaced_unplaced]

/-- The form of a fragment by those of its parts, which its layer at some place holds. -/
def formOver (members : Members) (path : String) : Except Fault Node := do
  let node ← (← Layer.map (fun part => form part.fragment) <$> layer members path).node id
  return annotate node members ""

theorem formOver_path (members : Members) (path path' : String) :
    formOver members path = formOver members path' := by
  rw [formOver, formOver, (readAlike_self form members path path').layer]

theorem unplaced_normalize_obj {members : Members} {path : String}
    (parts : ∀ read, layer members path = .ok read → ∀ part ∈ read.parts,
      unplaced <$> normalize part.fragment part.path = form part.fragment) :
    unplaced <$> normalize (.obj members) path = formOver members path := by
  rw [normalize_obj, formOver]
  cases layered : layer members path with
  | error fault => rfl
  | ok read =>
    have nodes : unplaced <$> (read.node fun part => normalize part.fragment part.path) =
        (read.map fun part => form part.fragment).node id := by
      rw [Layer.unplaced_node, Layer.node_map]
      exact read.node_congr (parts read layered)
    change unplaced <$> (read.node _ >>= fun node => pure (annotate node members path)) =
      (read.map _).node id >>= fun node => pure (annotate node members "")
    rw [← nodes, map_bind, bind_map_left]
    simp only [map_pure, annotate_unplaced]

/-- A node is the same without its places, wherever its fragment is found. -/
theorem unplaced_normalize (fragment : Json) (path : String) :
    unplaced <$> normalize fragment path = form fragment := by
  induction h : fragment.size using Nat.strong_induction_on generalizing fragment path with
  | _ n ih =>
    cases fragment with
    | obj members =>
      -- the parts are smaller, so that their forms are known at every place
      have here (path : String) : unplaced <$> normalize (.obj members) path = formOver members path :=
        unplaced_normalize_obj fun read layered part member =>
          ih _ (h ▸ (layer_partOf layered part member).size_lt) _ _ rfl
      rw [form, here, here, formOver_path members path ""]
    | _ => simp [form, normalize, unplaced_eq, Shape.map]

theorem form_obj (members : Members) : form (.obj members) = formOver members "" :=
  unplaced_normalize_obj fun _ _ part _ => unplaced_normalize part.fragment part.path

end Places

end TypedClient.Schema
