import TypedClient.Proofs.Module.Assembly
import TypedClient.Proofs.Walk.Placement

/-! The methods of a client. An operation has a method under its name, and a second one if it
streams. Names are not made unique: camel case drops what tells ids apart, and the key of a stream
may be the name of another operation. The keys of a group are distinct if neither happens in it. -/
namespace TypedClient

open Render (Code)

namespace Render.Code

theorem text_joined_plain (separator head : String) (parts : List Code) :
    ∃ rest, (joined separator (plain head :: parts)).text = head ++ rest := by
  cases parts with
  | nil => exact ⟨"", by simp [joined, plain, text, Piece.content]⟩
  | cons next others =>
    rw [joined_cons_cons]
    exact ⟨separator ++ (joined separator (next :: others)).text,
      by simp [plain, text, Piece.content]⟩

end Render.Code

namespace Client

open Render.Code (plain joined)

variable {op a b : Operation} {key : String}

def keys (op : Operation) : List String :=
  (interfaceMethods op).map (·.id)

theorem mem_keys : key ∈ keys op ↔
    key = op.id ∨ (named op.streamSchema).isSome = true ∧ key = op.id ++ "Stream" := by
  unfold keys interfaceMethods
  cases named op.streamSchema <;> simp

theorem stream_ne (id : String) : id ++ "Stream" ≠ id := by
  intro same
  have lengths := congrArg String.length same
  simp [String.length_append] at lengths

theorem nodup_keys (op : Operation) : (keys op).Nodup := by
  unfold keys interfaceMethods
  cases named op.streamSchema with
  | none => simp
  | some event => simpa using (stream_ne op.id).symm

theorem disjoint_keys_iff : (keys a).Disjoint (keys b) ↔ a.id ≠ b.id ∧
    ((named a.streamSchema).isSome = true → a.id ++ "Stream" ≠ b.id) ∧
      ((named b.streamSchema).isSome = true → b.id ++ "Stream" ≠ a.id) := by
  constructor
  · intro disjoint
    refine ⟨fun same => ?_, fun streams same => ?_, fun streams same => ?_⟩
    · exact disjoint (mem_keys.mpr (.inl rfl)) (mem_keys.mpr (.inl same))
    · exact disjoint (mem_keys.mpr (.inr ⟨streams, rfl⟩)) (mem_keys.mpr (.inl same))
    · exact disjoint (mem_keys.mpr (.inl same)) (mem_keys.mpr (.inr ⟨streams, rfl⟩))
  · rintro ⟨ids, first, second⟩ key ofA ofB
    rcases mem_keys.mp ofA with rfl | ⟨streams, rfl⟩ <;>
      rcases mem_keys.mp ofB with same | ⟨streams', same⟩
    · exact ids same
    · exact second streams' same.symm
    · exact first streams same
    · exact ids (String.append_left_inj _ |>.mp same)

/-- The keys of different operations are distinct if no name is another one or is the key of a
stream. -/
theorem nodup_keys_iff {group : List Operation} (distinct : group.Nodup) :
    (group.flatMap keys).Nodup ↔ ∀ a ∈ group, ∀ b ∈ group, a ≠ b → a.id ++ "" ≠ b.id ∧
      ((named a.streamSchema).isSome = true → a.id ++ "Stream" ≠ b.id) := by
  rw [List.nodup_flatMap]
  constructor
  · rintro ⟨-, apart⟩ a memberA b memberB other
    have : Std.Symm (Function.onFun List.Disjoint keys) := ⟨fun _ _ => List.Disjoint.symm⟩
    obtain ⟨ids, streams, -⟩ := disjoint_keys_iff.mp (apart.forall memberA memberB other)
    exact ⟨by simpa using ids, streams⟩
  · intro each
    refine ⟨fun op _ => nodup_keys op, distinct.pairwise_of_forall_ne fun a ofA b ofB other => ?_⟩
    obtain ⟨ids, streams⟩ := each a ofA b ofB other
    exact disjoint_keys_iff.mpr ⟨by simpa using ids, streams, (each b ofB a ofA other.symm).2⟩

def Opens (key : String) (code : Code) : Prop :=
  ∃ rest, code.text = "  \"" ++ key ++ "\": (" ++ rest

theorem methodCode_opens (op : Operation) (function suffix : String) (steps response : List Code) :
    Opens (op.id ++ suffix) (methodCode op function suffix steps response) := by
  let args := ", ".intercalate (op.pathIds ++ ["options"])
  have opens (parts : List Code) : Opens (op.id ++ suffix)
      (joined "\n" (plain ("  \"" ++ (op.id ++ suffix) ++ "\": (" ++ args ++ ") =>") :: parts)) := by
    obtain ⟨rest, same⟩ := Code.text_joined_plain "\n" _ parts
    exact ⟨_, same.trans (by simp only [String.append_assoc]; rfl)⟩
  unfold methodCode
  dsimp only
  split
  · exact opens _
  · exact opens _

theorem exists_requestFunction {method : String} (known : method ∈ Walk.methodNames) :
    ∃ function, requestFunction method = .ok function := by
  simp only [Walk.methodNames, List.mem_cons, List.not_mem_nil, or_false] at known
  rcases known with rfl | rfl | rfl | rfl | rfl | rfl | rfl | rfl <;> exact ⟨_, rfl⟩

/-- The object has the methods that the interface describes. -/
theorem methods_opens (known : op.method ∈ Walk.methodNames) :
    ∃ codes, methods op = .ok codes ∧ List.Forall₂ Opens (keys op) codes := by
  obtain ⟨function, found⟩ := exists_requestFunction known
  have effect := methodCode_opens op function "" (pipeline op true) (matchStatus op)
  rw [String.append_empty] at effect
  unfold methods keys interfaceMethods
  rw [found]
  cases named op.streamSchema with
  | none => exact ⟨_, rfl, .cons effect .nil⟩
  | some event =>
    have stream := methodCode_opens op function "Stream" (pipeline op false) (decodeEvents event)
    exact ⟨_, rfl, .cons effect (.cons stream .nil)⟩

theorem mapM_methods_opens {group : List Operation}
    (known : ∀ op ∈ group, op.method ∈ Walk.methodNames) :
    ∃ codes, group.mapM methods = .ok codes ∧
      List.Forall₂ Opens (group.flatMap keys) codes.flatten := by
  induction group with
  | nil => exact ⟨[], rfl, .nil⟩
  | cons op rest ih =>
    rw [List.forall_mem_cons] at known
    obtain ⟨codes, made, own⟩ := methods_opens known.1
    obtain ⟨others, mapped, each⟩ := ih known.2
    refine ⟨codes :: others, ?_, List.rel_append own each⟩
    rw [List.mapM_cons, made, mapped]
    rfl

end Client

namespace Module

/-- A group holds its operations in the order in which they are given. -/
theorem groupByTag_sublist {operations : List Operation} {groups : List (Key × List Operation)}
    (done : groupByTag operations = .ok groups) : ∀ group ∈ groups, group.2.Sublist operations := by
  refine except_foldlM_along (P := fun done groups => ∀ group ∈ groups, group.2.Sublist done)
    ?_ (by simp) done
  intro earlier op before after known step group grouped
  unfold addToGroup at step
  split at step
  · cases step
  · obtain ⟨key, -, step⟩ := except_bind_eq_ok.mp step
    split at step
    · cases step
      obtain ⟨old, listed, rfl⟩ := List.mem_map.mp grouped
      split
      · exact (known old listed).append (.refl [op])
      · exact (known old listed).trans (List.sublist_append_left earlier [op])
    · cases step
      rcases List.mem_append.mp grouped with listed | new
      · exact (known group listed).trans (List.sublist_append_left earlier [op])
      · rw [List.mem_singleton.mp new]
        exact List.sublist_append_right earlier [op]

end Module

namespace Walk

open Name

section Names

variable {document : Json} {a b op : Operation} {suffix : String}

/-- The id that a document gives to an operation. An empty one counts as none. -/
def operationId? (document : Json) (op : Operation) : Option Json :=
  let id := (written document op).get "operationId"
  if id.truthy then some id else none

/-- The name of the second operation is that of the first one with the suffix behind it. -/
inductive Extends (document : Json) (suffix : String) (a b : Operation) : Prop
  | ids {x y : Json} {name : String} (first : operationId? document a = some x)
      (second : operationId? document b = some y) (spelt : camelizeValue x = .ok name)
      (same : camelizeValue y = .ok (name ++ suffix))
  | paths (first : operationId? document a = none) (second : operationId? document b = none)
      (method : b.method = a.method) (path : b.path = a.path ++ suffix)
  | idThenPath {x : Json} {name : String} (first : operationId? document a = some x)
      (second : operationId? document b = none) (spelt : camelizeValue x = .ok name)
      (same : Text.upperText b.method ++ b.path = name ++ suffix)
  | pathThenId {y : Json} (first : operationId? document a = none)
      (second : operationId? document b = some y)
      (same : camelizeValue y = .ok (Text.upperText a.method ++ a.path ++ suffix))

/-- No method in capitals is the start of another one. -/
theorem upperText_append_inj {m n p q : String} (first : m ∈ methodNames)
    (second : n ∈ methodNames) :
    Text.upperText m ++ p = Text.upperText n ++ q ↔ m = n ∧ p = q := by
  constructor
  · intro same
    have table : ∀ m ∈ methodNames, ∀ n ∈ methodNames,
        (Text.upperText m).toList <+: (Text.upperText n).toList → m = n := by decide +kernel
    have lists : (Text.upperText m).toList ++ p.toList = (Text.upperText n).toList ++ q.toList := by
      rw [← String.toList_append, same, String.toList_append]
    have methods : m = n := by
      rcases List.append_eq_append_iff.mp lists with ⟨more, longer, -⟩ | ⟨more, longer, -⟩
      · exact table m first n second ⟨more, longer.symm⟩
      · exact (table n second m first ⟨more, longer.symm⟩).symm
    subst methods
    exact ⟨rfl, String.append_right_inj _ |>.mp same⟩
  · rintro ⟨rfl, rfl⟩
    rfl

/-- The name of an operation is its id in camel case, or else its method and path. -/
theorem Describes.name (describes : Describes document (written document op) op) :
    (∀ x, operationId? document op = some x → camelizeValue x = .ok op.id) ∧
      (operationId? document op = none → op.id = Text.upperText op.method ++ op.path) := by
  have named := describes.id
  unfold operationName at named
  unfold operationId?
  dsimp only
  split at named
  · next given =>
    rw [if_pos given]
    exact ⟨fun x same => Option.some.inj same ▸ named, nofun⟩
  · next missing =>
    rw [if_neg missing]
    exact ⟨nofun, fun _ => (Except.ok.inj named).symm⟩

theorem extends_iff (ofA : Describes document (written document a) a)
    (ofB : Describes document (written document b) b) (methodA : a.method ∈ methodNames)
    (methodB : b.method ∈ methodNames) : Extends document suffix a b ↔ a.id ++ suffix = b.id := by
  constructor
  · intro extends'
    cases extends' with
    | ids first second spelt same =>
      cases spelt.symm.trans (ofA.name.1 _ first)
      exact Except.ok.inj (same.symm.trans (ofB.name.1 _ second))
    | paths first second method path =>
      rw [ofA.name.2 first, ofB.name.2 second, method, path, String.append_assoc]
    | idThenPath first second spelt same =>
      cases spelt.symm.trans (ofA.name.1 _ first)
      rw [ofB.name.2 second, same]
    | pathThenId first second same =>
      rw [ofA.name.2 first]
      exact Except.ok.inj (same.symm.trans (ofB.name.1 _ second))
  · intro same
    cases first : operationId? document a with
    | some x =>
      have spelt := ofA.name.1 x first
      cases second : operationId? document b with
      | some y => exact .ids first second spelt (same ▸ ofB.name.1 y second)
      | none => exact .idThenPath first second spelt (ofB.name.2 second ▸ same.symm)
    | none =>
      rw [ofA.name.2 first] at same
      cases second : operationId? document b with
      | some y => exact .pathThenId first second (same ▸ ofB.name.1 y second)
      | none =>
        rw [ofB.name.2 second, String.append_assoc, upperText_append_inj methodA methodB] at same
        exact .paths first second same.1.symm same.2.symm

theorem Extends.of_paths (extends' : Extends document suffix a b)
    (first : operationId? document a = none) (second : operationId? document b = none) :
    b.method = a.method ∧ b.path = a.path ++ suffix := by
  cases extends' with
  | ids other | idThenPath other => cases first.symm.trans other
  | pathThenId _ other => cases second.symm.trans other
  | paths _ _ method path => exact ⟨method, path⟩

/-- An id that is a text has nothing to do with a path that has a symbol. -/
theorem not_extends_of_symbol {text : String} (plain : Alphanumeric suffix)
    (first : operationId? document a = some (.str text)) (second : operationId? document b = none)
    (symbol : ¬ Alphanumeric b.path) :
    ¬ Extends document suffix a b ∧ ¬ Extends document suffix b a := by
  have within (before after : String) {whole : String} (letters : Alphanumeric whole)
      (same : whole = before ++ b.path ++ after) : False := by
    refine symbol fun c member => letters c ?_
    simp [same, member]
  constructor
  · intro extends'
    cases extends' with
    | ids _ other | pathThenId _ other => cases second.symm.trans other
    | paths other => cases first.symm.trans other
    | idThenPath given _ spelt same =>
      cases first.symm.trans given
      cases spelt
      refine within (Text.upperText b.method) "" ((alphanumeric_camelize text).append plain) ?_
      rw [String.append_empty, same]
  · intro extends'
    cases extends' with
    | ids other | idThenPath other => cases second.symm.trans other
    | paths _ other => cases first.symm.trans other
    | pathThenId _ given same =>
      cases first.symm.trans given
      exact within _ suffix (alphanumeric_camelize text) (Except.ok.inj same)

end Names

variable {env : Env} {operations group : List Operation} {groups : List (Key × List Operation)}
  {tag : Key} {final : Session}

/-- What an operation of a walk streams has a name. -/
theorem walk_streams (done : walk env {} = .ok operations final) {op : Operation}
    (member : op ∈ operations) : named op.streamSchema = op.streamSchema := by
  obtain ⟨evolves, fit⟩ := (walk_evolves env Store.sound_empty).of_ok done
  cases given : op.streamSchema with
  | none => rfl
  | some name =>
    have declared := (fit op member).streamSchema name given
    exact Operation.named_eq_some.mpr ⟨rfl, fun empty => evolves.sound.nonempty (empty ▸ declared)⟩

/-- The methods of a group have the same keys in the object as in the interface. The keys are
distinct unless two operations have the same name, or one that streams has a name which the other one
extends by the suffix of streams. Two operations without ids have different names, and an id has
nothing to do with a path that has a symbol. -/
theorem walk_keys_nodup_iff (unique : env.document.uniqueKeys = true)
    (done : walk env {} = .ok operations final)
    (grouped : Module.groupByTag operations = .ok groups) (member : (tag, group) ∈ groups) :
    (∃ codes, group.mapM Client.methods = .ok codes ∧
      List.Forall₂ Client.Opens (group.flatMap Client.keys) codes.flatten) ∧
    ((group.flatMap Client.keys).Nodup ↔ ∀ a ∈ group, ∀ b ∈ group, a ≠ b →
      ¬ Extends env.document "" a b ∧
        (Streams env.document (written env.document a) → ¬ Extends env.document "Stream" a b)) ∧
    (∀ a ∈ group, ∀ b ∈ group, a ≠ b → operationId? env.document a = none →
      operationId? env.document b = none → ¬ Extends env.document "" a b) ∧
    ∀ a b text, operationId? env.document a = some (.str text) →
      operationId? env.document b = none → ¬ Alphanumeric b.path → ∀ suffix ∈ ["", "Stream"],
        ¬ Extends env.document suffix a b ∧ ¬ Extends env.document suffix b a := by
  have within : group.Sublist operations := Module.groupByTag_sublist grouped _ member
  obtain ⟨places, each⟩ := walk_placed unique _ _ _ done
  have distinct : group.Nodup := within.nodup (List.Nodup.of_map _ places)
  have known (op) (listed : op ∈ group) := each op (within.subset listed)
  refine ⟨Client.mapM_methods_opens fun op listed => (known op listed).1, ?_, ?_, ?_⟩
  · rw [Client.nodup_keys_iff distinct]
    refine forall₂_congr fun a ofA => forall₂_congr fun b ofB => ?_
    have extends_iff {suffix : String} : Extends env.document suffix a b ↔ a.id ++ suffix = b.id :=
      Walk.extends_iff (known a ofA).2 (known b ofB).2 (known a ofA).1 (known b ofB).1
    rw [extends_iff, extends_iff, walk_streams done (within.subset ofA), (known a ofA).2.streams]
  · intro a ofA b ofB other first second extends'
    obtain ⟨method, path⟩ := extends'.of_paths first second
    refine other (List.inj_on_of_nodup_map places (within.subset ofA) (within.subset ofB) ?_)
    rw [method, path, String.append_empty]
  · intro a b text first second symbol suffix listed
    refine not_extends_of_symbol ?_ first second symbol
    simp only [List.mem_cons, List.not_mem_nil, or_false] at listed
    rcases listed with rfl | rfl <;> decide

def tagged (paths : List (Key × String × Members)) : Json :=
  .obj [("openapi", .str "3.0.0"),
    ("paths", .obj (paths.map fun path => (path.1, .obj [(.text path.2.1,
      .obj (("tags", .arr [.str "pets"]) :: path.2.2))])))]

def events : Json :=
  .obj [("content", .obj [("text/event-stream",
    .obj [("schema", .obj [("type", .str "string")])])])]

def groupKeys (operations : List Operation) : Option (List (List String)) :=
  (Module.groupByTag operations).toOption.map (·.map fun group => group.2.flatMap Client.keys)

theorem exists_of_groupKeys {keys : List String} (found : groupKeys operations = some [keys]) :
    ∃ tag group, Module.groupByTag operations = .ok [(tag, group)] ∧
      group.flatMap Client.keys = keys := by
  unfold groupKeys at found
  cases grouped : Module.groupByTag operations with
  | error fault => simp [grouped, Except.toOption] at found
  | ok groups =>
    obtain ⟨⟨tag, group⟩, rfl, same⟩ : ∃ entry, groups = [entry] ∧
        entry.2.flatMap Client.keys = keys := by
      simpa [grouped, Except.toOption, List.map_eq_singleton_iff] using found
    exact ⟨tag, group, rfl, same⟩

/-- Pets are listed and watched under an id, and made without one. -/
def watchedPets : Json :=
  tagged [("/pets", "get",
      [("operationId", .str "list_pets"), ("responses", .obj [("200", events)])]),
    ("/pets/new", "post", [("responses", .obj [("204", .obj [])])])]

theorem walk_keys_nodup_iff_watchedPets : ∃ operations final tag group,
    watchedPets.uniqueKeys = true ∧
      walk ⟨watchedPets, true, .str "_untagged"⟩ {} = .ok operations final ∧
      Module.groupByTag operations = .ok [(tag, group)] ∧
      group.flatMap Client.keys = ["listPets", "listPetsStream", "POST/pets/new"] ∧
      ∀ a ∈ group, ∀ b ∈ group, a ≠ b → ¬ Extends watchedPets "" a b ∧
        (Streams watchedPets (written watchedPets a) → ¬ Extends watchedPets "Stream" a b) := by
  have unique : watchedPets.uniqueKeys = true := by decide +kernel
  have passed : Build.succeeds (walk { document := watchedPets }) {} fun operations _ =>
      groupKeys operations = some [["listPets", "listPetsStream", "POST/pets/new"]] := by
    decide +kernel
  obtain ⟨operations, final, done, found⟩ := Build.exists_of_succeeds passed
  obtain ⟨tag, group, grouped, keys⟩ := exists_of_groupKeys (of_decide_eq_true found)
  have iff := (walk_keys_nodup_iff unique done grouped List.mem_cons_self).2.1
  exact ⟨operations, final, tag, group, unique, done, grouped, keys,
    iff.mp (by rw [keys]; decide)⟩

/-- Two ids that differ in their spelling only. -/
def spelledPets : Json :=
  tagged [("/pets", "get", [("operationId", .str "list_pets")]),
    ("/animals", "get", [("operationId", .str "listPets")])]

theorem walk_keys_repeated :
    (operationObjects spelledPets).map (·.get "operationId") = [.str "list_pets", .str "listPets"] ∧
      ∃ operations final tag group,
        walk ⟨spelledPets, true, .str "_untagged"⟩ {} = .ok operations final ∧
        Module.groupByTag operations = .ok [(tag, group)] ∧
        group.flatMap Client.keys = ["listPets", "listPets"] := by
  have passed : Build.succeeds (walk { document := spelledPets }) {} fun operations _ =>
      groupKeys operations = some [["listPets", "listPets"]] := by
    decide +kernel
  obtain ⟨operations, final, done, found⟩ := Build.exists_of_succeeds passed
  obtain ⟨tag, group, grouped, keys⟩ := exists_of_groupKeys (of_decide_eq_true found)
  exact ⟨rfl, operations, final, tag, group, done, grouped, keys⟩

end Walk

end TypedClient
