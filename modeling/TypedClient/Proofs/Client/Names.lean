import TypedClient.Client
import TypedClient.Proofs.Session.Outcome
import TypedClient.Schema.Merge

/-! Names in the client of a group. All of them are declarations of the operations themselves, or
bodies of their errors. -/
namespace TypedClient

open Render (Code)

namespace Render.Code

variable {name : String}

@[simp] theorem names_plain (text : String) : (plain text).names = [] := rfl

@[simp] theorem names_naming (before name after : String) :
    (naming before name after).names = [name] := rfl

@[simp] theorem names_append (first second : Code) :
    names (first ++ second) = names first ++ names second :=
  List.filterMap_append

theorem joined_cons_cons (separator : String) (part next : Code) (rest : List Code) :
    joined separator (part :: next :: rest) =
      part ++ plain separator ++ joined separator (next :: rest) := by
  simp [joined, List.intercalate]

theorem mem_names_joined {separator : String} {parts : List Code} :
    name ∈ (joined separator parts).names ↔ ∃ part ∈ parts, name ∈ part.names := by
  induction parts with
  | nil => simp [joined, names]
  | cons part rest ih =>
    cases rest with
    | nil => simp [joined]
    | cons next rest =>
      rw [joined_cons_cons, names_append, names_append, List.mem_append, List.mem_append, ih]
      simp

end Render.Code

namespace Operation

variable {op : Operation} {name : String}

def parts (op : Operation) : List String :=
  op.params.toList ++ op.payload.toList ++ op.successes.map (·.2) ++ op.errors.map (·.2) ++
    op.defaultSchema.toList ++ op.streamSchema.toList

theorem mem_parts : name ∈ op.parts ↔ op.params = some name ∨ op.payload = some name ∨
    name ∈ op.successes.map (·.2) ∨ name ∈ op.errors.map (·.2) ∨ op.defaultSchema = some name ∨
    op.streamSchema = some name := by
  simp only [parts, List.mem_append, Option.mem_toList, or_assoc]

def bodies (op : Operation) : List String :=
  op.errors.filterMap fun e => op.errorBodies.lookup e.2

theorem named_eq_some {option : Option String} :
    named option = some name ↔ option = some name ∧ name ≠ "" := by
  simp [named, Option.filter_eq_some_iff]

theorem mem_schemaNames : name ∈ op.schemaNames ↔ name ∈ op.parts ∧ name ≠ "" := by
  change name ∈ Schema.distinct (List.filterMap named _) ↔ _
  rw [Schema.mem_distinct]
  simp only [List.mem_filterMap, named_eq_some, parts]
  constructor
  · rintro ⟨_, member, rfl, nonempty⟩
    exact ⟨by simpa [or_assoc, eq_comm] using member, nonempty⟩
  · rintro ⟨member, nonempty⟩
    exact ⟨some name, by simpa [or_assoc, eq_comm] using member, rfl, nonempty⟩

end Operation

namespace Client

variable {op : Operation} {operations : List Operation} {name client : String} {code : Code}

theorem mem_errorNames : name ∈ errorNames op ↔ name ∈ op.errors.map (·.2) := by
  have same : errorNames op = Schema.distinct (op.errors.map (·.2)) := by
    rw [Schema.distinct, List.foldl_map]
    rfl
  rw [same, Schema.mem_distinct]

/-- A view of the table that does not look at the bodies of errors. -/
theorem map_decodes {view : Decode → α} (op : Operation)
    (bodiless : ∀ status schema body,
      view (.taggedFailure status schema body) = view (.failure status schema)) :
    (decodes op).map view = op.successes.map (fun s => view (.success s.1 s.2)) ++
      op.errors.map (fun e => view (.failure e.1 e.2)) ++ op.voidStatuses.map (view ∘ .void) := by
  simp only [decodes, List.map_append, List.map_map]
  congr 2
  refine List.map_congr_left fun error _ => ?_
  rw [Function.comp_apply]
  split
  · exact bodiless _ _ _
  · rfl

def Lines (P : String → Prop) (lines : List Code) : Prop :=
  ∀ line ∈ lines, ∀ name ∈ line.names, P name

section Lines

variable {P : String → Prop} {lines : List Code}

@[simp] theorem lines_nil : Lines P [] := by
  simp [Lines]

@[simp] theorem lines_cons {line : Code} :
    Lines P (line :: lines) ↔ (∀ name ∈ line.names, P name) ∧ Lines P lines :=
  List.forall_mem_cons

@[simp] theorem lines_append {more : List Code} :
    Lines P (lines ++ more) ↔ Lines P lines ∧ Lines P more :=
  List.forall_mem_append

theorem Lines.indent (holds : Lines P lines) (indent : String) :
    Lines P (indentLines indent lines) := by
  intro line member name occurs
  obtain ⟨inner, listed, rfl⟩ := List.mem_map.mp member
  exact holds inner listed name (by simpa using occurs)

theorem Lines.listed (holds : Lines P lines) : Lines P (listed lines) := by
  intro line member name occurs
  obtain ⟨inner, listed, rfl⟩ := List.mem_map.mp member
  exact holds inner listed name (by simpa using occurs)

theorem Lines.joined (holds : Lines P lines) {separator : String} :
    ∀ name ∈ (Code.joined separator lines).names, P name := by
  intro name occurs
  obtain ⟨line, member, occurs⟩ := Code.mem_names_joined.mp occurs
  exact holds line member name occurs

theorem methodCode_names {function suffix : String} {steps response : List Code}
    (stepsHold : Lines P steps) (responseHolds : Lines P response) :
    ∀ name ∈ (methodCode op function suffix steps response).names, P name := by
  simp only [methodCode]
  refine Lines.joined ?_
  split <;> simp [stepsHold.listed.indent, responseHolds.indent]

end Lines

theorem pipeline_names (op : Operation) (withHeaders : Bool) :
    Lines (fun name => op.payload = some name) (pipeline op withHeaders) := by
  simp only [pipeline, lines_append, lines_cons, lines_nil, Code.names_plain]
  refine ⟨⟨?_, by simp⟩, ?_⟩
  · split
    · simp
    · split <;> split <;> simp
  · split
    · simp
    · simp
    · rename_i payload found _
      simpa using (Operation.named_eq_some.mp found).1

def Used (op : Operation) (name : String) : Prop :=
  name ∈ op.parts ∨ name ∈ op.bodies

theorem decodes_names (op : Operation) : ∀ decode ∈ decodes op, ∀ name ∈ decode.code.names,
    Used op name := by
  intro decode member name occurs
  simp only [decodes, List.mem_append, List.mem_map] at member
  rcases member with (⟨entry, listed, rfl⟩ | ⟨entry, listed, rfl⟩) | ⟨status, listed, rfl⟩
  · obtain rfl : name = entry.2 := by simpa [Decode.code, Decode.body] using occurs
    exact .inl (Operation.mem_parts.mpr (.inr (.inr (.inl (List.mem_map_of_mem listed)))))
  · have error : entry.2 ∈ op.parts :=
      Operation.mem_parts.mpr (.inr (.inr (.inr (.inl (List.mem_map_of_mem listed)))))
    split at occurs
    · rename_i body found
      have wraps := (Operation.named_eq_some.mp found).1
      have cases : name = body ∨ name = entry.2 := by
        simpa [Decode.code, Decode.body] using occurs
      rcases cases with rfl | rfl
      · exact .inr (List.mem_filterMap.mpr ⟨entry, listed, wraps⟩)
      · exact .inl error
    · obtain rfl : name = entry.2 := by simpa [Decode.code, Decode.body] using occurs
      exact .inl error
  · simp [Decode.code] at occurs

theorem matchStatus_names (op : Operation) : Lines (Used op) (matchStatus op) := by
  have table : Lines (Used op) ((decodes op).map (·.code)) := by
    intro line member name occurs
    obtain ⟨decode, listed, rfl⟩ := List.mem_map.mp member
    exact decodes_names op decode listed name occurs
  simp [matchStatus, table.listed.indent]

theorem methods_names {methodCodes : List Code} (done : methods op = .ok methodCodes) :
    Lines (Used op) methodCodes := by
  have steps (withHeaders : Bool) : Lines (Used op) (pipeline op withHeaders) :=
    fun line member name occurs => .inl (Operation.mem_parts.mpr
      (.inr (.inl (pipeline_names op withHeaders line member name occurs))))
  obtain ⟨function, _, rest⟩ := except_bind_eq_ok.mp done
  obtain rfl := Except.ok.inj rest
  refine lines_cons.mpr ⟨methodCode_names (steps true) (matchStatus_names op), ?_⟩
  split
  · exact lines_nil
  · rename_i event stream
    have streamed := (Operation.named_eq_some.mp stream).1
    have used : Used op event := .inl (Operation.mem_parts.mpr (by simp [streamed]))
    have events : Lines (Used op) (decodeEvents event) := by simp [decodeEvents, used]
    exact lines_cons.mpr ⟨methodCode_names (steps false) events, lines_nil⟩

theorem mapM_methods_names {codes : List (List Code)} (done : operations.mapM methods = .ok codes) :
    ∀ lines ∈ codes, ∃ op ∈ operations, Lines (Used op) lines := by
  induction operations generalizing codes with
  | nil =>
    cases done
    simp
  | cons op rest ih =>
    rw [List.mapM_cons] at done
    obtain ⟨lines, first, done⟩ := except_bind_eq_ok.mp done
    obtain ⟨more, others, done⟩ := except_bind_eq_ok.mp done
    obtain rfl := Except.ok.inj done
    refine List.forall_mem_cons.mpr ⟨⟨op, by simp, methods_names first⟩, ?_⟩
    intro inner member
    obtain ⟨other, listed, holds⟩ := ih others inner member
    exact ⟨other, List.mem_cons_of_mem _ listed, holds⟩

theorem implementation_names (done : implementationCode client operations = .ok code) :
    ∀ name ∈ code.names, ∃ op ∈ operations, Used op name := by
  obtain ⟨lines, codes, done⟩ := except_bind_eq_ok.mp done
  obtain rfl := Except.ok.inj done
  intro name occurs
  simp only [Code.names_append, Code.names_plain, List.nil_append, List.append_nil] at occurs
  obtain ⟨line, member, occurs⟩ := Code.mem_names_joined.mp occurs
  obtain ⟨inner, listed, member⟩ := List.mem_flatten.mp member
  obtain ⟨op, opMember, holds⟩ := mapM_methods_names codes inner listed
  exact ⟨op, opMember, holds line member name occurs⟩

theorem signature_names (op : Operation) : Lines (· ∈ op.parts) (signature op) := by
  have params : ∀ p, named op.params = some p → p ∈ op.parts := fun p found =>
    Operation.mem_parts.mpr (.inl (Operation.named_eq_some.mp found).1)
  have payload : ∀ p, named op.payload = some p → p ∈ op.parts := fun p found =>
    Operation.mem_parts.mpr (.inr (.inl (Operation.named_eq_some.mp found).1))
  simp only [signature, lines_append, lines_cons, lines_nil, Code.names_append, Code.names_plain,
    List.nil_append, List.append_nil, and_true]
  refine ⟨?_, Lines.joined ?_⟩
  · intro line member
    obtain ⟨id, _, rfl⟩ := List.mem_map.mp member
    simp
  · cases hp : named op.params <;> cases hb : named op.payload <;> simp_all

theorem errorTypes_names (op : Operation) : Lines (· ∈ op.parts) (errorTypes op) := by
  have errors : Lines (· ∈ op.parts) ((errorNames op).map fun error => Code.naming "" error "") := by
    intro line member name occurs
    obtain ⟨error, listed, rfl⟩ := List.mem_map.mp member
    obtain rfl : name = error := by simpa using occurs
    exact Operation.mem_parts.mpr (.inr (.inr (.inr (.inl (mem_errorNames.mp listed)))))
  simp only [errorTypes, lines_append, errors, and_true]
  split <;> simp

theorem successTypes_names (op : Operation) : Lines (· ∈ op.parts) (successTypes op) := by
  unfold successTypes
  split
  · simp
  · intro line member name occurs
    obtain ⟨entry, listed, rfl⟩ := List.mem_map.mp member
    obtain rfl : name = entry.2 := by simpa using occurs
    exact Operation.mem_parts.mpr (.inr (.inr (.inl (List.mem_map_of_mem listed))))

theorem interfaceMethods_names (op : Operation) : ∀ method ∈ interfaceMethods op,
    ∀ name ∈ method.code.names, name ∈ op.parts := by
  have args : ∀ name ∈ (Code.joined ", " (signature op)).names, name ∈ op.parts :=
    (signature_names op).joined
  have success : ∀ name ∈ (Code.joined " | " (successTypes op)).names, name ∈ op.parts :=
    (successTypes_names op).joined
  have errors : ∀ name ∈ (Code.joined " | " (errorTypes op)).names, name ∈ op.parts :=
    (errorTypes_names op).joined
  intro method member name occurs
  simp only [interfaceMethods, List.mem_cons, Option.mem_toList, Option.map_eq_some_iff] at member
  rcases member with rfl | ⟨event, stream, rfl⟩
  · simp only [Method.code, Code.names_append, Code.names_plain, List.nil_append, List.append_nil,
      List.mem_append] at occurs
    rcases occurs with occurs | occurs | occurs
    · exact args name occurs
    · exact success name occurs
    · exact errors name occurs
  · simp only [Method.code, Code.names_append, Code.names_plain, Code.names_naming,
      List.nil_append, List.append_nil, List.mem_append, List.mem_singleton] at occurs
    rcases occurs with occurs | rfl | occurs
    · exact args name occurs
    · exact Operation.mem_parts.mpr (by simp [(Operation.named_eq_some.mp stream).1])
    · exact errors name occurs

theorem interface_names (client : String) (operations : List Operation) :
    ∀ name ∈ (interfaceCode client operations).names, ∃ op ∈ operations, name ∈ op.parts := by
  intro name occurs
  simp only [interfaceCode, Code.names_append, Code.names_plain, List.nil_append,
    List.append_nil] at occurs
  obtain ⟨piece, member, named⟩ := List.mem_filterMap.mp occurs
  obtain ⟨method, listed, member⟩ := List.mem_flatMap.mp member
  obtain ⟨op, opMember, listed⟩ := List.mem_flatMap.mp listed
  exact ⟨op, opMember, interfaceMethods_names op method listed name
    (List.mem_filterMap.mpr ⟨piece, member, named⟩)⟩

end Client

end TypedClient
