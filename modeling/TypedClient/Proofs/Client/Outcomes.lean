import TypedClient.Proofs.Client.Names
import TypedClient.Proofs.Walk.Records

/-! Outcomes of methods. The interface of a client writes the outcomes of a method as the
parameters of a type, its implementation as the entries of a table. Both are read back from the
code that is written, and compared. -/
namespace TypedClient

open Render (Code Piece)
open Render.Code (plain naming joined)

deriving instance DecidableEq for Render.Piece

namespace Client

/-- What a request may come to. -/
inductive Outcome where
  | value (schema : String)
  | nothing
  | failure (schema : String)
deriving DecidableEq

def Outcome.type : Outcome → Code
  | value schema => naming "typeof " schema ".Type"
  | nothing => plain "void"
  | failure schema => naming "" schema ""

/-- The parameters of a type, each with its alternatives. -/
def alternatives (type : Code) : List (List Code) :=
  (type.tail.dropLast.splitOn (.text ", ")).map (·.splitOn (.text " | "))

/-- The outcome of an entry of a table, as it is written on its line. -/
def outcome? : Code → Option Outcome
  | [_, _, .name schema, .text ")(response)", .text ","] => some (.value schema)
  | [_, _, .name schema, .text ")(response)", .text ".pipe(Effect.flatMap(Effect.fail))",
      .text ","] => some (.failure schema)
  | [_, _, .name _, .text ")(response)", .text ".pipe(Effect.map((body) => new ", .name schema,
      .text "(body)), Effect.flatMap(Effect.fail))", .text ","] => some (.failure schema)
  | [_, .text entry, .text ","] =>
    if "() => Effect.void".toList <:+ entry.toList then some .nothing else none
  | _ => none

def outcomes (lines : List Code) : List Outcome :=
  lines.filterMap outcome?

def Decode.outcome : Decode → Outcome
  | success _ schema => .value schema
  | failure _ schema | taggedFailure _ schema _ => .failure schema
  | void _ => .nothing

/-- A line of a table tells what its entry comes to. -/
theorem outcome?_entry (d : Decode) :
    outcome? (plain "  " ++ (d.code ++ plain ",")) = some d.outcome := by
  cases d with
  | success | failure | taggedFailure => rfl
  | void status =>
    have ends : "() => Effect.void".toList <:+ s!"\"{status}\": () => Effect.void".toList := by
      refine ⟨"\"".toList ++ status.toList ++ "\": ".toList, ?_⟩
      change _ = ("\"" ++ status ++ "\": () => Effect.void").toList
      simp
    exact if_pos ends

theorem outcomes_matchStatus (op : Operation) :
    outcomes (matchStatus op) = (decodes op).map (·.outcome) := by
  have entries : (indentLines "  " (listed ((decodes op).map (·.code)))).filterMap outcome? =
      (decodes op).map (·.outcome) := by
    simp only [indentLines, listed, List.filterMap_map]
    rw [← List.filterMap_eq_map]
    exact List.filterMap_congr fun d _ => outcome?_entry d
  rw [outcomes, matchStatus, List.filterMap_append, List.filterMap_append, entries]
  exact List.append_nil _

def Part (code : Code) : Prop :=
  .text ", " ∉ code ∧ .text " | " ∉ code

theorem successTypes_parts (op : Operation) : ∀ type ∈ successTypes op, Part type := by
  unfold successTypes
  split
  · simp [Part, plain]
  · intro type member
    obtain ⟨entry, _, rfl⟩ := List.mem_map.mp member
    simp [Part, naming]

theorem successTypes_ne_nil (op : Operation) : successTypes op ≠ [] := by
  unfold successTypes
  split
  · simp
  · next filled => simpa using filled

theorem errorTypes_parts (op : Operation) : ∀ type ∈ errorTypes op, Part type := by
  unfold errorTypes
  split <;> simp [Part, plain, naming]

/-- Alternatives that are written out are read back. -/
theorem splitOn_joined {types : List Code} (parts : ∀ type ∈ types, Part type) (filled : types ≠ []) :
    (joined " | " types).splitOn (.text " | ") = types :=
  List.splitOn_intercalate _ (fun type member => (parts type member).2) filled

theorem joined_part {types : List Code} (parts : ∀ type ∈ types, Part type) :
    .text ", " ∉ joined " | " types := by
  induction types with
  | nil => simp [joined, List.intercalate]
  | cons type rest ih =>
    obtain ⟨head, tail⟩ := List.forall_mem_cons.mp parts
    cases rest with
    | nil => simpa [joined, List.intercalate] using head.1
    | cons next rest =>
      rw [Render.Code.joined_cons_cons, List.mem_append, List.mem_append]
      exact not_or.mpr ⟨not_or.mpr ⟨head.1, by simp [plain]⟩, ih tail⟩

/-- The type of a method is read back as its successes and its errors. -/
theorem alternatives_effect {successes errors : List Code}
    (first : ∀ type ∈ successes, Part type) (second : ∀ type ∈ errors, Part type)
    (succeeds : successes ≠ []) (fails : errors ≠ []) :
    alternatives (plain "Effect.Effect<" ++ joined " | " successes ++ plain ", " ++
      joined " | " errors ++ plain ">") = [successes, errors] := by
  have parameters : (plain "Effect.Effect<" ++ joined " | " successes ++ plain ", " ++
      joined " | " errors ++ plain ">").tail.dropLast =
        List.intercalate [.text ", "] [joined " | " successes, joined " | " errors] := by
    change (joined " | " successes ++ [Piece.text ", "] ++ joined " | " errors ++
      [Piece.text ">"]).dropLast = _
    rw [List.dropLast_concat]
    simp [List.intercalate]
  rw [alternatives, parameters, List.splitOn_intercalate _ _ (by simp)]
  · simp [splitOn_joined first succeeds, splitOn_joined second fails]
  · simp [joined_part first, joined_part second]

/-- What the table of an operation comes to. -/
theorem outcomes_eq (op : Operation) : outcomes (matchStatus op) =
    op.successes.map (.value ·.2) ++ op.errors.map (.failure ·.2) ++
      op.voidStatuses.map fun _ => .nothing := by
  rw [outcomes_matchStatus]
  exact map_decodes op fun _ _ _ => rfl

theorem mem_outcomes_value {op : Operation} {schema : String} :
    .value schema ∈ outcomes (matchStatus op) ↔ schema ∈ op.successes.map (·.2) := by
  simp [outcomes_eq]

theorem mem_outcomes_failure {op : Operation} {schema : String} :
    .failure schema ∈ outcomes (matchStatus op) ↔ schema ∈ op.errors.map (·.2) := by
  simp [outcomes_eq]

theorem mem_outcomes_nothing {op : Operation} :
    .nothing ∈ outcomes (matchStatus op) ↔ op.voidStatuses ≠ [] := by
  simp [outcomes_eq]

theorem no_value_iff {op : Operation} :
    (∀ schema, .value schema ∉ outcomes (matchStatus op)) ↔ op.successes = [] := by
  simp only [mem_outcomes_value]
  rw [← List.eq_nil_iff_forall_not_mem, List.map_eq_nil_iff]

theorem mem_successTypes {op : Operation} {type : Code} : type ∈ successTypes op ↔
    (∃ schema ∈ op.successes.map (·.2), type = (Outcome.value schema).type) ∨
      (op.successes = [] ∧ type = Outcome.nothing.type) := by
  unfold successTypes
  split
  · next empty => simp [List.isEmpty_iff.mp empty, Outcome.type]
  · next filled =>
    have nonempty : op.successes ≠ [] := fun empty => filled (List.isEmpty_iff.mpr empty)
    simp only [nonempty, false_and, or_false]
    constructor
    · intro member
      obtain ⟨entry, listed, rfl⟩ := List.mem_map.mp member
      exact ⟨entry.2, List.mem_map_of_mem listed, rfl⟩
    · rintro ⟨schema, known, rfl⟩
      obtain ⟨entry, listed, rfl⟩ := List.mem_map.mp known
      exact List.mem_map.mpr ⟨entry, listed, rfl⟩

theorem mem_errorTypes {op : Operation} {type : Code} : (type ∈ errorTypes op ∧ type.names ≠ []) ↔
    ∃ name ∈ op.errors.map (·.2), type = (Outcome.failure name).type := by
  have fixed : ∀ type ∈ [plain "HttpClientError.HttpClientError", plain "ParseError"] ++
      (if (named op.payload).isSome then [plain "HttpBody.HttpBodyError"] else []),
      type.names = [] := by
    split <;> simp
  constructor
  · rintro ⟨member, nonempty⟩
    rcases List.mem_append.mp member with first | listed
    · exact absurd (fixed type first) nonempty
    · obtain ⟨name, known, rfl⟩ := List.mem_map.mp listed
      exact ⟨name, mem_errorNames.mp known, rfl⟩
  · rintro ⟨name, known, rfl⟩
    refine ⟨List.mem_append_right _ ?_, by simp [Outcome.type]⟩
    exact List.mem_map.mpr ⟨name, mem_errorNames.mpr known, rfl⟩

/-- The interface and the table of an operation agree on the values of successes and on the names
of failures. The interface admits that there is no value exactly if the table has none, so on that
the two agree unless some statuses have values and others have no content. -/
theorem interface_outcomes (op : Operation) : ∃ method more successes errors,
    interfaceMethods op = method :: more ∧ alternatives method.returns = [successes, errors] ∧
      (∀ type, type ∈ successes ↔
        (∃ schema, .value schema ∈ outcomes (matchStatus op) ∧
          type = (Outcome.value schema).type) ∨
        (∀ schema, .value schema ∉ outcomes (matchStatus op)) ∧ type = Outcome.nothing.type) ∧
      (∀ type, (type ∈ errors ∧ type.names ≠ []) ↔
        ∃ name, .failure name ∈ outcomes (matchStatus op) ∧
          type = (Outcome.failure name).type) ∧
      (.nothing ∈ outcomes (matchStatus op) ↔ op.voidStatuses ≠ []) ∧
      ((Outcome.nothing.type ∈ successes ↔ op.voidStatuses ≠ [] ∨ op.successes = []) ↔
        op.voidStatuses = [] ∨ op.successes = []) := by
  have returns := alternatives_effect (successTypes_parts op) (errorTypes_parts op)
    (successTypes_ne_nil op) (by simp [errorTypes])
  refine ⟨_, _, successTypes op, errorTypes op, rfl, returns, fun type => ?_, fun type => ?_,
    mem_outcomes_nothing, ?_⟩
  · rw [mem_successTypes, no_value_iff]
    simp only [mem_outcomes_value]
  · rw [mem_errorTypes]
    simp only [mem_outcomes_failure]
  · have admits : Outcome.nothing.type ∈ successTypes op ↔ op.successes = [] := by
      simp [mem_successTypes, Outcome.type, plain, naming]
    rw [admits]
    tauto

/-- A pet that is there is answered with, and one that is not with nothing. -/
def petOrNothing : Json :=
  Walk.reading [("/pets", [("200", Walk.answer "Pet"), ("204", .obj [])])]

/-- The table has an entry that comes to nothing, which the interface does not admit. -/
theorem interface_omits_nothing : ∃ operations final,
    Walk.walk ⟨petOrNothing, true, .str "_untagged"⟩ {} = .ok operations final ∧
      ∃ op ∈ operations, .nothing ∈ outcomes (matchStatus op) ∧
        ∃ method ∈ interfaceMethods op, ∃ successes ∈ (alternatives method.returns).head?,
          successes = [(Outcome.value "Pet").type] := by
  have passed : Build.succeeds (Walk.walk { document := petOrNothing }) {} fun operations _ =>
      ∃ op ∈ operations, .nothing ∈ outcomes (matchStatus op) ∧
        ∃ method ∈ interfaceMethods op, ∃ successes ∈ (alternatives method.returns).head?,
          successes = [(Outcome.value "Pet").type] := by
    decide +kernel
  obtain ⟨operations, final, done, omitted⟩ := Build.exists_of_succeeds passed
  exact ⟨operations, final, done, of_decide_eq_true omitted⟩

end Client

end TypedClient
