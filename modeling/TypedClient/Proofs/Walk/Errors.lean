import TypedClient.Proofs.Store.Memo
import TypedClient.Proofs.Walk.Tagged

/-! Errors of operations and their declarations. An operation notes its errors while the walk is
going on, and the store changes after that. What is noted stays true: a declaration that has been
made an error is no struct any more, so that later operations neither tag it nor exchange its body,
and bodies are out of the reach of all operations. -/
namespace TypedClient

open Build Builder

namespace Store

variable {store before after : Store} {name other : String}

/-- The name is declared as an error, and is no struct any more. -/
def Flagged (store : Store) (name : String) : Prop :=
  ∃ d, store.find? name = some d ∧ d.errorVariant = true ∧
    ¬ (d.kind = .struct ∨ d.kind = .classStruct)

namespace Flagged

theorem grows (flagged : before.Flagged name) (grows : Grows before after) : after.Flagged name := by
  obtain ⟨d, found, rest⟩ := flagged
  exact ⟨d, grows.find? found, rest⟩

/-- Making an error, be it the same once more, leaves the kind of an error as it is. -/
theorem find?_marked (flagged : store.Flagged name) (sound : store.Sound) (other : String) :
    ∃ d e, store.find? name = some d ∧ (store.marked other).find? name = some e ∧
      e.errorVariant = true ∧ e.kind = d.kind ∧ ¬ (d.kind = .struct ∨ d.kind = .classStruct) := by
  obtain ⟨d, found, isError, plain⟩ := flagged
  by_cases same : name = other
  · subst same
    exact ⟨d, _, found, find?_marked_flagged sound found plain, rfl, rfl, plain⟩
  · exact ⟨d, d, found, find?_marked_other sound found same, isError, rfl, plain⟩

theorem marked (flagged : store.Flagged name) (sound : store.Sound) (other : String) :
    (store.marked other).Flagged name := by
  obtain ⟨d, e, _, found, isError, kind, plain⟩ := flagged.find?_marked sound other
  exact ⟨e, found, isError, kind ▸ plain⟩

/-- Only a struct can become a tagged error. -/
theorem tagged_of_marked (flagged : store.Flagged name) (sound : store.Sound)
    (tagged : (store.marked other).Tagged name) : store.Tagged name := by
  obtain ⟨d, e, found, found', _, kind, _⟩ := flagged.find?_marked sound other
  obtain ⟨f, listed, rfl, isTagged⟩ := tagged
  have same := find?_of_mem (marked_evolves sound other).sound.distinct listed
  obtain rfl := Option.some.inj (found'.symm.trans same)
  obtain ⟨member, named⟩ := mem_of_find? found
  exact ⟨d, member, named, kind ▸ isTagged⟩

end Flagged

theorem flagged_marked (sound : store.Sound) (declared : name ∈ store.names) :
    (store.marked name).Flagged name := by
  obtain ⟨d, found⟩ := Option.isSome_iff_exists.mp (find?_isSome.mpr declared)
  by_cases isStruct : d.kind = .struct ∨ d.kind = .classStruct
  · obtain ⟨e, _, found', ⟨tagged, isError⟩, _⟩ := find?_marked_struct sound found isStruct
    exact ⟨e, found', isError, by simp [tagged]⟩
  · exact ⟨_, find?_marked_flagged sound found isStruct, rfl, isStruct⟩

/-- Every body is declared as a struct, and nothing but its error knows it. -/
structure Embodied (store : Store) : Prop where
  apart : store.Apart []
  structs : ∀ d ∈ store.declarations, ∀ body ∈ d.body,
    ∃ holder, store.find? body = some holder ∧ holder.kind = .struct

namespace Embodied

theorem empty : Embodied {} :=
  ⟨by simp [Apart], by simp⟩

theorem grows (embodied : before.Embodied) (sound : before.Sound) (grows : Grows before after) :
    after.Embodied := by
  refine ⟨embodied.apart.grows sound grows (by simp), fun d member body wraps => ?_⟩
  obtain ⟨added, declarations, plain⟩ := grows.declared
  have tagged := (grows.sound.tagged d member).mpr (by simp [Option.mem_def.mp wraps])
  rw [declarations] at member
  have old := (List.mem_append.mp member).resolve_right fun new => plain d new tagged
  obtain ⟨holder, found, kind⟩ := embodied.structs d old body wraps
  exact ⟨holder, grows.find? found, kind⟩

/-- A name that an addition has returned becomes an error. It is referred to or new, so that it is
no body, and the bodies that are there stay structs. -/
theorem marked (embodied : before.Embodied) (sound : before.Sound) (grows : Grows before after)
    (declared : name ∈ after.names)
    (source : name ∈ after.refNames.map (·.2) ∨ name ∉ before.names) :
    (after.marked name).Embodied := by
  have apart : after.Apart [name] := embodied.apart.grows sound grows (by simpa using source)
  have markedApart : (after.marked name).Apart [name] :=
    apart.marked grows.sound (by simpa using declared) (by simp)
  have structs := (embodied.grows sound grows).structs
  refine ⟨fun d member body wraps => ?_, fun d member body wraps => ?_⟩
  · obtain ⟨unreferred, _, bodiless⟩ := markedApart d member body wraps
    exact ⟨unreferred, by simp, bodiless⟩
  · rcases body_marked member wraps with ⟨old, listed, _, oldWraps⟩ | ⟨named, _, fresh⟩
    · obtain ⟨holder, found, kind⟩ := structs old listed body oldWraps
      have different : body ≠ name := by simpa using (apart old listed body oldWraps).2.1
      exact ⟨holder, find?_marked_other grows.sound found different, kind⟩
    · obtain ⟨e, found⟩ := Option.isSome_iff_exists.mp (find?_isSome.mpr declared)
      have markedSound := (marked_evolves grows.sound name).sound
      have own := find?_of_mem markedSound.distinct member
      rw [named] at own
      by_cases isStruct : e.kind = .struct ∨ e.kind = .classStruct
      · obtain ⟨f, holder, found', _, ⟨other, fWraps, inner⟩, _, kind⟩ :=
          find?_marked_struct grows.sound found isStruct
        obtain rfl := Option.some.inj (found'.symm.trans own)
        obtain rfl := Option.some.inj (fWraps.symm.trans wraps)
        exact ⟨holder, inner, kind⟩
      -- what has no fields keeps the body that it had, and that one is not new
      · have flagged := find?_marked_flagged grows.sound found isStruct
        obtain rfl := Option.some.inj (flagged.symm.trans own)
        exact absurd (grows.sound.bodies e (mem_of_find? found).1 body wraps) fresh

end Embodied

/-- What is an error stays one, and becomes a tagged one no more. -/
structure Retains (before after : Store) : Prop where
  flagged : ∀ {name}, before.Flagged name → after.Flagged name
  tagged : ∀ {name}, before.Flagged name → after.Tagged name → before.Tagged name

namespace Retains

theorem refl (store : Store) : Retains store store :=
  ⟨id, fun _ => id⟩

theorem trans {middle : Store} (first : Retains before middle) (second : Retains middle after) :
    Retains before after :=
  ⟨second.flagged ∘ first.flagged, fun flagged tagged =>
    first.tagged flagged (second.tagged (first.flagged flagged) tagged)⟩

theorem of_grows (grows : Grows before after) : Retains before after :=
  ⟨(·.grows grows), fun _ => grows.tagged⟩

theorem of_marked (sound : store.Sound) (name : String) : Retains store (store.marked name) :=
  ⟨(·.marked sound name), fun flagged => flagged.tagged_of_marked sound⟩

end Retains

end Store

namespace Walk

open Store

variable {document : Json} {x y : Operation × Store} {labels : List String}
  {op : Operation} {before after : Store}

def Noted (op : Operation) (store : Store) : Prop :=
  ∀ name ∈ op.errors.map (·.2), store.Flagged name ∧
    (store.Tagged name → name ∈ op.errorBodies.map (·.1))

theorem Noted.retains (noted : Noted op before) (retains : Retains before after) : Noted op after := by
  intro name member
  obtain ⟨flagged, listed⟩ := noted name member
  exact ⟨retains.flagged flagged, fun tagged => listed (retains.tagged flagged tagged)⟩

theorem Record.retains (step : Record document x labels y) : Retains x.2 y.2 := by
  cases step with
  | places | void | ignored => exact .refl _
  | params _ adds | payload _ adds | default adds | stream adds | unread adds | success _ adds =>
    exact .of_grows adds.settles.grows
  | failure _ adds =>
    exact (Retains.of_grows adds.settles.grows).trans (.of_marked adds.settles.valid.sound _)

theorem Record.embodied (step : Record document x labels y) (valid : Valid document x.2)
    (embodied : x.2.Embodied) : y.2.Embodied := by
  cases step with
  | places | void | ignored => exact embodied
  | params _ adds | payload _ adds | default adds | stream adds | unread adds | success _ adds =>
    exact embodied.grows valid.sound adds.settles.grows
  | failure _ adds => exact embodied.marked valid.sound adds.settles.grows adds.declared adds.source

/-- A failure is noted after its declaration has become an error, so it finds the kind that the
declaration has for good. -/
theorem Record.noted (step : Record document x labels y) (noted : Noted x.1 x.2) : Noted y.1 y.2 := by
  have kept := noted.retains step.retains
  cases step with
  | @failure op _ after added status _ adds =>
    have sound := adds.settles.valid.sound
    obtain ⟨_, _, same, bodies, own⟩ := failed_eq op status added (after.marked added)
    rw [same]
    intro name member
    obtain ⟨entry, listed, rfl⟩ := List.mem_map.mp member
    rcases mem_assign listed with old | rfl
    · obtain ⟨flagged, wrapped⟩ := kept entry.2 (List.mem_map_of_mem old)
      exact ⟨flagged, fun tagged => bodies (wrapped tagged)⟩
    · exact ⟨flagged_marked sound adds.declared, fun tagged =>
        own (isStruct_of_tagged (marked_evolves sound added).sound tagged)⟩
  | _ => exact kept

/-- What holds between operations and while one is parsed. -/
structure Reliable (document : Json) (base : Store) (state : Operation × Store) : Prop where
  valid : Valid document state.2
  embodied : state.2.Embodied
  retains : Retains base state.2
  noted : Noted state.1 state.2

theorem Record.reliable (step : Record document x labels y) (reliable : Reliable document before x) :
    Reliable document before y :=
  ⟨step.valid reliable.valid, step.embodied reliable.valid reliable.embodied,
    reliable.retains.trans step.retains, step.noted reliable.noted⟩

theorem Parsed.reliable {operation : Members} (parsed : Parsed document operation before op after)
    (valid : Valid document before) (embodied : before.Embodied) :
    Reliable document before (op, after) := by
  obtain ⟨start, recorded, labels, blank, run, _, rfl⟩ := parsed
  have fresh : Reliable document before (start, before) :=
    ⟨valid, embodied, .refl before, by simp [Noted, blank.errors]⟩
  have reliable := run.invariant Record.reliable fresh
  obtain ⟨_, _, same, _⟩ := settled_eq recorded
  rw [same]
  exact ⟨reliable.valid, reliable.embodied, reliable.retains, reliable.noted⟩

namespace Walked

variable {operations : List Members} {ops : List Operation}

theorem retains (walked : Walked document operations before ops after) (valid : Valid document before)
    (embodied : before.Embodied) : Retains before after ∧ after.Embodied := by
  induction walked with
  | nil => exact ⟨.refl _, embodied⟩
  | cons parsed _ ih =>
    have reliable := parsed.reliable valid embodied
    obtain ⟨retains, embodied⟩ := ih reliable.valid reliable.embodied
    exact ⟨reliable.retains.trans retains, embodied⟩

theorem noted (walked : Walked document operations before ops after) (valid : Valid document before)
    (embodied : before.Embodied) : ∀ op ∈ ops, Noted op after := by
  induction walked with
  | nil => simp
  | cons parsed rest ih =>
    have reliable := parsed.reliable valid embodied
    have later := rest.retains reliable.valid reliable.embodied
    exact List.forall_mem_cons.mpr
      ⟨reliable.noted.retains later.1, ih reliable.valid reliable.embodied⟩

end Walked

/-- At the end of a walk the operations and the store agree on errors. Every error of an operation
is declared as one; the operation has a body for it exactly if it is a tagged error, and this is the
body of the declaration, a struct of its own. -/
theorem walk_errors_agree {env : Env} {operations : List Operation} {final : Session}
    (done : walk env {} = .ok operations final) :
    ∀ op ∈ operations, ∀ name ∈ op.errors.map (·.2),
      ∃ d, final.store.find? name = some d ∧ d.errorVariant = true ∧
        (name ∈ op.errorBodies.map (·.1) ↔ d.kind = .taggedError) ∧
        (d.kind = .taggedError → ∃ body holder, op.errorBodies.lookup name = some body ∧
          d.body = some body ∧ final.store.find? body = some holder ∧ holder.kind = .struct) := by
  have valid := valid_empty env.document
  have walked := walk_walked valid done
  obtain ⟨evolves, fits⟩ := (walk_evolves env sound_empty).of_ok done
  have embodied := (walked.retains valid .empty).2
  intro op member name listed
  obtain ⟨⟨d, found, isError, _⟩, wrapped⟩ := walked.noted valid .empty op member name listed
  obtain ⟨declared, rfl⟩ := mem_of_find? found
  have recorded : d.name ∈ op.errorBodies.map (·.1) ↔ d.kind = .taggedError := by
    constructor
    · intro known
      obtain ⟨e, eDeclared, named, kind⟩ := tagged_of_error evolves.sound (fits op member) known
      obtain rfl := List.inj_on_of_nodup_map evolves.sound.distinct eDeclared declared named
      exact kind
    · exact fun kind => wrapped ⟨d, declared, rfl, kind⟩
  refine ⟨d, found, isError, recorded, fun tagged => ?_⟩
  cases entered : op.errorBodies.lookup d.name with
  | none => exact absurd (recorded.mpr tagged) (lookup_eq_none entered)
  | some body =>
    obtain ⟨e, eDeclared, named, wraps⟩ :=
      (fits op member).bodies (d.name, body) (mem_of_lookup entered)
    obtain rfl := List.inj_on_of_nodup_map evolves.sound.distinct eDeclared declared named
    obtain ⟨holder, held, kind⟩ := embodied.structs e declared body wraps
    exact ⟨body, holder, rfl, wraps, held, kind⟩

/-- Two operations share a problem under three statuses. The name that its body would have is taken
by a component, which is an error without fields. -/
def sharedProblems : Json :=
  let get (responses : Members) : Json := .obj [("get", .obj [("responses", .obj responses)])]
  let text : Json := .obj [("type", .str "string")]
  .obj [("openapi", .str "3.0.0"),
    ("paths", .obj [("/pets", get [("500", answer "ProblemBody"), ("404", answer "Problem")]),
      ("/owners", get [("4XX", answer "Problem"), ("400", answer "Problem")])]),
    ("components", .obj [("schemas", .obj [("ProblemBody", text),
      ("Problem", .obj [("type", .str "object"), ("properties", .obj [("reason", text)])])])])]

theorem walk_errors_agree_sharedProblems : ∃ operations final,
    walk ⟨sharedProblems, true, .str "_untagged"⟩ {} = .ok operations final ∧
      operations.map (fun op => (op.errors, op.errorBodies)) =
        [([("500", "ProblemBody"), ("404", "Problem")], [("Problem", "ProblemBody2")]),
          ([("4xx", "Problem"), ("400", "Problem")], [("Problem", "ProblemBody2")])] ∧
      ∀ op ∈ operations, ∀ name ∈ op.errors.map (·.2),
        ∃ d, final.store.find? name = some d ∧ d.errorVariant = true ∧
          (name ∈ op.errorBodies.map (·.1) ↔ d.kind = .taggedError) ∧
          (d.kind = .taggedError → ∃ body holder, op.errorBodies.lookup name = some body ∧
            d.body = some body ∧ final.store.find? body = some holder ∧ holder.kind = .struct) := by
  have passed : Build.succeeds (walk { document := sharedProblems }) {} fun operations _ =>
      operations.map (fun op => (op.errors, op.errorBodies)) =
        [([("500", "ProblemBody"), ("404", "Problem")], [("Problem", "ProblemBody2")]),
          ([("4xx", "Problem"), ("400", "Problem")], [("Problem", "ProblemBody2")])] := by
    decide +kernel
  obtain ⟨operations, final, done, noted⟩ := Build.exists_of_succeeds passed
  exact ⟨operations, final, done, of_decide_eq_true noted, walk_errors_agree done⟩

end Walk

end TypedClient
