import TypedClient.Proofs.Walk.Records

/-! What parsing leaves alone. The parameters, the body and the responses of an operation are
recorded in places of their own, so that a part of the operation which does not depend on these
places is kept whatever the document says there. -/
namespace TypedClient.Walk

open Build

def Returns (Q : α → Prop) (step : Build α) : Prop :=
  ∀ s a t, step s = .ok a t → Q a

namespace Returns

variable {Q : α → Prop} {R : β → Prop}

theorem pure {a : α} (holds : Q a) : Returns Q (Pure.pure a : Build α) := by
  rintro s _ _ done
  cases done
  exact holds

theorem bind {step : Build β} {next : β → Build α} (first : Returns R step)
    (rest : ∀ b, R b → Returns Q (next b)) : Returns Q (step >>= next) := by
  intro s a t done
  obtain ⟨b, u, stepped, done⟩ := bind_eq_ok.mp done
  exact rest b (first s b u stepped) u a t done

/-- What a step is followed by decides, whatever the step returns. -/
theorem after {step : Build β} {next : β → Build α} (rest : ∀ b, Returns Q (next b)) :
    Returns Q (step >>= next) :=
  bind (R := fun _ => True) (fun _ _ _ _ => trivial) fun b _ => rest b

theorem foldlM {f : α → γ → Build α} {items : List γ} {init : α}
    (step : ∀ a item, Q a → Returns Q (f a item)) (start : Q init) :
    Returns Q (items.foldlM f init) := by
  induction items generalizing init with
  | nil => exact pure start
  | cons item rest ih =>
    rw [List.foldlM_cons]
    exact bind (step init item start) fun b holds => ih holds

theorem mapM {Q : γ → α → Prop} {step : γ → Build α} {items : List γ}
    (each : ∀ item ∈ items, Returns (Q item) (step item)) :
    Returns (List.Forall₂ Q items) (items.mapM step) := by
  induction items with
  | nil => exact pure .nil
  | cons item rest ih =>
    rw [List.forall_mem_cons] at each
    rw [List.mapM_cons]
    refine bind each.1 fun a holds => bind (ih each.2) fun others hold => pure ?_
    exact .cons holds hold

end Returns

variable {env : Env} {op : Operation} {schemaId : String} {f : Operation → γ} {value : γ}

theorem parseParameters_frame
    (ignores : ∀ op urlParams headers params paramsOptional,
      f { op with urlParams, headers, params, paramsOptional } = f op)
    {parameters : List Json} (start : f op = value) :
    Returns (f · = value) (parseParameters env op schemaId parameters) := by
  refine .after fun collected => .after fun params => ?_
  dsimp only
  split
  · exact .pure ((ignores op _ _ _ _).trans start)
  · exact .after fun name => .pure ((ignores op _ _ _ _).trans start)

/-- A part of an operation that depends neither on its body nor on what its statuses stand for. -/
structure Frame (f : Operation → γ) : Prop where
  payload : ∀ op payload payloadFormData, f { op with payload, payloadFormData } = f op
  answers : ∀ op successes errors errorBodies voidStatuses ignoredStatuses defaultSchema classes,
    f { op with successes, errors, errorBodies, voidStatuses, ignoredStatuses, defaultSchema,
                classes } = f op

theorem parseBody_frame (frame : Frame f) {body : Json} (start : f op = value) :
    Returns (f · = value) (parseBody env op schemaId body) := by
  have kept (payload : Option String) (payloadFormData : Bool) :
      f { op with payload, payloadFormData } = value := (frame.payload op _ _).trans start
  refine .after fun body => .after fun content => .after fun schema => ?_
  split
  · refine .after fun content => ?_
    split
    · exact .pure start
    · exact .after fun form => .after fun name => .pure (kept _ _)
  · exact .after fun name => .pure (kept _ _)

theorem registerResponse_frame (frame : Frame f) {status name : String} {major : Option Nat}
    (start : f op = value) : Returns (f · = value) (registerResponse op status major name) := by
  unfold registerResponse
  split
  · exact .pure ((frame.answers op _ _ _ _ _ _ _).trans start)
  split
  · exact .pure start
  split
  · exact .pure ((frame.answers op _ _ _ _ _ _ _).trans start)
  · refine .after fun _ => .after fun store => ?_
    split <;> exact .pure ((frame.answers op _ _ _ _ _ _ _).trans start)

theorem parseContent_frame (frame : Frame f) {status : String} {major : Option Nat} {schema : Json}
    (start : f op = value) :
    Returns (f · = value) (parseContent env schemaId op status major schema) := by
  unfold parseContent
  split
  · exact .pure start
  · exact .after fun name => registerResponse_frame frame start

theorem parseStream_frame (ignores : ∀ op streamSchema, f { op with streamSchema } = f op)
    {stream : Json} (start : f op = value) :
    Returns (f · = value) (parseStream env schemaId op stream) := by
  unfold parseStream
  split
  · exact .pure start
  · exact .after fun name => .pure ((ignores op _).trans start)
  · exact .pure start

theorem noteEmpty_frame (frame : Frame f) (op : Operation) (status : String) (major : Option Nat)
    (content : Json) : f (noteEmpty op status major content) = f op := by
  unfold noteEmpty
  split
  · split <;> exact frame.answers op _ _ _ _ _ _ _
  · rfl

theorem settled_frame (frame : Frame f) (op : Operation) :
    f (widenSuccess (adoptDefault op)) = f op := by
  obtain ⟨successes, classes, settled, -⟩ := settled_eq op
  rw [settled]
  exact frame.answers op _ _ _ _ _ _ _

theorem parseResponse_frame (frame : Frame f)
    (ignores : ∀ op streamSchema, f { op with streamSchema } = f op) {entry : Key × Json}
    (start : f op = value) : Returns (f · = value) (parseResponse env schemaId op entry) := by
  refine .after fun response => ?_
  split
  · refine .after fun schema => .after fun major => ?_
    refine .bind (parseContent_frame frame start) fun op kept => .after fun stream => ?_
    refine .bind (parseStream_frame ignores kept) fun op kept => .pure ?_
    rw [noteEmpty_frame frame, kept]
  · exact .pure start

theorem parseResponses_frame (frame : Frame f)
    (ignores : ∀ op streamSchema, f { op with streamSchema } = f op) {responses : Json}
    (start : f op = value) : Returns (f · = value) (parseResponses env op schemaId responses) := by
  refine .after fun entries => ?_
  refine .bind (.foldlM (fun op entry => parseResponse_frame frame ignores) start) fun op kept => ?_
  exact .pure ((settled_frame frame op).trans kept)

end TypedClient.Walk
