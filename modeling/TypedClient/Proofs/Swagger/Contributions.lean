import TypedClient.Proofs.Swagger.References

/-! What parameters contribute to an operation. Each contributes for itself, whatever stands around
it, to the body, to the form or to the parameters; so an operation is put together from one list of
contributions. -/
namespace TypedClient.Swagger

section Parameters

/-- What one parameter adds to the parts of an operation. -/
inductive Contribution where
  | body (body : Json)
  | field (name : Json) (key : Key) (schema : Json) (required : Bool)
  | parameter (parameter : Json)

namespace Contribution

def parameter? : Contribution → Option Json
  | .parameter value => some value
  | _ => none

/-- Contributions that differ at most in the parameters that they add. -/
inductive Alike (stands : Json → Json → Prop) : Contribution → Contribution → Prop
  | same (c) : Alike stands c c
  | parameter {first second} (related : stands first second) :
    Alike stands (.parameter first) (.parameter second)

end Contribution

def Parts.add (parts : Parts) : Contribution → Parts
  | .body body => { parts with body := some body }
  | .field name key schema required =>
    { parts with
      formFields := parts.formFields.set key schema
      formRequired := parts.formRequired ++ if required then [name] else [] }
  | .parameter parameter => { parts with parameters := parts.parameters ++ [parameter] }

def located (consumes : Json) (members : Members) : Except Fault Contribution := do
  if (members.get "in").isText "body" then
    let schema := convertSchema ((members.get? "schema").getD (.obj []))
    let content ← contentOf (← consumes.elements) schema
    let required := (members.get? "required").getD (.bool false)
    return .body (.ofMembers [("content", content), ("required", required)])
  else if (members.get "in").isText "formData" then
    let name ← need members "name"
    return .field name (← name.toKey) (parameterSchema members) (members.get "required").truthy
  else
    return .parameter (if members.has "$ref" then .obj members else convertParameter members)

/-- What a parameter contributes, or the global body parameter that it refers to. -/
def contribution (around : Surroundings) (consumes parameter : Json) :
    Except Fault Contribution := do
  let members ← parameter.members
  located consumes (around.source members (← (members.get "$ref").toKey))

variable {around : Surroundings} {consumes : Json} {parts : Parts}

theorem addParameter_eq (parameter : Json) :
    addParameter around consumes parts parameter =
      parts.add <$> contribution around consumes parameter := by
  unfold addParameter contribution located
  cases parameter.members with
  | error fault => rfl
  | ok members =>
    cases found : (members.get "$ref").toKey with
    | error fault => simp only [bind, Except.bind, found]; rfl
    | ok key =>
      simp only [bind, Except.bind, found]
      split
      · cases consumes.elements with
        | error fault => rfl
        | ok mediaTypes =>
          dsimp only
          cases contentOf mediaTypes
            (convertSchema (((around.source members key).get? "schema").getD (.obj []))) <;> rfl
      split
      · cases need (around.source members key) "name" with
        | error fault => rfl
        | ok name =>
          dsimp only
          cases name.toKey <;> rfl
      · rfl

/-- The parts of an operation are what its parameters contribute one by one. -/
theorem foldlM_addParameter (parameters : List Json) :
    parameters.foldlM (addParameter around consumes) parts =
      (·.foldl Parts.add parts) <$> parameters.mapM (contribution around consumes) := by
  induction parameters generalizing parts with
  | nil => rfl
  | cons parameter rest ih =>
    rw [List.foldlM_cons, List.mapM_cons, addParameter_eq]
    cases contribution around consumes parameter with
    | error fault => rfl
    | ok first =>
      change rest.foldlM (addParameter around consumes) (parts.add first) = _
      rw [ih]
      cases rest.mapM (contribution around consumes) <;> rfl

theorem parameters_foldl_add (contributions : List Contribution) :
    (contributions.foldl Parts.add parts).parameters =
      parts.parameters ++ contributions.filterMap Contribution.parameter? := by
  induction contributions generalizing parts with
  | nil => simp
  | cons first rest ih =>
    rw [List.foldl_cons, ih]
    cases first <;> simp [Parts.add, Contribution.parameter?, List.filterMap_cons]

structure Parts.Alike (stands : Json → Json → Prop) (parts others : Parts) : Prop where
  parameters : List.Forall₂ stands parts.parameters others.parameters
  body : parts.body = others.body
  formFields : parts.formFields = others.formFields
  formRequired : parts.formRequired = others.formRequired

theorem Parts.Alike.add {stands : Json → Json → Prop} {others : Parts} {first second : Contribution}
    (reflexive : ∀ v, stands v v) (alike : Parts.Alike stands parts others)
    (contributed : first.Alike stands second) :
    Parts.Alike stands (parts.add first) (others.add second) := by
  obtain ⟨parameters, body, formFields, formRequired⟩ := alike
  cases contributed with
  | parameter related =>
    exact ⟨List.rel_append parameters (.cons related .nil), body, formFields, formRequired⟩
  | same =>
    cases first with
    | body => exact ⟨parameters, rfl, formFields, formRequired⟩
    | field =>
      exact ⟨parameters, body, by simp [Parts.add, formFields], by simp [Parts.add, formRequired]⟩
    | parameter =>
      exact ⟨List.rel_append parameters (.cons (reflexive _) .nil), body, formFields, formRequired⟩

theorem Parts.Alike.foldl_add {stands : Json → Json → Prop} {others : Parts}
    {first second : List Contribution} (reflexive : ∀ v, stands v v)
    (contributed : List.Forall₂ (Contribution.Alike stands) first second)
    (alike : Parts.Alike stands parts others) :
    Parts.Alike stands (first.foldl Parts.add parts) (second.foldl Parts.add others) := by
  induction contributed generalizing parts others with
  | nil => exact alike
  | cons related _ ih => exact ih (alike.add reflexive related)

theorem Parts.Alike.requestBody? {stands : Json → Json → Prop} {others : Parts}
    (alike : Parts.Alike stands parts others) :
    parts.requestBody? consumes = others.requestBody? consumes := by
  obtain ⟨_, body, formFields, formRequired⟩ := alike
  simp only [Parts.requestBody?, formBody, body, formFields, formRequired]

end Parameters

section Operations

variable {around : Surroundings} {shared operation converted : Json}

def consumedBy (around : Surroundings) (operation : Members) : Json :=
  (operation.get "consumes").orElse around.consumes

def assembled (operation : Members) (parts : Parts) (body : Option Json) (responses : Members) :
    Members :=
  let dropped := ["parameters", "responses", "consumes", "produces"]
  let kept : Members := operation.filter fun m => !dropped.any fun name => m.1.same name
  let parameters := if parts.parameters.isEmpty then none else some (.arr parts.parameters)
  Members.set (setSome (setSome kept "requestBody" body) "parameters" parameters)
    "responses" (.obj responses)

structure Converts (around : Surroundings) (parameters : List Json) (operation : Members)
    (contributions : List Contribution) (body : Option Json) (responses : Members) : Prop where
  contributed : parameters.mapM (contribution around (consumedBy around operation)) =
    .ok contributions
  bodied : (contributions.foldl Parts.add {}).requestBody? (consumedBy around operation) = .ok body
  answered : convertResponses ((operation.get "produces").orElse around.produces) operation =
    .ok responses

theorem convertOperation_eq_ok :
    convertOperation around shared operation = .ok converted ↔
      ∃ (members : Members) (outer own : List Json) (contributions : List Contribution)
        (body : Option Json) (responses : Members), operation = .obj members ∧
        shared.elements = .ok outer ∧
        ((members.get? "parameters").getD (.arr [])).elements = .ok own ∧
        Converts around (outer ++ own) members contributions body responses ∧
        converted = .obj (assembled members (contributions.foldl Parts.add {}) body responses) := by
  unfold convertOperation
  simp only [except_bind_eq_ok]
  constructor
  · rintro ⟨members, object, outer, above, own, listed, parts, folded, body, bodied, responses,
      answered, same⟩
    rw [foldlM_addParameter] at folded
    obtain ⟨contributions, contributed, rfl⟩ := except_map_eq_ok.mp folded
    cases same
    exact ⟨members, outer, own, contributions, body, responses, eq_obj_of_members object, above,
      listed, ⟨contributed, bodied, answered⟩, rfl⟩
  · rintro ⟨members, outer, own, contributions, body, responses, rfl, above, listed, converts, rfl⟩
    refine ⟨members, rfl, outer, above, own, listed, _, ?_, body, converts.bodied, responses,
      converts.answered, rfl⟩
    rw [foldlM_addParameter]
    exact except_map_eq_ok.mpr ⟨contributions, converts.contributed, rfl⟩

theorem get?_filter (members : Members) (names : List String) (name : String) :
    Members.get? (members.filter fun m => !names.any fun name => m.1.same name) name =
      if name ∈ names then none else members.get? name := by
  induction members with
  | nil => simp [Members.get?_nil]
  | cons m rest ih =>
    have kept : (!names.any fun name => m.1.same name) = true ↔
        ∀ other ∈ names, m.1 ≠ .text other := by
      simp [← Key.same_text]
    rw [List.filter_cons, Members.get?_cons]
    by_cases own : m.1 = name
    · by_cases listed : name ∈ names
      · rw [if_neg (fun keeps => kept.mp keeps name listed own), ih, if_pos listed, if_pos listed]
      · have keeps : ∀ other ∈ names, m.1 ≠ .text other := by
          rintro other member same
          exact listed (Key.text.inj (own.symm.trans same) ▸ member)
        rw [if_pos (kept.mpr keeps), Members.get?_cons, if_pos own, if_neg listed, if_pos own]
    · rw [if_neg own]
      split
      · rw [Members.get?_cons, if_neg own, ih]
      · exact ih

theorem get?_setSome (members : Members) (name : String) (value : Option Json) (other : String) :
    (setSome members name value).get? other =
      if other = name then value.or (members.get? other) else members.get? other := by
  cases value with
  | none => simp [setSome]
  | some v => simp [setSome, Members.get?_set]

theorem get?_assembled (operation : Members) (parts : Parts) (body : Option Json)
    (responses : Members) :
    (assembled operation parts body responses).get? "requestBody" =
        body.or (operation.get? "requestBody") ∧
      (assembled operation parts body responses).get? "parameters" =
        if parts.parameters.isEmpty then none else some (.arr parts.parameters) := by
  unfold assembled
  simp only [Members.get?_set, get?_setSome, get?_filter]
  simp

end Operations

section Paths

variable {around : Surroundings} {item converted : Json}

theorem any_methods {key : Key} :
    (methods.any fun name => key.same name) = true ↔ ∃ method ∈ methods, key = .text method := by
  simp [List.any_eq_true, Key.same_text]

/-- How a member of a path is converted: as an operation, not at all or as it is. -/
def convertMember (around : Surroundings) (shared : Json) (m : Key × Json) :
    Except Fault (Option (Key × Json)) := do
  if methods.any fun name => m.1.same name then
    return some (m.1, ← convertOperation around shared m.2)
  else if m.1.same "parameters" then return none
  else return some m

theorem convertPath_eq_ok :
    convertPath around item = .ok converted ↔
      ∃ (members : Members) (results : List (Option (Key × Json))), item = .obj members ∧
        members.mapM (convertMember around ((members.get? "parameters").getD (.arr []))) =
          .ok results ∧
        converted = .obj (results.filterMap id) := by
  unfold convertPath
  simp only [except_bind_eq_ok]
  constructor
  · rintro ⟨members, object, results, mapped, same⟩
    cases same
    exact ⟨members, results, eq_obj_of_members object, mapped, rfl⟩
  · rintro ⟨members, results, rfl, mapped, rfl⟩
    exact ⟨members, rfl, results, mapped, rfl⟩

/-- The operations of a path are found where they were. -/
theorem get?_convertMembers {members : Members} {results : List (Option (Key × Json))}
    {shared : Json} (mapped : members.mapM (convertMember around shared) = .ok results)
    {method : String} (known : method ∈ methods) :
    Option.Rel (fun operation converted => convertOperation around shared operation = .ok converted)
      (members.get? method) (Members.get? (results.filterMap id) method) := by
  induction except_mapM_eq_ok.mp mapped with
  | nil => exact .none
  | @cons m result members results first rest ih =>
    specialize ih (except_mapM_eq_ok.mpr rest)
    have kept (m : Key × Json) : (some m :: results).filterMap id = m :: results.filterMap id := rfl
    rw [Members.get?_cons]
    unfold convertMember at first
    by_cases own : m.1 = method
    · rw [if_pos (any_methods.mpr ⟨method, known, own⟩)] at first
      obtain ⟨operation, made, same⟩ := except_bind_eq_ok.mp first
      cases same
      rw [if_pos own, kept, Members.get?_cons, if_pos own]
      exact .some made
    · rw [if_neg own]
      split at first
      · obtain ⟨operation, made, same⟩ := except_bind_eq_ok.mp first
        cases same
        rwa [kept, Members.get?_cons, if_neg own]
      split at first
      · cases first
        rwa [List.filterMap_cons_none rfl]
      · cases first
        rwa [kept, Members.get?_cons, if_neg own]

end Paths

end TypedClient.Swagger
