import TypedClient.Proofs.Swagger.Copies

/-! Operations before and after copies replace references. They agree if a copy contributes what a
reference does; and if a reference alone contributes a parameter, then every replacement shows. -/
namespace TypedClient.Swagger

open Json

section Agreement

variable {around : Surroundings} {stands : Json → Json → Prop} {members others : Members}
  {parameters swapped : List Json} {contributions more : List Contribution}
  {body body' : Option Json} {responses responses' : Members}

def Agree (stands : Json → Json → Prop) (first second : Json) : Prop :=
  member? first "requestBody" = member? second "requestBody" ∧
    List.Forall₂ stands (listed (member? first "parameters")) (listed (member? second "parameters"))

theorem consumedBy_congr
    (same : ∀ name, name ≠ "parameters" → members.get? name = others.get? name) :
    consumedBy around members = consumedBy around others := by
  simp only [consumedBy, Members.get, same "consumes" (by decide)]

theorem listed_assembled (members : Members) (contributions : List Contribution)
    (body : Option Json) (responses : Members) :
    listed (member? (.obj (assembled members (contributions.foldl Parts.add {}) body responses))
      "parameters") = contributions.filterMap Contribution.parameter? := by
  rw [member?, (get?_assembled _ _ _ _).2, parameters_foldl_add, List.nil_append]
  split
  · rename_i empty
    rw [List.isEmpty_iff.mp empty]
    rfl
  · rfl

theorem agree_of_converts (reflexive : ∀ v, stands v v)
    (same : ∀ name, name ≠ "parameters" → members.get? name = others.get? name)
    (converts : Converts around parameters members contributions body responses)
    (converts' : Converts around swapped others more body' responses')
    (alike : List.Forall₂ (Contribution.Alike stands) contributions more) :
    Agree stands (.obj (assembled members (contributions.foldl Parts.add {}) body responses))
      (.obj (assembled others (more.foldl Parts.add {}) body' responses')) := by
  have parts : Parts.Alike stands (contributions.foldl Parts.add {}) (more.foldl Parts.add {}) :=
    .foldl_add reflexive alike ⟨.nil, rfl, rfl, rfl⟩
  have bodies : body = body' := by
    have bodied := converts.bodied
    rw [parts.requestBody?, consumedBy_congr same, converts'.bodied] at bodied
    exact (Except.ok.inj bodied).symm
  refine ⟨?_, ?_⟩
  · simp only [member?, (get?_assembled _ _ _ _).1, bodies, same "requestBody" (by decide)]
  · have related := parts.parameters
    rw [parameters_foldl_add, parameters_foldl_add] at related
    rw [listed_assembled, listed_assembled]
    exact related

theorem converts_of_alike (reflexive : ∀ v, stands v v)
    (same : ∀ name, name ≠ "parameters" → members.get? name = others.get? name)
    (converts : Converts around parameters members contributions body responses)
    (contributed : swapped.mapM (contribution around (consumedBy around members)) = .ok more)
    (alike : List.Forall₂ (Contribution.Alike stands) contributions more) :
    Converts around swapped others more body responses := by
  have parts : Parts.Alike stands (contributions.foldl Parts.add {}) (more.foldl Parts.add {}) :=
    .foldl_add reflexive alike ⟨.nil, rfl, rfl, rfl⟩
  refine ⟨?_, ?_, ?_⟩
  · rw [← consumedBy_congr same]
    exact contributed
  · rw [← parts.requestBody?, ← consumedBy_congr same]
    exact converts.bodied
  · have answered := converts.answered
    simp only [convertResponses, Members.get, same "produces" (by decide),
      same "responses" (by decide)] at answered ⊢
    exact answered

/-- A copy contributes what the reference does, but for the spelling of parameters. -/
def Sees (stands : Json → Json → Prop) (around : Surroundings) (reference copy : Json) : Prop :=
  ∀ consumes c, contribution around consumes reference = .ok c →
    ∃ c', contribution around consumes copy = .ok c' ∧ c.Alike stands c'

/-- The reference contributes a parameter, but a copy does not. -/
def Blind (around : Surroundings) (reference copy : Json) : Prop :=
  ∀ consumes c c', contribution around consumes reference = .ok c →
    contribution around consumes copy = .ok c' → (∃ p, c.parameter? = some p) ∧ c'.parameter? = none

variable {reference copy consumes : Json}

theorem Sees.exists_mapM (sees : Sees stands around reference copy)
    (pairs : List.Forall₂ (Swapped reference copy) parameters swapped)
    (contributed : parameters.mapM (contribution around consumes) = .ok contributions) :
    ∃ more, swapped.mapM (contribution around consumes) = .ok more ∧
      List.Forall₂ (Contribution.Alike stands) contributions more := by
  simp only [except_mapM_eq_ok] at contributed ⊢
  induction pairs generalizing contributions with
  | nil =>
    cases contributed
    exact ⟨[], .nil, .nil⟩
  | @cons first second parameters swapped pair _ ih =>
    obtain _ | ⟨made, rest⟩ := contributed
    obtain ⟨more, others, alike⟩ := ih rest
    rcases pair with rfl | ⟨rfl, rfl⟩
    · exact ⟨_, .cons made others, .cons (.same _) alike⟩
    · obtain ⟨c', copied, related⟩ := sees consumes _ made
      exact ⟨_, .cons copied others, .cons related alike⟩

/-- Every reference that is replaced is missing among the parameters. -/
theorem Blind.length_le (blind : Blind around reference copy)
    (pairs : List.Forall₂ (Swapped reference copy) parameters swapped)
    (contributed : parameters.mapM (contribution around consumes) = .ok contributions)
    (contributed' : swapped.mapM (contribution around consumes) = .ok more) :
    let fewer := (more.filterMap Contribution.parameter?).length
    let all := (contributions.filterMap Contribution.parameter?).length
    fewer ≤ all ∧ (fewer = all → parameters = swapped) := by
  simp only [except_mapM_eq_ok] at contributed contributed'
  induction pairs generalizing contributions more with
  | nil =>
    cases contributed
    cases contributed'
    exact ⟨Nat.le_refl _, fun _ => rfl⟩
  | @cons first second parameters swapped pair _ ih =>
    obtain _ | @⟨_, c, _, contributions, made, rest⟩ := contributed
    obtain _ | @⟨_, c', _, more, made', rest'⟩ := contributed'
    obtain ⟨le, eq⟩ := ih rest rest'
    simp only [List.filterMap_cons]
    rcases pair with rfl | ⟨rfl, rfl⟩
    · cases made.symm.trans made'
      cases c.parameter? with
      | none => exact ⟨le, fun same => by rw [eq same]⟩
      | some p =>
        simp only [List.length_cons]
        exact ⟨by omega, fun same => by rw [eq (by omega)]⟩
    · obtain ⟨⟨p, given⟩, missing⟩ := blind consumes c c' made made'
      simp only [given, missing, List.length_cons]
      exact ⟨by omega, fun same => by omega⟩

end Agreement

section Operations

variable {around : Surroundings} {stands : Json → Json → Prop} {reference copy : Json}
  {outer outer' : Option Json} {operation operation' converted converted' : Json}

theorem listed_eq {value : Option Json} {items : List Json}
    (read : (value.getD (.arr [])).elements = .ok items) : listed value = items := by
  simp [listed, read, Except.toOption]

/-- The conversion of an operation, by the parameters that it takes. -/
theorem exists_converts
    (done : convertOperation around (outer.getD (.arr [])) operation = .ok converted) :
    ∃ (members : Members) (contributions : List Contribution) (body : Option Json)
      (responses : Members), operation = .obj members ∧
      Converts around (listed outer ++ listed (member? operation "parameters")) members contributions
        body responses ∧
      converted = .obj (assembled members (contributions.foldl Parts.add {}) body responses) := by
  obtain ⟨members, above, own, contributions, body, responses, rfl, shared, mine, converts, rfl⟩ :=
    convertOperation_eq_ok.mp done
  rw [member?, listed_eq shared, listed_eq mine]
  exact ⟨members, contributions, body, responses, rfl, converts, rfl⟩

theorem elements_swaps (swaps : Option.Rel (SwapsItems reference copy) outer outer')
    {items : List Json} (read : (outer.getD (.arr [])).elements = .ok items) :
    ∃ others, (outer'.getD (.arr [])).elements = .ok others := by
  cases swaps with
  | none => exact ⟨items, read⟩
  | some related =>
    obtain ⟨others, found, _⟩ := related.elements read
    exact ⟨others, found⟩

structure Swapping (reference copy : Json) (outer outer' : Option Json)
    (operation operation' : Json) : Prop where
  shared : Option.Rel (SwapsItems reference copy) outer outer'
  operation : SwapsOperation reference copy operation operation'

namespace Swapping

variable (swaps : Swapping reference copy outer outer' operation operation')
include swaps

theorem pairs : List.Forall₂ (Swapped reference copy)
    (listed outer ++ listed (member? operation "parameters"))
    (listed outer' ++ listed (member? operation' "parameters")) :=
  List.rel_append (listed_swaps swaps.shared) (listed_swaps swaps.operation.own)

theorem exists_convertOperation (sees : Sees stands around reference copy)
    (reflexive : ∀ v, stands v v)
    (done : convertOperation around (outer.getD (.arr [])) operation = .ok converted) :
    ∃ converted', convertOperation around (outer'.getD (.arr [])) operation' = .ok converted' := by
  obtain ⟨members, above, own, contributions, body, responses, rfl, shared, mine, converts, rfl⟩ :=
    convertOperation_eq_ok.mp done
  obtain ⟨others, rfl, _⟩ := Along.members (AtKey.refl fun _ => .inl rfl) swaps.operation
  obtain ⟨above', shared'⟩ := elements_swaps swaps.shared shared
  obtain ⟨own', mine'⟩ := elements_swaps swaps.operation.own mine
  have pairs : List.Forall₂ (Swapped reference copy) (above ++ own) (above' ++ own') := by
    rw [← listed_eq shared, ← listed_eq mine, ← listed_eq shared', ← listed_eq mine']
    exact swaps.pairs
  obtain ⟨more, contributed, alike⟩ := sees.exists_mapM pairs converts.contributed
  have same (name : String) (apart : name ≠ "parameters") : members.get? name = others.get? name :=
    swaps.operation.other apart
  exact ⟨_, convertOperation_eq_ok.mpr ⟨others, above', own', more, body, responses, rfl, shared',
    mine', converts_of_alike reflexive same converts contributed alike, rfl⟩⟩

theorem agree (reflexive : ∀ v, stands v v)
    (done : convertOperation around (outer.getD (.arr [])) operation = .ok converted)
    (done' : convertOperation around (outer'.getD (.arr [])) operation' = .ok converted')
    (seen : Sees stands around reference copy ∨
      listed outer ++ listed (member? operation "parameters") =
        listed outer' ++ listed (member? operation' "parameters")) :
    Agree stands converted converted' := by
  obtain ⟨members, contributions, body, responses, rfl, converts, rfl⟩ := exists_converts done
  obtain ⟨others, more, body', responses', rfl, converts', rfl⟩ := exists_converts done'
  have same (name : String) (apart : name ≠ "parameters") : members.get? name = others.get? name :=
    swaps.operation.other apart
  refine agree_of_converts reflexive same converts converts' ?_
  have contributed := converts'.contributed
  rw [← consumedBy_congr same] at contributed
  rcases seen with sees | equal
  · obtain ⟨_, again, alike⟩ := sees.exists_mapM swaps.pairs converts.contributed
    cases contributed.symm.trans again
    exact alike
  · rw [← equal, converts.contributed] at contributed
    cases contributed
    exact List.forall₂_same.mpr fun c _ => .same c

theorem eq_of_agree (blind : Blind around reference copy)
    (done : convertOperation around (outer.getD (.arr [])) operation = .ok converted)
    (done' : convertOperation around (outer'.getD (.arr [])) operation' = .ok converted')
    (agree : Agree stands converted converted') :
    listed outer ++ listed (member? operation "parameters") =
      listed outer' ++ listed (member? operation' "parameters") := by
  obtain ⟨members, contributions, body, responses, rfl, converts, rfl⟩ := exists_converts done
  obtain ⟨others, more, body', responses', rfl, converts', rfl⟩ := exists_converts done'
  have same (name : String) (apart : name ≠ "parameters") : members.get? name = others.get? name :=
    swaps.operation.other apart
  have contributed := converts'.contributed
  rw [← consumedBy_congr same] at contributed
  have lengths := agree.2.length_eq
  rw [listed_assembled, listed_assembled] at lengths
  exact (blind.length_le swaps.pairs converts.contributed contributed).2 lengths.symm

end Swapping

end Operations

end TypedClient.Swagger
