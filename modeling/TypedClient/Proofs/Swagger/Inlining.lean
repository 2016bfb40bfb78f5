import TypedClient.Proofs.Swagger.Agreement

/-! References to global parameters, and copies of the parameters in their places. The conversion
makes the same of both wherever it sees the location of the parameter: it looks up the bodies only,
so a reference to a form field stays among the parameters. -/
namespace TypedClient.Swagger

open Json Pointer

section References

variable {around : Surroundings} {consumes : Json} {pointer : String} {parameter : Members}

def referenceTo (pointer : String) : Json :=
  .obj [("$ref", .str pointer)]

theorem contribution_reference : contribution around consumes (referenceTo pointer) =
    match around.bodies.lookup pointer with
    | some body => located consumes body
    | none => .ok (.parameter (referenceTo pointer)) := by
  change located consumes (around.source [("$ref", .str pointer)] (.text pointer)) = _
  unfold Surroundings.source
  dsimp only
  cases around.bodies.lookup pointer <;> rfl

theorem contribution_copy (plain : parameter.get? "$ref" = none) :
    contribution around consumes (.obj parameter) = located consumes parameter := by
  have missing : parameter.get "$ref" = .null := by rw [Members.get, plain]; rfl
  unfold contribution
  change (do located consumes (around.source parameter (← (parameter.get "$ref").toKey))) = _
  rw [missing]
  rfl

/-- The location of a parameter is one of the two that become part of a body. -/
def inBody (parameter : Members) : Bool :=
  (parameter.get "in").isText "body" || (parameter.get "in").isText "formData"

theorem located_of_inBody {c : Contribution} (inside : inBody parameter = true)
    (done : located consumes parameter = .ok c) : c.parameter? = none := by
  unfold located at done
  split at done
  · obtain ⟨_, _, done⟩ := except_bind_eq_ok.mp done
    obtain ⟨_, _, done⟩ := except_bind_eq_ok.mp done
    cases done
    rfl
  split at done
  · obtain ⟨_, _, done⟩ := except_bind_eq_ok.mp done
    obtain ⟨_, _, done⟩ := except_bind_eq_ok.mp done
    cases done
    rfl
  · simp_all [inBody]

theorem located_of_not_inBody (plain : parameter.get? "$ref" = none)
    (outside : inBody parameter = false) :
    located consumes parameter = .ok (.parameter (convertParameter parameter)) := by
  rw [inBody, Bool.or_eq_false_iff] at outside
  simp only [located, outside.1, outside.2, Members.has, plain]
  rfl

theorem sees_of_lookup {stands : Json → Json → Prop} (plain : parameter.get? "$ref" = none)
    (looked : around.bodies.lookup pointer = some parameter) :
    Sees stands around (referenceTo pointer) (.obj parameter) := by
  intro consumes c made
  rw [contribution_reference, looked] at made
  exact ⟨c, (contribution_copy plain).trans made, .same c⟩

theorem sees_of_not_inBody {stands : Json → Json → Prop} (plain : parameter.get? "$ref" = none)
    (unlisted : around.bodies.lookup pointer = none) (outside : inBody parameter = false)
    (related : stands (referenceTo pointer) (convertParameter parameter)) :
    Sees stands around (referenceTo pointer) (.obj parameter) := by
  intro consumes c made
  rw [contribution_reference, unlisted] at made
  cases made
  exact ⟨_, (contribution_copy plain).trans (located_of_not_inBody plain outside), .parameter related⟩

theorem blind_of_inBody (plain : parameter.get? "$ref" = none)
    (unlisted : around.bodies.lookup pointer = none) (inside : inBody parameter = true) :
    Blind around (referenceTo pointer) (.obj parameter) := by
  intro consumes c c' made made'
  rw [contribution_reference, unlisted] at made
  cases made
  rw [contribution_copy plain] at made'
  exact ⟨⟨_, rfl⟩, located_of_inBody inside made'⟩

theorem moveRefs_referenceTo (text : String) :
    moveRefs (referenceTo ("#/parameters/" ++ text)) =
      referenceTo ("#/components/parameters/" ++ text) := by
  have found : refMoves.find? (fun move =>
      move.1.toList.isPrefixOf ("#/parameters/" ++ text).toList) =
        some ("#/parameters/", "#/components/parameters/") := by
    simp [refMoves]
  have length : "#/parameters/".length = 13 := rfl
  have moved : moveRef ("#/parameters/" ++ text) = "#/components/parameters/" ++ text := by
    simp only [moveRef, found]
    simp [length]
  rw [referenceTo, moveRefs, moveRefsMembers_cons, moveAt, moved]
  rfl

/-- A copy is no reference, and stays none when references are moved. -/
theorem eq_of_map_moveRefs {text : String} {xs ys : List Json} (plain : parameter.get? "$ref" = none)
    (pairs : List.Forall₂ (Swapped (referenceTo text) (.obj parameter)) xs ys)
    (same : xs.map moveRefs = ys.map moveRefs) : xs = ys := by
  induction pairs with
  | nil => rfl
  | @cons x y xs ys pair _ ih =>
    rw [List.map_cons, List.map_cons, List.cons.injEq] at same
    rcases pair with rfl | ⟨rfl, rfl⟩
    · rw [ih same.2]
    · have moved := same.1
      rw [referenceTo, moveRefs, moveRefs, Json.obj.injEq] at moved
      have found := congrArg (Members.get? · "$ref") moved
      simp only [get?_moveRefsMembers, plain, Members.get?_cons] at found
      cases found

end References

section Globals

variable {members bodyless : Members} {bodies : List (String × Members)} {text name : String}
  {parameter : Members}

/-- A text spells the name of a global parameter. The parameter is no reference itself, and no
other is shown as the text. -/
structure Leads (document : Json) (text name : String) (parameter : Members) : Prop where
  spells : Spells text name
  found : (member? document "parameters").bind (member? · name) = some (.obj parameter)
  plain : parameter.get? "$ref" = none
  only : ∀ globals, member? document "parameters" = some (.obj globals) →
    ∀ m ∈ globals, m.1.display = text → m = (.text name, .obj parameter)

/-- The conversion sees the location of the parameter: it looks up a body by its name alone, and a
form field not at all. -/
def Seen (text name : String) (parameter : Members) : Prop :=
  (parameter.get "in").isText "formData" = false ∧
    ((parameter.get "in").isText "body" = true → text = name)

theorem Leads.globals (leads : Leads (.obj members) text name parameter) :
    ∃ globals : Members, members.get? "parameters" = some (.obj globals) ∧
      globals.get? name = some (.obj parameter) := by
  obtain ⟨value, outer, inner⟩ := Option.bind_eq_some_iff.mp leads.found
  cases value with
  | obj globals => exact ⟨globals, outer, inner⟩
  | _ => cases inner

/-- The global parameters of a document after its references are moved. -/
theorem Leads.sources (leads : Leads (.obj members) text name parameter)
    (done : globalParameters (moveRefsMembers members) = .ok (bodies, bodyless)) :
    ∃ (globals : Members) (sources : List (Key × Members)),
      members.get? "parameters" = some (.obj globals) ∧
      List.Forall₂ (fun m (p : Key × Members) => p.1 = m.1 ∧ m.2 = .obj p.2)
        (moveRefsMembers globals) sources ∧
      Members.get? (moveRefsMembers globals) name = some (.obj (moveRefsMembers parameter)) ∧
      (∀ p ∈ sources, p.1.display = text → p = (.text name, moveRefsMembers parameter)) ∧
      bodies = ((sources.filter fun p => (p.2.get "in").isText "body").reverse.map fun p =>
        ("#/components/parameters/" ++ p.1.display, p.2)) ∧
      bodyless = ((sources.filter fun p => !(p.2.get "in").isText "body").map fun p =>
        (p.1, convertParameter p.2)) := by
  obtain ⟨globals, outer, inner⟩ := leads.globals
  obtain ⟨entries, sources, object, pairs, listed, others⟩ := globalParameters_eq_ok done
  obtain ⟨_, same, rfl⟩ := object_of_moved (by decide) outer object
  cases same
  refine ⟨globals, sources, outer, pairs, ?_, ?_, listed, others⟩
  · rw [get?_moveRefsMembers, inner, Option.map_some, moveAt_obj]
  · intro p member shown
    obtain ⟨m, held, key, value⟩ := exists_of_forall₂ pairs member
    rw [moveRefsMembers_eq, List.mem_map] at held
    obtain ⟨m, held, rfl⟩ := held
    obtain rfl := leads.only globals outer m held (key ▸ shown)
    rw [moveAt_obj] at value
    exact Prod.ext key (Json.obj.inj value).symm

theorem Leads.lookup (leads : Leads (.obj members) text name parameter)
    (done : globalParameters (moveRefsMembers members) = .ok (bodies, bodyless)) :
    bodies.lookup ("#/components/parameters/" ++ text) =
      if (parameter.get "in").isText "body" = true ∧ text = name then
        some (moveRefsMembers parameter)
      else none := by
  obtain ⟨globals, sources, _, pairs, found, only, rfl, _⟩ := leads.sources done
  have known (body : Members) (held : ("#/components/parameters/" ++ text, body) ∈
      (sources.filter fun p => (p.2.get "in").isText "body").reverse.map fun p =>
        ("#/components/parameters/" ++ p.1.display, p.2)) :
      body = moveRefsMembers parameter ∧ (parameter.get "in").isText "body" = true ∧ text = name := by
    obtain ⟨p, member, same⟩ := List.mem_map.mp held
    rw [List.mem_reverse, List.mem_filter] at member
    obtain ⟨pointer, rfl⟩ := Prod.mk.inj same
    have shown : p.1.display = text := by
      rw [← String.toList_inj] at pointer ⊢
      simpa using pointer
    obtain rfl := only p member.1 shown
    rw [isText_get_moveRefsMembers (by decide)] at member
    exact ⟨rfl, member.2, shown.symm⟩
  split
  · rename_i body
    obtain ⟨m, held, key, value⟩ := Members.exists_of_get? found
    obtain ⟨p, member, same, own⟩ := exists_of_forall₂ pairs.flip held
    have shown : p.1.display = text := by
      rw [same, Key.same_text.mp key, body.2]
      rfl
    obtain rfl := only p member shown
    have inside : (Members.get (moveRefsMembers parameter) "in").isText "body" = true :=
      (isText_get_moveRefsMembers (by decide)).trans body.1
    cases looked : List.lookup ("#/components/parameters/" ++ text) _ with
    | some value =>
      obtain ⟨rfl, _⟩ := known value (mem_of_lookup looked)
      rfl
    | none =>
      have missing := List.lookup_eq_none_iff.mp looked _ (List.mem_map_of_mem (List.mem_reverse.mpr
        (List.mem_filter.mpr ⟨member, inside⟩)))
      rw [shown] at missing
      simp at missing
  · rename_i other
    cases looked : List.lookup ("#/components/parameters/" ++ text) _ with
    | some value => exact absurd (known value (mem_of_lookup looked)).2 other
    | none => rfl

/-- A parameter outside the bodies is found among the components. -/
theorem Leads.resolve (leads : Leads (.obj members) text name parameter) {result : Json}
    (outside : (parameter.get "in").isText "body" = false)
    (done : convertMoved (moveRefsMembers members) = .ok result) :
    ∃ target, resolve (.str ("#/components/parameters/" ++ text)) result = .ok (some target) ∧
      target.fragment = convertParameter (moveRefsMembers parameter) := by
  obtain ⟨top, definitions, bodies, parameters, responses, rfl, _, globals, _, outer⟩ :=
    exists_components done
  obtain ⟨_, sources, _, pairs, found, _, _, rfl⟩ := leads.sources globals
  have held := get?_of_sources pairs found ((isText_get_moveRefsMembers (by decide)).trans outside)
  have nonempty : ((sources.filter fun p => !(p.2.get "in").isText "body").map fun p =>
      (p.1, convertParameter p.2)) ≠ [] := by
    intro empty
    rw [empty] at held
    cases held
  have inner := (get?_components (moveRefsMembers members) definitions _ responses).2.1 nonempty
  exact ⟨_, resolve_component (.refl rfl) leads.spells (by simp) outer inner held rfl, rfl⟩

end Globals

section Documents

variable {around : Surroundings} {stands : Json → Json → Prop} {reference copy : Json}

/-- Steps on related items succeed together. -/
theorem exists_mapM {α β γ δ : Type} {R : α → β → Prop} {f : α → Except Fault γ}
    {g : β → Except Fault δ} {xs : List α} {ys : List β} {results : List γ}
    (pairs : List.Forall₂ R xs ys)
    (step : ∀ x y result, R x y → f x = .ok result → ∃ other, g y = .ok other)
    (done : xs.mapM f = .ok results) : ∃ others, ys.mapM g = .ok others := by
  simp only [except_mapM_eq_ok] at done ⊢
  induction pairs generalizing results with
  | nil => exact ⟨[], .nil⟩
  | cons pair _ ih =>
    obtain _ | ⟨first, rest⟩ := done
    obtain ⟨other, made⟩ := step _ _ _ pair first
    obtain ⟨others, made'⟩ := ih rest
    exact ⟨other :: others, .cons made made'⟩

theorem exists_convertPath {item item' converted : Json} (sees : Sees stands around reference copy)
    (reflexive : ∀ v, stands v v) (swaps : SwapsPath reference copy item item')
    (done : convertPath around item = .ok converted) :
    ∃ converted', convertPath around item' = .ok converted' := by
  obtain ⟨members, results, rfl, mapped, rfl⟩ := convertPath_eq_ok.mp done
  obtain ⟨others, rfl, pairs⟩ := Along.members swapsPath_refl swaps
  have shared := swaps.shared
  obtain ⟨results', mapped'⟩ : ∃ results', others.mapM
      (convertMember around ((others.get? "parameters").getD (.arr []))) = .ok results' := by
    refine exists_mapM pairs (fun m m' result pair made => ?_) mapped
    unfold convertMember at made ⊢
    rw [pair.1]
    split
    · rename_i method
      rw [if_pos method] at made
      obtain ⟨operation, converted, _⟩ := except_bind_eq_ok.mp made
      have swapping : Swapping reference copy (members.get? "parameters") (others.get? "parameters")
          m.2 m'.2 := ⟨shared, (if_pos method).mp pair.2⟩
      obtain ⟨operation', converted'⟩ := swapping.exists_convertOperation sees reflexive converted
      exact ⟨_, except_bind_eq_ok.mpr ⟨operation', converted', rfl⟩⟩
    split
    · exact ⟨_, rfl⟩
    · exact ⟨_, rfl⟩
  exact ⟨_, convertPath_eq_ok.mpr ⟨others, results', rfl, mapped', rfl⟩⟩

theorem exists_convertEach {members others entries : Members} {name : String}
    {convert : Key → Json → Except Fault Json} {related : Json → Json → Prop}
    (reflexive : ∀ v, related v v)
    (swaps : Option.Rel (Along fun _ => related) (members.get? name) (others.get? name))
    (step : ∀ key v v' converted, related v v' → convert key v = .ok converted →
      ∃ converted', convert key v' = .ok converted')
    (done : convertEach members name convert = .ok entries) :
    ∃ entries', convertEach others name convert = .ok entries' := by
  unfold convertEach at done ⊢
  obtain ⟨inner, object, mapped⟩ := except_bind_eq_ok.mp done
  have object := eq_obj_of_members object
  have held : ∃ inner' : Members, (others.get? name).getD (.obj []) = .obj inner' ∧
      List.Forall₂ (fun m m' => m'.1 = m.1 ∧ related m.2 m'.2) inner inner' := by
    generalize members.get? name = value, others.get? name = other at swaps object
    cases swaps with
    | none =>
      cases object
      exact ⟨[], rfl, .nil⟩
    | @some value other along =>
      rw [Option.getD_some] at object
      subst object
      exact Along.members (fun _ => reflexive) along
  obtain ⟨inner', object', pairs⟩ := held
  obtain ⟨entries', mapped'⟩ := exists_mapM
    (g := fun m : Key × Json => do return (m.1, ← convert m.1 m.2)) pairs (fun m m' _ pair made => by
      obtain ⟨converted, first, _⟩ := except_bind_eq_ok.mp made
      obtain ⟨converted', second⟩ := step _ _ _ _ pair.2 first
      exact ⟨_, except_bind_eq_ok.mpr ⟨converted', pair.1 ▸ second, rfl⟩⟩) mapped
  exact ⟨entries', except_bind_eq_ok.mpr ⟨inner', by rw [object']; rfl, mapped'⟩⟩

theorem exists_convertMoved {members others : Members} {result : Json}
    (sees : ∀ around bodyless, globalParameters members = .ok (around.bodies, bodyless) →
      Sees stands around reference copy)
    (reflexive : ∀ v, stands v v) (swaps : Swaps reference copy (.obj members) (.obj others))
    (done : convertMoved members = .ok result) : ∃ result', convertMoved others = .ok result' := by
  obtain ⟨urls, definitions, bodies, parameters, responses, paths, served, defined, globals,
    answered, walked, rfl⟩ := convertMoved_eq_ok done
  have same (name : String) (apart : name ≠ "paths") : members.get? name = others.get? name :=
    Along.other (fun _ => .inl rfl) swaps apart
  have kept : Option.Rel (Along fun _ => SwapsPath reference copy) (members.get? "paths")
      (others.get? "paths") := Along.own (fun _ => .inl rfl) swaps
  obtain ⟨paths', walked'⟩ := exists_convertEach (fun _ => .inl rfl) kept
    (fun _ _ _ _ => exists_convertPath (sees ⟨_, _, bodies⟩ parameters globals) reflexive) walked
  simp only [producedBy, servers, convertEach, globalParameters, Members.get, same "host" (by decide),
    same "basePath" (by decide), same "schemes" (by decide), same "definitions" (by decide),
    same "parameters" (by decide), same "responses" (by decide), same "produces" (by decide),
    same "consumes" (by decide)] at served defined globals answered walked'
  exact ⟨_, except_bind_eq_ok.mpr ⟨urls, served, except_bind_eq_ok.mpr ⟨definitions, defined,
    except_bind_eq_ok.mpr ⟨(bodies, parameters), globals, except_bind_eq_ok.mpr ⟨responses, answered,
      except_bind_eq_ok.mpr ⟨paths', walked', rfl⟩⟩⟩⟩⟩⟩

/-- Converted entries are found where they were. -/
theorem rel_convertEach {document members : Members} {name : String}
    {convert : Key → Json → Except Fault Json}
    (done : convertEach document name convert = .ok members) (key : String) :
    Option.Rel (fun v v' => convert key v = .ok v') ((document.get? name).bind (member? · key))
      (members.get? key) := by
  obtain ⟨entries, object, pairs⟩ := convertEach_eq_ok done
  have held : (document.get? name).bind (member? · key) = Members.get? entries key := by
    cases found : document.get? name with
    | none =>
      rw [found] at object
      cases object
      rfl
    | some value =>
      rw [found, Option.getD_some] at object
      rw [Option.bind_some, object]
      rfl
  rw [held]
  exact @rel_get? (fun key v v' => convert key v = .ok v') entries members pairs key

theorem rel_convertPath {item converted : Json} (done : convertPath around item = .ok converted)
    {method : String} (known : method ∈ methods) :
    Option.Rel (fun operation converted =>
        convertOperation around ((member? item "parameters").getD (.arr [])) operation = .ok converted)
      (member? item method) (member? converted method) := by
  obtain ⟨members, results, rfl, mapped, rfl⟩ := convertPath_eq_ok.mp done
  exact get?_convertMembers mapped known

def surroundings (document : Members) (bodies : List (String × Members)) : Surroundings :=
  ⟨(document.get "consumes").orElse (.arr ["application/json"]), producedBy document, bodies⟩

/-- The paths of a converted document. -/
theorem exists_paths {members : Members} {result : Json} (done : convertMoved members = .ok result) :
    ∃ bodies bodyless, globalParameters members = .ok (bodies, bodyless) ∧
      ∀ path : String, Option.Rel
        (fun item converted => convertPath (surroundings members bodies) item = .ok converted)
        ((member? (.obj members) "paths").bind (member? · path))
        ((member? result "paths").bind (member? · path)) := by
  obtain ⟨urls, definitions, bodies, parameters, responses, paths, _, _, globals, _, walked, rfl⟩ :=
    convertMoved_eq_ok done
  refine ⟨bodies, parameters, globals, fun path => ?_⟩
  have served : Members.get? (if urls.isEmpty then [] else [(.text "servers", .arr urls)])
      "paths" = none := by
    split <;> rfl
  have found : member? (.obj ([(.text "openapi", .str "3.0.3"), (.text "info",
      (members.get? "info").getD (.ofMembers [("title", ""), ("version", "")]))] ++
      (if urls.isEmpty then [] else [(.text "servers", .arr urls)]) ++
      carry members "tags" "tags" ++ carry members "security" "security" ++
      [(.text "components", .obj (components members definitions parameters responses)),
       (.text "paths", .obj paths)])) "paths" = some (.obj paths) := by
    rw [member?, Members.get?_append, Members.get?_append, Members.get?_append, Members.get?_append,
      served]
    simp [Members.get?_cons, Members.get?_nil, get?_carry]
  rw [found]
  exact rel_convertEach walked path

end Documents

/-- The components do not depend on the paths. -/
theorem components_of_swaps {reference copy result other : Json} {members others : Members}
    (swaps : Swaps reference copy (.obj members) (.obj others))
    (done : convertMoved members = .ok result) (done' : convertMoved others = .ok other) :
    member? other "components" = member? result "components" := by
  have same (name : String) (apart : name ≠ "paths") : members.get? name = others.get? name :=
    Along.other (fun _ => .inl rfl) swaps apart
  obtain ⟨top, definitions, bodies, parameters, responses, rfl, defined, globals, answered, outer⟩ :=
    exists_components done
  obtain ⟨_, definitions', bodies', parameters', responses', rfl, defined', globals', answered',
    outer'⟩ := exists_components done'
  simp only [producedBy, convertEach, globalParameters, Members.get,
    same "definitions" (by decide), same "parameters" (by decide), same "responses" (by decide),
    same "produces" (by decide)] at defined globals answered
  cases defined.symm.trans defined'
  cases globals.symm.trans globals'
  cases answered.symm.trans answered'
  rw [member?, member?, outer, outer']
  simp only [components, carry, same "securityDefinitions" (by decide)]

theorem surroundings_of_swaps {reference copy : Json} {members others : Members}
    (swaps : Swaps reference copy (.obj members) (.obj others)) :
    surroundings members = surroundings others ∧
      globalParameters members = globalParameters others := by
  have same (name : String) (apart : name ≠ "paths") : members.get? name = others.get? name :=
    Along.other (fun _ => .inl rfl) swaps apart
  constructor
  · funext bodies
    simp only [surroundings, producedBy, Members.get, same "consumes" (by decide),
      same "produces" (by decide)]
  · simp only [globalParameters, same "parameters" (by decide)]

theorem takes_eq {document item operation : Json} {path method : String}
    (held : (member? document "paths").bind (member? · path) = some item)
    (found : member? item method = some operation) :
    takes document path method =
      listed (member? item "parameters") ++ listed (member? operation "parameters") := by
  simp [takes, held, found]

/-- Where copies replace references, an operation agrees with what it was, depending on what the
surroundings see. -/
theorem operationAt_agree_iff {stands : Json → Json → Prop} {reference copy result other : Json}
    {members others : Members} {seen : Prop}
    (swaps : Swaps reference copy (.obj members) (.obj others)) (reflexive : ∀ v, stands v v)
    (sees : ∀ around bodyless, globalParameters members = .ok (Surroundings.bodies around, bodyless) →
      (seen → Sees stands around reference copy) ∧ (¬ seen → Blind around reference copy))
    (done : convertMoved members = .ok result) (done' : convertMoved others = .ok other)
    {path method : String} (known : method ∈ methods) {operation : Json}
    (found : operationAt result path method = some operation) :
    ∃ operation', operationAt other path method = some operation' ∧
      (Agree stands operation operation' ↔
        takes (.obj members) path method = takes (.obj others) path method ∨ seen) := by
  obtain ⟨bodies, bodyless, globals, paths⟩ := exists_paths done
  obtain ⟨bodies', _, globals', paths'⟩ := exists_paths done'
  obtain ⟨around, same⟩ := surroundings_of_swaps swaps
  cases globals.symm.trans (same.trans globals')
  rw [← around] at paths'
  obtain ⟨converted, place, made⟩ := Option.bind_eq_some_iff.mp found
  -- The path and the operation, in both documents and in what they are converted to.
  obtain ⟨item, held, convertedPath⟩ := exists_of_rel_some (place ▸ paths path)
  obtain ⟨item', held', swapsPath⟩ := exists_of_some_rel (held ▸ swaps.item path)
  obtain ⟨converted', place', convertedPath'⟩ := exists_of_some_rel (held' ▸ paths' path)
  obtain ⟨source, own, convertedOperation⟩ :=
    exists_of_rel_some (made ▸ rel_convertPath convertedPath known)
  obtain ⟨source', own', swapsOperation⟩ := exists_of_some_rel (own ▸ swapsPath.operation known)
  obtain ⟨operation', made', convertedOperation'⟩ :=
    exists_of_some_rel (own' ▸ rel_convertPath convertedPath' known)
  have swapping : Swapping reference copy (member? item "parameters") (member? item' "parameters")
      source source' := ⟨swapsPath.shared, swapsOperation⟩
  obtain ⟨sees, blind⟩ := sees (surroundings members bodies) bodyless globals
  refine ⟨operation', Option.bind_eq_some_iff.mpr ⟨converted', place', made'⟩, ?_⟩
  rw [takes_eq held own, takes_eq held' own']
  constructor
  · intro agree
    by_cases seen : seen
    · exact .inr seen
    · exact .inl (swapping.eq_of_agree (blind seen) convertedOperation convertedOperation' agree)
  · rintro (equal | seen)
    · exact swapping.agree reflexive convertedOperation convertedOperation' (.inr equal)
    · exact swapping.agree reflexive convertedOperation convertedOperation' (.inl (sees seen))

/-- A parameter stands for itself, or for what it refers to in the document. -/
def Stands (document first second : Json) : Prop :=
  first = second ∨ ∃ pointer target, first = referenceTo pointer ∧
    resolve (.str pointer) document = .ok (some target) ∧ target.fragment = second

/-- The conversion takes a reference for a parameter that it sees as it takes a copy, and takes
other references for parameters that the copies are not. -/
theorem sees_or_blind {members : Members} {text name : String} {parameter : Members} {result : Json}
    (leads : Leads (.obj members) text name parameter)
    (done : convertMoved (moveRefsMembers members) = .ok result) {around : Surroundings}
    {bodyless : Members}
    (globals : globalParameters (moveRefsMembers members) = .ok (around.bodies, bodyless)) :
    let reference := referenceTo ("#/components/parameters/" ++ text)
    let copy := Json.obj (moveRefsMembers parameter)
    (Seen text name parameter → Sees (Stands result) around reference copy) ∧
      (¬ Seen text name parameter → Blind around reference copy) := by
  have plain : Members.get? (moveRefsMembers parameter) "$ref" = none := by
    rw [get?_moveRefsMembers, leads.plain]
    rfl
  have located (place : String) : (Members.get (moveRefsMembers parameter) "in").isText place =
      (parameter.get "in").isText place := isText_get_moveRefsMembers (by decide)
  have looked := leads.lookup globals
  refine ⟨fun seen => ?_, fun unseen => ?_⟩
  · cases body : (parameter.get "in").isText "body" with
    | true =>
      rw [if_pos ⟨body, seen.2 body⟩] at looked
      exact sees_of_lookup plain looked
    | false =>
      rw [if_neg (by simp [body])] at looked
      refine sees_of_not_inBody plain looked (by simp [inBody, located, body, seen.1]) ?_
      obtain ⟨target, resolved, fragment⟩ := leads.resolve body done
      exact .inr ⟨_, target, rfl, resolved, fragment⟩
  · have apart : (parameter.get "in").isText "body" = true →
        (parameter.get "in").isText "formData" = false := by
      cases parameter.get "in" <;> simp_all [Json.isText]
    have unlisted : ¬ ((parameter.get "in").isText "body" = true ∧ text = name) := by
      rintro ⟨body, same⟩
      exact unseen ⟨apart body, fun _ => same⟩
    rw [if_neg unlisted] at looked
    refine blind_of_inBody plain looked ?_
    rw [inBody, located, located, Bool.or_eq_true_iff]
    by_contra outside
    rw [not_or, Bool.not_eq_true, Bool.not_eq_true] at outside
    exact unseen ⟨outside.2, by simp [outside.1]⟩

/-- Copies of a global parameter in place of references to it. If the conversion sees the location
of the parameter, the document is converted with them as well; and wherever it is, an operation has
the same body and the same parameters, once references are followed, exactly if no reference to
the parameter is replaced among those that it takes or the conversion sees the location. -/
theorem convert_copies_iff {document copied result : Json} {text name : String}
    {parameter : Members} {s s' : Session} (leads : Leads document text name parameter)
    (swaps : Swaps (referenceTo ("#/parameters/" ++ text)) (.obj parameter) document copied)
    (done : convert document s = .ok result s') :
    (Seen text name parameter → ∃ other t, convert copied s = .ok other t) ∧
    ∀ other u t, convert copied u = .ok other t →
      member? other "components" = member? result "components" ∧
      ∀ path, ∀ method ∈ methods, ∀ operation, operationAt result path method = some operation →
        ∃ operation', operationAt other path method = some operation' ∧
          (Agree (Stands result) operation operation' ↔
            takes document path method = takes copied path method ∨ Seen text name parameter) := by
  obtain ⟨members, rfl, moved⟩ := convert_eq_ok done
  obtain ⟨others, rfl, _⟩ := Along.members (AtKey.refl fun _ => .inl rfl) swaps
  have same (key : String) (apart : key ≠ "paths") :
      Members.get? members key = Members.get? others key :=
    Along.other (fun _ => .inl rfl) swaps apart
  have swapped := swaps.moveRefs
  rw [moveRefs_referenceTo, moveRefs, moveRefs, moveRefs] at swapped
  have reflexive (v : Json) : Stands result v v := .inl rfl
  refine ⟨fun seen => ?_, fun other u t done' => ?_⟩
  · have sees (around bodyless) (globals : globalParameters (moveRefsMembers members) =
        .ok (Surroundings.bodies around, bodyless)) :=
      (sees_or_blind leads moved globals).1 seen
    obtain ⟨other, moved'⟩ := exists_convertMoved sees reflexive swapped moved
    obtain ⟨version, paths, _⟩ := convert_obj_iff.mp ⟨s', done⟩
    rw [same "swagger" (by decide)] at version
    exact ⟨other, convert_obj_iff.mpr ⟨version, swaps.paths paths, moved'⟩⟩
  · obtain ⟨_, same, moved'⟩ := convert_eq_ok done'
    cases same
    refine ⟨components_of_swaps swapped moved moved', fun path method known operation found => ?_⟩
    obtain ⟨operation', found', agrees⟩ := operationAt_agree_iff swapped reflexive
      (fun _ _ globals => sees_or_blind leads moved globals) moved moved' known found
    refine ⟨operation', found', agrees.trans (or_congr_left ?_)⟩
    have pairs := takes_swaps swaps path known
    have moves (document : Members) : takes (.obj (moveRefsMembers document)) path method =
        (takes (.obj document) path method).map moveRefs := by
      rw [← takes_moveRefs, moveRefs]
    rw [moves, moves]
    exact ⟨eq_of_map_moveRefs leads.plain pairs, congrArg _⟩

def sharing (parameter : Members) (taken : Json) : Json :=
  .obj [("swagger", .str "2.0"), ("parameters", .obj [("Shared", .obj parameter)]),
    ("paths", .obj [("/pets", .obj [("parameters", .arr [taken]),
      ("post", .obj [("responses", .obj [])])])])]

def posts (document : Json) (test : Json → Bool) : Bool :=
  match convert document {} with
  | .ok result _ => (operationAt result "/pets" "post").any test
  | .error _ _ => false

theorem exists_of_posts {document : Json} {test : Json → Bool} (passed : posts document test = true) :
    ∃ result s' operation, convert document {} = .ok result s' ∧
      operationAt result "/pets" "post" = some operation ∧ test operation = true := by
  unfold posts at passed
  split at passed
  · rename_i result s' done
    obtain ⟨operation, found, tested⟩ := (Option.any_eq_true _ _).mp passed
    exact ⟨result, s', operation, done, found, tested⟩
  · cases passed

theorem leads_sharing {parameter : Members} (plain : parameter.get? "$ref" = none) (taken : Json) :
    Leads (sharing parameter taken) "Shared" "Shared" parameter := by
  refine ⟨.refl rfl, rfl, plain, ?_⟩
  rintro _ ⟨⟩ m member _
  exact List.mem_singleton.mp member

theorem swaps_sharing (reference copy : Json) (parameter : Members) :
    Swaps reference copy (sharing parameter reference) (sharing parameter copy) := by
  have path : SwapsPath reference copy
      (.obj [("parameters", .arr [reference]), ("post", .obj [("responses", .obj [])])])
      (.obj [("parameters", .arr [copy]), ("post", .obj [("responses", .obj [])])]) :=
    .inr ⟨_, _, rfl, rfl, .cons ⟨rfl, .inr ⟨_, _, rfl, rfl, .cons (.inr ⟨rfl, rfl⟩) .nil⟩⟩
      (.cons ⟨rfl, swapsPath_refl _ _⟩ .nil)⟩
  refine .inr ⟨_, _, rfl, rfl, .cons ⟨rfl, rfl⟩ (.cons ⟨rfl, rfl⟩ (.cons ⟨rfl, ?_⟩ .nil))⟩
  exact (if_pos rfl).mpr (.inr ⟨_, _, rfl, rfl, .cons ⟨rfl, path⟩ .nil⟩)

/-- A reference to a query parameter. -/
theorem convert_copies_iff_limit :
    let limit : Members := [("name", .str "limit"), ("in", .str "query"), ("type", .str "integer")]
    ∃ result s', convert (sharing limit (referenceTo "#/parameters/Shared")) {} = .ok result s' ∧
      ∃ other t, convert (sharing limit (.obj limit)) {} = .ok other t ∧
        ∃ operation operation', operationAt result "/pets" "post" = some operation ∧
          operationAt other "/pets" "post" = some operation' ∧
          Agree (Stands result) operation operation' := by
  intro limit
  have passed : posts (sharing limit (referenceTo "#/parameters/Shared")) fun _ => true := by
    decide +kernel
  obtain ⟨result, s', operation, done, found, _⟩ := exists_of_posts passed
  obtain ⟨converts, agrees⟩ := convert_copies_iff (leads_sharing rfl _) (swaps_sharing _ _ limit) done
  have seen : Seen "Shared" "Shared" limit := ⟨rfl, fun _ => rfl⟩
  obtain ⟨other, t, done'⟩ := converts seen
  obtain ⟨_, operations⟩ := agrees other {} t done'
  obtain ⟨operation', found', agree⟩ := operations "/pets" "post" (by decide) operation found
  exact ⟨result, s', done, other, t, done', operation, operation', found, found',
    agree.mpr (.inr seen)⟩

/-- A reference to a form field adds nothing to the body, but a copy does. -/
theorem convert_form_reference :
    let file : Members := [("name", .str "file"), ("in", .str "formData"), ("type", .str "file")]
    let reference := referenceTo "#/parameters/Shared"
    Leads (sharing file reference) "Shared" "Shared" file ∧
      Swaps reference (.obj file) (sharing file reference) (sharing file (.obj file)) ∧
      ∃ result s' other t operation operation',
        convert (sharing file reference) {} = .ok result s' ∧
        convert (sharing file (.obj file)) {} = .ok other t ∧
        operationAt result "/pets" "post" = some operation ∧
        operationAt other "/pets" "post" = some operation' ∧
        ¬ Agree (Stands result) operation operation' := by
  intro file reference
  have passed : posts (sharing file reference) fun operation =>
      (member? operation "requestBody").isNone := by
    decide +kernel
  have passed' : posts (sharing file (.obj file)) fun operation =>
      (member? operation "requestBody").isSome := by
    decide +kernel
  obtain ⟨result, s', operation, done, found, empty⟩ := exists_of_posts passed
  obtain ⟨other, t, operation', done', found', filled⟩ := exists_of_posts passed'
  refine ⟨leads_sharing rfl _, swaps_sharing _ _ file, result, s', other, t, operation, operation',
    done, done', found, found', fun agree => ?_⟩
  rw [← agree.1, Option.isNone_iff_eq_none.mp empty] at filled
  cases filled

end TypedClient.Swagger
