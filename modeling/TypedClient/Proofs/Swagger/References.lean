import TypedClient.Proofs.Pointer.Spelling
import TypedClient.Proofs.Swagger.Moves

/-! Where references lead after conversion. A definition, parameter or response is found again
among the components, under the same name and converted. -/
namespace TypedClient.Swagger

open Json Pointer Text

section Lookup

def moveAt : Key → Json → Json
  | .text "$ref", .str pointer => .str (moveRef pointer)
  | _, v => moveRefs v

theorem moveAt_other {k : Key} {v : Json} (other : ¬ IsReference (k, v)) : moveAt k v = moveRefs v := by
  rw [moveAt]
  intro pointer key value
  exact other ⟨key, pointer, value⟩

theorem moveRefsMembers_cons (m : Key × Json) (rest : Members) :
    moveRefsMembers (m :: rest) = (m.1, moveAt m.1 m.2) :: moveRefsMembers rest := by
  by_cases reference : IsReference m
  · obtain ⟨key, value⟩ := m
    obtain ⟨rfl, pointer, rfl⟩ := reference
    rw [moveRefsMembers_reference, moveAt]
  · rw [moveRefsMembers_other reference, moveAt_other reference]

theorem get?_moveRefsMembers (members : Members) (name : String) :
    Members.get? (moveRefsMembers members) name = (members.get? name).map (moveAt name) := by
  induction members with
  | nil => rfl
  | cons m rest ih =>
    rw [moveRefsMembers_cons, Members.get?_cons, Members.get?_cons]
    by_cases own : m.1 = name
    · simp [own]
    · simp [own, ih]

/-- Members converted one by one are found where they were. -/
theorem get?_convertEach {document members : Members} {name : String}
    {convert : Key → Json → Except Fault Json} (done : convertEach document name convert = .ok members) :
    ∃ entries : Members, (document.get? name).getD (.obj []) = .obj entries ∧
      ∀ (key : String) (value : Json), entries.get? key = some value →
        ∃ converted, members.get? key = some converted ∧ convert key value = .ok converted := by
  obtain ⟨entries, object, pairs⟩ := convertEach_eq_ok done
  refine ⟨entries, object, fun key value found => ?_⟩
  clear object done
  induction pairs with
  | nil => cases found
  | @cons m m' entries members first rest ih =>
    rw [Members.get?_cons] at found ⊢
    rw [first.1]
    split at found
    · rename_i own
      cases found
      exact ⟨m'.2, if_pos own, own ▸ first.2⟩
    · rename_i apart
      rw [if_neg apart]
      exact ih found

theorem get?_carry (document : Members) (name newName other : String) :
    Members.get? (carry document name newName) other =
      if other = newName then document.get? name else none := by
  unfold carry
  cases document.get? name with
  | none => simp [Members.get?_nil]
  | some v => simp [Members.get?_cons, Members.get?_nil, eq_comm]

theorem get?_part (name : String) (members : Members) (other : String) :
    Members.get? (part name members) other =
      if other = name ∧ members ≠ [] then some (.obj members) else none := by
  unfold part
  cases members with
  | nil => simp [Members.get?_nil]
  | cons m rest => simp [Members.get?_cons, Members.get?_nil, eq_comm]

/-- Global parameters other than bodies are found where they were. -/
theorem get?_of_sources {entries : Members} {sources : List (Key × Members)} {name : String}
    {parameter : Members}
    (pairs : List.Forall₂ (fun m (p : Key × Members) => p.1 = m.1 ∧ m.2 = .obj p.2) entries sources)
    (found : entries.get? name = some (.obj parameter))
    (other : (parameter.get "in").isText "body" = false) :
    Members.get? ((sources.filter fun p => !(p.2.get "in").isText "body").map fun p =>
      (p.1, convertParameter p.2)) name = some (convertParameter parameter) := by
  induction pairs with
  | nil => cases found
  | @cons m p entries sources first rest ih =>
    rw [Members.get?_cons, ← first.1] at found
    split at found
    · rename_i own
      have same : p.2 = parameter := by
        rw [first.2] at found
        cases found
        rfl
      rw [List.filter_cons_of_pos (by rw [same, other]; rfl), List.map_cons, Members.get?_cons,
        if_pos own, same]
    · rename_i apart
      rw [List.filter_cons]
      split
      · rw [List.map_cons, Members.get?_cons, if_neg apart]
        exact ih found
      · exact ih found

end Lookup

section Places

variable {members : Members} {place text key pointer : String}

theorem not_isReference_of_isSchema {k : Key} {v : Json} (schema : isSchema v = true) :
    ¬ IsReference (k, v) := by
  rintro ⟨-, p, text⟩
  have text : v = .str p := text
  rw [text] at schema
  cases schema

theorem not_isReference_of_ne {name : String} (other : name ≠ "$ref") (v : Json) :
    ¬ IsReference (name, v) :=
  fun reference => other (Key.text.inj reference.1)

theorem eq_obj_of_moveRefs {v : Json} {moved : Members} (object : moveRefs v = .obj moved) :
    ∃ own, v = .obj own ∧ moved = moveRefsMembers own := by
  cases v with
  | obj own =>
    rw [moveRefs] at object
    exact ⟨own, rfl, (Json.obj.inj object).symm⟩
  | _ => simp [moveRefs] at object

theorem isText_get_moveRefsMembers {name other : String} (apart : name ≠ "$ref") :
    (Members.get (moveRefsMembers members) name).isText other = (members.get name).isText other := by
  rw [Members.get, get?_moveRefsMembers, Members.get]
  cases members.get? name with
  | none => rfl
  | some v =>
    rw [Option.map_some, moveAt_other (not_isReference_of_ne apart v)]
    cases v <;> rfl

/-- A member that holds an object after its references are moved held one before. -/
theorem object_of_moved {value : Json} {moved : Members} (other : place ≠ "$ref")
    (found : members.get? place = some value)
    (object : (Members.get? (moveRefsMembers members) place).getD (.obj []) = .obj moved) :
    ∃ entries, value = .obj entries ∧ moved = moveRefsMembers entries := by
  rw [get?_moveRefsMembers, found, Option.map_some, Option.getD_some,
    moveAt_other (not_isReference_of_ne other value)] at object
  exact eq_obj_of_moveRefs object

/-- What a reference to an entry of an old place leads to. -/
theorem entry_of_resolve {target : Target} {moved : Members} (other : place ≠ "$ref")
    (plain : Spells place place) (spells : Spells text key)
    (shape : pointer.toList = '#' :: '/' :: ['/'].intercalate ([place, text].map String.toList))
    (object : (Members.get? (moveRefsMembers members) place).getD (.obj []) = .obj moved)
    (resolved : resolve (.str pointer) (.obj members) = .ok (some target)) :
    moved.get? key = some (moveRefs target.fragment) ∧ isSchema target.fragment = true ∧
      target.name = Name.identifier key := by
  have spelled : List.Forall₂ Spells [place, text] [place, key] := .cons plain (.cons spells .nil)
  obtain ⟨walked, schema, same⟩ := (resolve_of_spells spelled (by simp) shape).mp resolved
  obtain ⟨value, found, walked⟩ := walk_obj_eq_some.mp walked
  obtain ⟨entries, rfl, rfl⟩ := object_of_moved other found object
  obtain ⟨fragment, held, ended⟩ := walk_obj_eq_some.mp walked
  cases ended
  refine ⟨?_, schema, by rw [same]; rfl⟩
  rw [get?_moveRefsMembers, held, Option.map_some,
    moveAt_other (not_isReference_of_isSchema schema)]

/-- A reference to an entry of the components. -/
theorem resolve_component {top components entries : Members} {fragment : Json}
    (plain : Spells place place) (spells : Spells text key)
    (shape : pointer.toList =
      '#' :: '/' :: ['/'].intercalate (["components", place, text].map String.toList))
    (outer : top.get? "components" = some (.obj components))
    (inner : components.get? place = some (.obj entries))
    (found : entries.get? key = some fragment) (schema : isSchema fragment = true) :
    resolve (.str pointer) (.obj top) = .ok (some ⟨pointer, fragment, Name.identifier key⟩) := by
  have spelled : List.Forall₂ Spells ["components", place, text] ["components", place, key] :=
    .cons (.refl rfl) (.cons plain (.cons spells .nil))
  refine (resolve_of_spells spelled (by simp) shape).mpr ⟨?_, schema, rfl⟩
  exact walk_obj_eq_some.mpr ⟨_, outer, walk_obj_eq_some.mpr
    ⟨_, inner, walk_obj_eq_some.mpr ⟨_, found, rfl⟩⟩⟩

end Places

theorem convertChecked_iff {version : String} {members : Members} {result : Json} {s : Session} :
    (∃ s', convertChecked version members s = .ok result s') ↔
      convertMoved (moveRefsMembers members) = .ok result := by
  constructor
  · rintro ⟨s', done⟩
    obtain ⟨-, t, -, done⟩ := Build.bind_eq_ok.mp done
    cases moved : convertMoved (moveRefsMembers members) with
    | ok converted =>
      rw [moved] at done
      cases done
      rfl
    | error fault =>
      rw [moved] at done
      cases done
  · intro moved
    unfold convertChecked
    rw [moved]
    exact ⟨_, rfl⟩

/-- Which documents are converted, and to what. -/
theorem convert_obj_iff {members : Members} {result : Json} {s : Session} :
    (∃ s', convert (.obj members) s = .ok result s') ↔
      ((members.get? "swagger").getD "").display.toList.head? = some '2' ∧
        (∀ value, members.get? "paths" = some value → ∃ paths, value = .obj paths) ∧
        convertMoved (moveRefsMembers members) = .ok result := by
  constructor
  · rintro ⟨s', done⟩
    obtain ⟨_, t, object, done⟩ := Build.bind_eq_ok.mp done
    cases object
    dsimp only at done
    by_cases version : ((members.get? "swagger").getD "").display.toList.head? ≠ some '2'
    · rw [if_pos version] at done
      cases done
    rw [if_neg version] at done
    refine ⟨not_not.mp version, ?_⟩
    cases paths : members.get? "paths" with
    | none =>
      rw [paths] at done
      exact ⟨by simp, convertChecked_iff.mp ⟨s', done⟩⟩
    | some value =>
      rw [paths] at done
      cases value with
      | obj inner =>
        refine ⟨?_, convertChecked_iff.mp ⟨s', done⟩⟩
        rintro _ ⟨⟩
        exact ⟨inner, rfl⟩
      | _ => cases done
  · rintro ⟨version, paths, moved⟩
    obtain ⟨s', checked⟩ := convertChecked_iff.mpr moved
    refine ⟨s', Build.bind_eq_ok.mpr ⟨members, s, rfl, ?_⟩⟩
    dsimp only
    rw [if_neg (not_not.mpr version)]
    cases found : members.get? "paths" with
    | none => exact checked
    | some value =>
      obtain ⟨inner, rfl⟩ := paths value found
      exact checked

theorem convert_eq_ok {document result : Json} {s s' : Session}
    (done : convert document s = .ok result s') :
    ∃ members, document = .obj members ∧ convertMoved (moveRefsMembers members) = .ok result := by
  obtain ⟨members, _, object, _⟩ := Build.bind_eq_ok.mp done
  obtain rfl := eq_obj_of_members (Build.lift_eq_ok.mp object).1
  exact ⟨members, rfl, (convert_obj_iff.mp ⟨s', done⟩).2.2⟩

theorem isSchema_convertSchema {v : Json} (schema : isSchema v = true) :
    isSchema (convertSchema v) = true := by
  cases v <;> simp_all [isSchema, convertSchema]

theorem isSchema_moveRefs (v : Json) : isSchema (moveRefs v) = isSchema v := by
  cases v <;> simp [isSchema, moveRefs]

theorem isSchema_convertResponse {produces response converted : Json}
    (schema : isSchema response = true) (done : convertResponse produces response = .ok converted) :
    isSchema converted = true := by
  obtain ⟨reference, -, done⟩ := except_bind_eq_ok.mp done
  cases reference with
  | true =>
    cases done
    exact schema
  | false =>
    obtain ⟨members, -, done⟩ := except_bind_eq_ok.mp done
    split at done
    · cases done
      rfl
    · obtain ⟨mediaTypes, -, done⟩ := except_bind_eq_ok.mp done
      obtain ⟨content, -, done⟩ := except_bind_eq_ok.mp done
      cases done
      rfl

/-- The components of a converted document. -/
theorem exists_components {document : Members} {result : Json}
    (done : convertMoved document = .ok result) :
    ∃ (top : Members) (definitions : Members) (bodies : List (String × Members))
      (parameters responses : Members), result = .obj top ∧
      convertEach document "definitions" (fun _ v => .ok (convertSchema v)) = .ok definitions ∧
      globalParameters document = .ok (bodies, parameters) ∧
      convertEach document "responses" (fun _ v => convertResponse (producedBy document) v) =
        .ok responses ∧
      top.get? "components" = some (.obj (components document definitions parameters responses)) := by
  obtain ⟨urls, definitions, bodies, parameters, responses, paths, -, defined, globals, answered, -,
    rfl⟩ := convertMoved_eq_ok done
  refine ⟨_, definitions, bodies, parameters, responses, rfl, defined, globals, answered, ?_⟩
  have served : Members.get? (if urls.isEmpty then [] else [(.text "servers", .arr urls)])
      "components" = none := by
    split <;> rfl
  rw [Members.get?_append, Members.get?_append, Members.get?_append, Members.get?_append, served]
  simp [Members.get?_cons, Members.get?_nil, get?_carry]

theorem get?_components (document definitions parameters responses : Members) :
    Members.get? (components document definitions parameters responses) "schemas" =
        some (.obj definitions) ∧
      (parameters ≠ [] → Members.get? (components document definitions parameters responses)
        "parameters" = some (.obj parameters)) ∧
      (responses ≠ [] → Members.get? (components document definitions parameters responses)
        "responses" = some (.obj responses)) := by
  simp +contextual [components, Members.get?_append, Members.get?_cons, get?_part]

/-- Conversion keeps references. None leads to an old place, moving again moves none, and an entry
of a definition, a parameter other than a body, or a response is found among the components by any
spelling of its key, converted and under the same name. -/
theorem convert_keeps_references {document result : Json} {s s' : Session}
    (done : convert document s = .ok result s') :
    (∀ pointer ∈ result.references, ∀ place ∈ ["#/definitions/", "#/parameters/", "#/responses/"],
      ¬ place.toList <+: pointer.toList) ∧
    (∀ text key target, Spells text key →
      resolve (.str ("#/definitions/" ++ text)) document = .ok (some target) →
      resolve (.str ("#/components/schemas/" ++ text)) result = .ok (some
        ⟨"#/components/schemas/" ++ text, convertSchema (moveRefs target.fragment), target.name⟩)) ∧
    (∀ text key target, Spells text key →
      resolve (.str ("#/parameters/" ++ text)) document = .ok (some target) →
      ∃ parameter : Members, target.fragment = .obj parameter ∧
        ((parameter.get "in").isText "body" = false →
          resolve (.str ("#/components/parameters/" ++ text)) result = .ok (some
            ⟨"#/components/parameters/" ++ text, convertParameter (moveRefsMembers parameter),
              target.name⟩))) ∧
    (∀ text key target, Spells text key →
      resolve (.str ("#/responses/" ++ text)) document = .ok (some target) →
      ∃ members converted, document = .obj members ∧
        convertResponse (producedBy (moveRefsMembers members)) (moveRefs target.fragment) =
          .ok converted ∧
        resolve (.str ("#/components/responses/" ++ text)) result = .ok (some
          ⟨"#/components/responses/" ++ text, converted, target.name⟩)) ∧
    (∀ key, ∃ text, Spells text key) ∧ ∀ value, moveRefs (moveRefs value) = moveRefs value := by
  obtain ⟨members, rfl, moved⟩ := convert_eq_ok done
  have current := current_convertMoved (current_moveRefsMembers members) moved
  obtain ⟨top, definitions, bodies, parameters, responses, rfl, defined, globals, answered, outer⟩ :=
    exists_components moved
  obtain ⟨inSchemas, inParameters, inResponses⟩ :=
    get?_components (moveRefsMembers members) definitions parameters responses
  refine ⟨fun pointer inside place listed start => ?_, fun text key target spells resolved => ?_,
    fun text key target spells resolved => ?_, fun text key target spells resolved => ?_,
    exists_spells, fun value => moveRefs_eq_self _ (current_moveRefs value)⟩
  · have places : refMoves.map (·.1) = ["#/definitions/", "#/parameters/", "#/responses/"] := rfl
    obtain ⟨move, moves, rfl⟩ := List.mem_map.mp (places ▸ listed)
    exact current pointer inside ⟨move, moves, start⟩
  · obtain ⟨entries, object, each⟩ := get?_convertEach defined
    obtain ⟨found, schema, named⟩ :=
      entry_of_resolve (by decide) (.refl rfl) spells (by simp) object resolved
    obtain ⟨converted, held, made⟩ := each key _ found
    cases made
    rw [named]
    refine resolve_component (.refl rfl) spells (by simp) outer inSchemas held ?_
    exact isSchema_convertSchema ((isSchema_moveRefs _).trans schema)
  · obtain ⟨entries, sources, object, pairs, -, others⟩ := globalParameters_eq_ok globals
    obtain ⟨found, schema, named⟩ :=
      entry_of_resolve (by decide) (.refl rfl) spells (by simp) object resolved
    obtain ⟨m, held, -, value⟩ := Members.exists_of_get? found
    obtain ⟨p, -, -, own⟩ := exists_of_forall₂ pairs.flip held
    obtain ⟨parameter, fragment, -⟩ := eq_obj_of_moveRefs (value.symm.trans own)
    rw [fragment, moveRefs] at found
    refine ⟨parameter, fragment, fun other => ?_⟩
    have held := others ▸ get?_of_sources pairs found ((isText_get_moveRefsMembers (by decide)).trans other)
    have nonempty : parameters ≠ [] := by
      rintro rfl
      cases held
    rw [named]
    exact resolve_component (.refl rfl) spells (by simp) outer (inParameters nonempty) held rfl
  · obtain ⟨entries, object, each⟩ := get?_convertEach answered
    obtain ⟨found, schema, named⟩ :=
      entry_of_resolve (by decide) (.refl rfl) spells (by simp) object resolved
    obtain ⟨converted, held, made⟩ := each key _ found
    have nonempty : responses ≠ [] := by
      rintro rfl
      cases held
    refine ⟨members, converted, rfl, made, ?_⟩
    rw [named]
    refine resolve_component (.refl rfl) spells (by simp) outer (inResponses nonempty) held ?_
    exact isSchema_convertResponse ((isSchema_moveRefs _).trans schema) made

/-- A file that refers to itself, under a key that takes escapes. -/
def file : Json :=
  .obj [("type", .str "file"), ("next", .obj [("$ref", .str "#/definitions/a~1b%25%C3%A9")])]

def limit : Members :=
  [("in", .str "query"), ("type", .str "integer")]

def gone : Json :=
  .obj [("schema", .obj [("$ref", .str "#/definitions/a~1b%25%C3%A9")])]

def archive : Json :=
  .obj [("swagger", .str "2.0"), ("definitions", .obj [("a/b%é", file)]),
    ("parameters", .obj [("limit", .obj limit)]), ("responses", .obj [("gone", gone)])]

theorem convert_keeps_references_archive : ∃ result s', convert archive {} = .ok result s' ∧
    resolve (.str ("#/components/schemas/" ++ "a~1b%25%C3%A9")) result = .ok (some
      ⟨"#/components/schemas/" ++ "a~1b%25%C3%A9", .obj [("type", .str "string"),
        ("next", .obj [("$ref", .str "#/components/schemas/a~1b%25%C3%A9")]),
        ("format", .str "binary")], Name.identifier "a/b%é"⟩) ∧
    resolve (.str ("#/components/parameters/" ++ "limit")) result = .ok (some
      ⟨"#/components/parameters/" ++ "limit", .obj [("in", .str "query"),
        ("schema", .obj [("type", .str "integer")])], Name.identifier "limit"⟩) ∧
    ∃ response, resolve (.str ("#/components/responses/" ++ "gone")) result = .ok (some
      ⟨"#/components/responses/" ++ "gone", response, Name.identifier "gone"⟩) := by
  have done : ∃ result s', convert archive {} = .ok result s' := ⟨_, _, rfl⟩
  obtain ⟨result, s', done⟩ := done
  obtain ⟨-, schemas, parameters, responses, -⟩ := convert_keeps_references done
  have percent : Escapes (utf8 '%') ['%', '2', '5'] := .cons (x := 2) (y := 5) rfl rfl .nil
  have accented : Escapes (utf8 'é') ['%', 'C', '3', '%', 'A', '9'] :=
    .cons (x := 12) (y := 3) rfl rfl (.cons (x := 10) (y := 9) rfl rfl .nil)
  have key : Spells "a~1b%25%C3%A9" "a/b%é" :=
    .plain (by decide) (.plain (by decide) (.plain (by decide) (.plain (by decide)
      (.escaped percent (.escaped accented .nil)))))
  have converted : convertSchema (moveRefs file) = .obj [("type", .str "string"),
      ("next", .obj [("$ref", .str "#/components/schemas/a~1b%25%C3%A9")]),
      ("format", .str "binary")] := rfl
  have leads (place : String) {text key pointer : String} {fragment : Json} (plain : Spells place place)
      (spells : Spells text key)
      (shape : pointer.toList = '#' :: '/' :: ['/'].intercalate ([place, text].map String.toList))
      (walked : Pointer.walk archive [place, key] = .ok (some fragment))
      (schema : isSchema fragment = true) :
      resolve (.str pointer) archive = .ok (some ⟨pointer, fragment, Name.identifier key⟩) :=
    (resolve_of_spells (.cons plain (.cons spells .nil)) (by simp) shape).mpr ⟨walked, schema, rfl⟩
  have named : Spells "limit" "limit" ∧ Spells "gone" "gone" := ⟨.refl rfl, .refl rfl⟩
  refine ⟨result, s', done, ?_, ?_, ?_⟩
  · rw [← converted]
    exact schemas _ _ _ key (leads "definitions" (.refl rfl) key (by simp) rfl rfl)
  · obtain ⟨parameter, same, found⟩ :=
      parameters _ _ _ named.1 (leads "parameters" (.refl rfl) named.1 (by simp) rfl rfl)
    cases same
    exact found rfl
  · obtain ⟨members, response, -, -, found⟩ :=
      responses _ _ _ named.2 (leads "responses" (.refl rfl) named.2 (by simp) rfl rfl)
    exact ⟨response, found⟩

end TypedClient.Swagger
