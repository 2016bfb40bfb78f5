import TypedClient.Proofs.Json.Numerals
import TypedClient.Proofs.Name.Nonempty
import TypedClient.Proofs.Schema.Nullable
import TypedClient.Swagger

/-! References of converted documents. Moving leaves no reference to an old place, and what the
conversion builds afterwards holds no reference that was not there before. -/
namespace TypedClient

theorem Key.same_of_text {name : String} {key : Key} (same : Key.same name key = true) :
    key = name := by
  cases key <;> simp_all [Key.same, Key.quantity?]

namespace Swagger

open Json

/-- The reference leads to a place that the conversion empties. -/
def Dated (pointer : String) : Prop :=
  ∃ move ∈ refMoves, move.1.toList <+: pointer.toList

def Current (value : Json) : Prop :=
  ∀ pointer ∈ value.references, ¬ Dated pointer

def CurrentMember (m : Key × Json) : Prop :=
  (m.1 = "$ref" → ∀ pointer, m.2 = .str pointer → ¬ Dated pointer) ∧ Current m.2

section Values

theorem current_obj {members : Members} :
    Current (.obj members) ↔ ∀ m ∈ members, CurrentMember m := by
  simp only [Current, references, mem_referencesOfMembers, Key.same_text]
  constructor
  · intro current m member
    exact ⟨fun key pointer value => current pointer ⟨m, member, .inl ⟨key, value⟩⟩,
      fun pointer inside => current pointer ⟨m, member, .inr inside⟩⟩
  · rintro all pointer ⟨m, member, ⟨key, value⟩ | inside⟩
    · exact (all m member).1 key pointer value
    · exact (all m member).2 pointer inside

theorem current_arr {items : List Json} : Current (.arr items) ↔ ∀ v ∈ items, Current v := by
  simp only [Current, references, mem_referencesOfItems]
  constructor
  · intro current v member pointer inside
    exact current pointer ⟨v, member, inside⟩
  · rintro all pointer ⟨v, member, inside⟩
    exact all v member pointer inside

theorem current_empty : Current (.obj []) :=
  current_obj.mpr fun _ member => nomatch member

theorem current_nil : Current (.arr []) :=
  current_arr.mpr fun _ member => nomatch member

/-- A scalar has no references. -/
theorem current_of_key? {value : Json} {key : Key} (scalar : value.key? = some key) :
    Current value := by
  cases value with
  | null | bool _ | int _ | float _ | str _ => simp [Current, references]
  | arr _ | obj _ => cases scalar

theorem current_str (s : String) : Current (.str s) :=
  current_of_key? rfl

theorem current_bool (b : Bool) : Current (.bool b) :=
  current_of_key? rfl

theorem CurrentMember.of_ne {key : Key} {value : Json} (other : key ≠ "$ref")
    (current : Current value) : CurrentMember (key, value) :=
  ⟨fun same => absurd same other, current⟩

theorem CurrentMember.of_obj {members : Members} (key : Key) (current : Current (.obj members)) :
    CurrentMember (key, .obj members) :=
  ⟨fun _ _ text => (nomatch text), current⟩

theorem current_get? {members : Members} {name : Key} {value : Json}
    (current : ∀ m ∈ members, CurrentMember m) (found : members.get? name = some value) :
    Current value :=
  fun pointer inside => current_obj.mpr current pointer (references_get?_subset found inside)

theorem current_getD {members : Members} {other : Json}
    (current : ∀ m ∈ members, CurrentMember m) (fallback : Current other) (name : Key) :
    Current ((members.get? name).getD other) := by
  cases found : members.get? name with
  | none => exact fallback
  | some value => exact current_get? current found

theorem eq_obj_of_members {value : Json} {members : Members} (object : value.members = .ok members) :
    value = .obj members := by
  cases value with
  | obj ms =>
    cases object
    rfl
  | _ => cases object

theorem current_members {value : Json} {members : Members} (current : Current value)
    (object : value.members = .ok members) : ∀ m ∈ members, CurrentMember m := by
  rw [eq_obj_of_members object] at current
  exact current_obj.mp current

theorem current_elements {value : Json} {items : List Json} (current : Current value)
    (done : value.elements = .ok items) : ∀ v ∈ items, Current v := by
  cases value with
  | arr inner =>
    cases done
    exact current_arr.mp current
  | obj members =>
    cases done
    intro v member
    obtain ⟨m, -, rfl⟩ := List.mem_map.mp member
    cases key : m.1 <;> exact current_of_key? rfl
  | str s =>
    cases done
    intro v member
    obtain ⟨c, -, rfl⟩ := List.mem_map.mp member
    exact current_str _
  | _ => cases done

theorem current_set {members : Members} {name : Key} {value : Json}
    (current : ∀ m ∈ members, CurrentMember m) (new : CurrentMember (name, value)) :
    ∀ m ∈ members.set name value, CurrentMember m := by
  unfold Members.set
  split
  · intro m member
    obtain ⟨old, held, rfl⟩ := List.mem_map.mp member
    split
    · rename_i same
      refine ⟨fun key => new.1 ?_, new.2⟩
      have key : old.1 = "$ref" := key
      rw [key] at same
      exact Key.same_of_text same
    · exact current old held
  · intro m member
    rcases List.mem_append.mp member with held | added
    · exact current m held
    · rw [List.mem_singleton.mp added]
      exact new

theorem current_ofList {entries : List (Key × Json)} (current : ∀ m ∈ entries, CurrentMember m) :
    ∀ m ∈ Members.ofList entries, CurrentMember m := by
  have all (start : Members) (begun : ∀ m ∈ start, CurrentMember m) :
      ∀ m ∈ entries.foldl (fun acc m => acc.set m.1 m.2) start, CurrentMember m := by
    induction entries generalizing start with
    | nil => exact begun
    | cons m rest ih =>
      rw [List.forall_mem_cons] at current
      exact ih current.2 _ (current_set begun current.1)
  exact all [] (by simp)

def CurrentEntries (entries : List (String × Json)) : Prop :=
  ∀ m ∈ entries, m.1 ≠ "$ref" ∧ Current m.2

theorem CurrentEntries.nil : CurrentEntries [] :=
  fun _ member => nomatch member

theorem CurrentEntries.cons {name : String} {value : Json} {rest : List (String × Json)}
    (other : name ≠ "$ref") (current : Current value) (entries : CurrentEntries rest) :
    CurrentEntries ((name, value) :: rest) :=
  List.forall_mem_cons.mpr ⟨⟨other, current⟩, entries⟩

theorem current_ofMembers {entries : List (String × Json)} (current : CurrentEntries entries) :
    Current (.ofMembers entries) := by
  rw [ofMembers, current_obj]
  intro m member
  obtain ⟨entry, inside, rfl⟩ := List.mem_map.mp member
  have new := current entry inside
  exact .of_ne (by simpa using new.1) new.2

end Values

section Moving

theorem not_dated_moveRef (pointer : String) : ¬ Dated (moveRef pointer) := by
  unfold moveRef
  split
  · rename_i old new found
    have member : (old, new) ∈ refMoves := List.mem_of_find?_eq_some found
    rintro ⟨move, listed, start⟩
    simp only [refMoves, List.mem_cons, List.not_mem_nil, or_false, Prod.mk.injEq] at member listed
    rcases member with ⟨rfl, rfl⟩ | ⟨rfl, rfl⟩ | ⟨rfl, rfl⟩ <;>
      rcases listed with rfl | rfl | rfl <;> simp at start
  · rename_i absent
    rintro ⟨move, listed, start⟩
    have other := List.find?_eq_none.mp absent move listed
    exact other (List.isPrefixOf_iff_prefix.mpr start)

theorem moveRef_eq_self {pointer : String} (current : ¬ Dated pointer) :
    moveRef pointer = pointer := by
  have absent : (refMoves.find? fun move => move.1.toList.isPrefixOf pointer.toList) = none := by
    rw [List.find?_eq_none]
    intro move listed start
    exact current ⟨move, listed, List.isPrefixOf_iff_prefix.mp start⟩
  rw [moveRef, absent]

def IsReference (m : Key × Json) : Prop :=
  m.1 = "$ref" ∧ ∃ pointer, m.2 = .str pointer

theorem moveRefsMembers_reference (pointer : String) (rest : Members) :
    moveRefsMembers ((.text "$ref", .str pointer) :: rest) =
      (.text "$ref", .str (moveRef pointer)) :: moveRefsMembers rest := by
  simp [moveRefsMembers]

theorem moveRefsMembers_other {k : Key} {v : Json} (other : ¬ IsReference (k, v)) (rest : Members) :
    moveRefsMembers ((k, v) :: rest) = (k, moveRefs v) :: moveRefsMembers rest := by
  rw [moveRefsMembers]
  intro pointer key value
  exact other ⟨key, pointer, value⟩

theorem moveRefs_eq_str {v : Json} {s : String} (text : moveRefs v = .str s) : v = .str s := by
  cases v <;> simp_all [moveRefs]

mutual

theorem current_moveRefs (value : Json) : Current (moveRefs value) := by
  match value with
  | .arr items =>
    rw [moveRefs, current_arr]
    exact current_moveRefsItems items
  | .obj members =>
    rw [moveRefs, current_obj]
    exact current_moveRefsMembers members
  | .null | .bool _ | .int _ | .float _ | .str _ => exact current_of_key? rfl

theorem current_moveRefsItems (items : List Json) : ∀ v ∈ moveRefsItems items, Current v := by
  match items with
  | [] => simp [moveRefsItems]
  | v :: rest =>
    rw [moveRefsItems, List.forall_mem_cons]
    exact ⟨current_moveRefs v, current_moveRefsItems rest⟩

theorem current_moveRefsMembers (members : List (Key × Json)) :
    ∀ m ∈ moveRefsMembers members, CurrentMember m := by
  match members with
  | [] => simp [moveRefsMembers]
  | (k, v) :: rest =>
    by_cases reference : IsReference (k, v)
    · obtain ⟨rfl, pointer, rfl⟩ := reference
      rw [moveRefsMembers_reference, List.forall_mem_cons]
      refine ⟨⟨fun _ moved same => ?_, current_str _⟩, current_moveRefsMembers rest⟩
      cases same
      exact not_dated_moveRef pointer
    · rw [moveRefsMembers_other reference, List.forall_mem_cons]
      refine ⟨⟨fun key pointer same => ?_, current_moveRefs v⟩, current_moveRefsMembers rest⟩
      exact absurd ⟨key, pointer, moveRefs_eq_str same⟩ reference

end

mutual

/-- Where no reference leads to an old place, none is moved. -/
theorem moveRefs_eq_self (value : Json) (current : Current value) : moveRefs value = value := by
  match value with
  | .arr items => rw [moveRefs, moveRefsItems_eq_self items (current_arr.mp current)]
  | .obj members => rw [moveRefs, moveRefsMembers_eq_self members (current_obj.mp current)]
  | .null | .bool _ | .int _ | .float _ | .str _ => rfl

theorem moveRefsItems_eq_self (items : List Json) (current : ∀ v ∈ items, Current v) :
    moveRefsItems items = items := by
  match items with
  | [] => rfl
  | v :: rest =>
    rw [List.forall_mem_cons] at current
    rw [moveRefsItems, moveRefs_eq_self v current.1, moveRefsItems_eq_self rest current.2]

theorem moveRefsMembers_eq_self (members : List (Key × Json))
    (current : ∀ m ∈ members, CurrentMember m) : moveRefsMembers members = members := by
  match members with
  | [] => rfl
  | (k, v) :: rest =>
    rw [List.forall_mem_cons] at current
    by_cases reference : IsReference (k, v)
    · obtain ⟨rfl, pointer, rfl⟩ := reference
      rw [moveRefsMembers_reference, moveRef_eq_self (current.1.1 rfl pointer rfl),
        moveRefsMembers_eq_self rest current.2]
    · rw [moveRefsMembers_other reference, moveRefs_eq_self v current.1.2,
        moveRefsMembers_eq_self rest current.2]

end

end Moving

section Conversion

theorem convertSchema_eq_str {v : Json} {s : String} (text : convertSchema v = .str s) :
    v = .str s := by
  cases v <;> simp_all [convertSchema]

mutual

theorem current_convertSchema (value : Json) (current : Current value) :
    Current (convertSchema value) := by
  match value with
  | .arr items =>
    rw [convertSchema, current_arr]
    exact current_convertItems items (current_arr.mp current)
  | .obj members =>
    have converted := current_convertMembers members (current_obj.mp current)
    rw [convertSchema, current_obj]
    split
    · exact current_set (current_set converted (.of_ne (by decide) (current_str _)))
        (.of_ne (by decide) (current_str _))
    · exact converted
  | .null | .bool _ | .int _ | .float _ | .str _ => exact current

theorem current_convertItems (items : List Json) (current : ∀ v ∈ items, Current v) :
    ∀ v ∈ convertItems items, Current v := by
  match items with
  | [] => simp [convertItems]
  | v :: rest =>
    rw [List.forall_mem_cons] at current
    rw [convertItems, List.forall_mem_cons]
    exact ⟨current_convertSchema v current.1, current_convertItems rest current.2⟩

theorem current_convertMembers (members : List (Key × Json))
    (current : ∀ m ∈ members, CurrentMember m) : ∀ m ∈ convertMembers members, CurrentMember m := by
  match members with
  | [] => simp [convertMembers]
  | (k, v) :: rest =>
    rw [List.forall_mem_cons] at current
    rw [convertMembers, List.forall_mem_cons]
    refine ⟨⟨fun key pointer same => ?_, current_convertSchema v current.1.2⟩,
      current_convertMembers rest current.2⟩
    exact current.1.1 key pointer (convertSchema_eq_str same)

end

theorem current_pick {members : Members} {names : List String} (other : "$ref" ∉ names)
    (current : ∀ m ∈ members, CurrentMember m) : ∀ m ∈ pick members names, CurrentMember m := by
  intro m member
  obtain ⟨name, listed, picked⟩ := List.mem_filterMap.mp member
  obtain ⟨value, found, rfl⟩ := Option.map_eq_some_iff.mp picked
  refine .of_ne ?_ (current_get? current found)
  intro same
  cases same
  exact other listed

theorem current_parameterSchema {members : Members} (current : ∀ m ∈ members, CurrentMember m) :
    Current (parameterSchema members) :=
  current_convertSchema _ (current_obj.mpr (current_pick (by decide) current))

theorem current_convertParameter {members : Members} (current : ∀ m ∈ members, CurrentMember m) :
    Current (convertParameter members) := by
  rw [convertParameter, current_obj, List.forall_mem_append, List.forall_mem_singleton]
  exact ⟨current_pick (by decide) current, .of_ne (by decide) (current_parameterSchema current)⟩

theorem current_contentOf {mediaTypes : List Json} {schema content : Json}
    (current : Current schema) (done : contentOf mediaTypes schema = .ok content) :
    Current content := by
  obtain ⟨keys, -, done⟩ := except_bind_eq_ok.mp done
  cases done
  rw [current_obj]
  apply current_ofList
  intro m member
  obtain ⟨key, -, rfl⟩ := List.mem_map.mp member
  exact .of_obj key (current_ofMembers (.cons (by decide) current .nil))

theorem current_convertResponse {produces response converted : Json} (current : Current response)
    (done : convertResponse produces response = .ok converted) : Current converted := by
  obtain ⟨reference, -, done⟩ := except_bind_eq_ok.mp done
  cases reference with
  | true =>
    cases done
    exact current
  | false =>
    obtain ⟨members, object, done⟩ := except_bind_eq_ok.mp done
    have inside := current_members current object
    have description := current_getD inside (current_str "") "description"
    split at done
    · cases done
      exact current_ofMembers (.cons (by decide) description .nil)
    · rename_i schema found
      obtain ⟨mediaTypes, -, done⟩ := except_bind_eq_ok.mp done
      obtain ⟨content, made, done⟩ := except_bind_eq_ok.mp done
      cases done
      have content := current_contentOf (current_convertSchema _ (current_get? inside found)) made
      exact current_ofMembers (.cons (by decide) description (.cons (by decide) content .nil))

/-- Only a text is converted to a text, which is kept. -/
theorem convertResponse_eq_str {produces response : Json} {s : String}
    (done : convertResponse produces response = .ok (.str s)) : response = .str s := by
  obtain ⟨reference, -, done⟩ := except_bind_eq_ok.mp done
  cases reference with
  | true =>
    cases done
    rfl
  | false =>
    obtain ⟨members, -, done⟩ := except_bind_eq_ok.mp done
    split at done
    · cases done
    · obtain ⟨mediaTypes, -, done⟩ := except_bind_eq_ok.mp done
      obtain ⟨content, -, done⟩ := except_bind_eq_ok.mp done
      cases done

def Surroundings.Current (around : Surroundings) : Prop :=
  ∀ body ∈ around.bodies, ∀ m ∈ body.2, CurrentMember m

structure Parts.Current (parts : Parts) : Prop where
  parameters : ∀ v ∈ parts.parameters, Swagger.Current v
  body : ∀ v ∈ parts.body, Swagger.Current v
  formFields : ∀ m ∈ parts.formFields, CurrentMember m
  formRequired : ∀ v ∈ parts.formRequired, Swagger.Current v

theorem current_source {around : Surroundings} {members : Members} (outside : around.Current)
    (current : ∀ m ∈ members, CurrentMember m) (ref : Key) :
    ∀ m ∈ around.source members ref, CurrentMember m := by
  cases ref with
  | text pointer =>
    rw [Surroundings.source]
    cases found : around.bodies.lookup pointer with
    | none => exact current
    | some body => exact outside (pointer, body) (mem_of_lookup found)
  | int _ | float _ | bool _ | null => exact current

theorem current_need {members : Members} {name : String} {value : Json}
    (current : ∀ m ∈ members, CurrentMember m) (done : need members name = .ok value) :
    Current value := by
  unfold need at done
  split at done
  · cases done
    exact current_get? current ‹_›
  · cases done

theorem current_addParameter {around : Surroundings} {consumes parameter : Json}
    {parts after : Parts} (outside : around.Current) (begun : parts.Current)
    (current : Current parameter) (done : addParameter around consumes parts parameter = .ok after) :
    after.Current := by
  obtain ⟨members, object, done⟩ := except_bind_eq_ok.mp done
  obtain ⟨ref, -, done⟩ := except_bind_eq_ok.mp done
  have taken := current_source outside (current_members current object) ref
  generalize around.source members ref = source at done taken
  dsimp only at done
  split at done
  · obtain ⟨mediaTypes, -, done⟩ := except_bind_eq_ok.mp done
    obtain ⟨content, made, done⟩ := except_bind_eq_ok.mp done
    cases done
    have schema := current_getD taken current_empty "schema"
    have content := current_contentOf (current_convertSchema _ schema) made
    have required := current_getD taken (current_bool false) "required"
    refine { begun with body := ?_ }
    rintro v ⟨⟩
    exact current_ofMembers (.cons (by decide) content (.cons (by decide) required .nil))
  split at done
  · obtain ⟨name, needed, done⟩ := except_bind_eq_ok.mp done
    obtain ⟨key, -, done⟩ := except_bind_eq_ok.mp done
    cases done
    have field : CurrentMember (key, parameterSchema source) :=
      .of_obj key (current_parameterSchema taken)
    refine { begun with formFields := current_set begun.formFields field, formRequired := ?_ }
    rw [List.forall_mem_append]
    refine ⟨begun.formRequired, ?_⟩
    split
    · rw [List.forall_mem_singleton]
      exact current_need taken needed
    · simp
  · cases done
    refine { begun with parameters := ?_ }
    rw [List.forall_mem_append, List.forall_mem_singleton]
    refine ⟨begun.parameters, ?_⟩
    split
    · exact current_obj.mpr taken
    · exact current_convertParameter taken

theorem current_formBody {consumes body : Json} {parts : Parts} (current : parts.Current)
    (done : formBody consumes parts = .ok body) : Current body := by
  obtain ⟨multipart, -, done⟩ := except_bind_eq_ok.mp done
  cases done
  have required : CurrentEntries (if parts.formRequired.isEmpty then []
      else [("required", .arr parts.formRequired)]) := by
    split
    · exact .nil
    · exact .cons (by decide) (current_arr.mpr current.formRequired) .nil
  have fields : CurrentEntries [("type", "object"), ("properties", .obj parts.formFields)] :=
    .cons (by decide) (current_str _) (.cons (by decide) (current_obj.mpr current.formFields) .nil)
  have schema := current_ofMembers (List.forall_mem_append.mpr ⟨fields, required⟩)
  refine current_ofMembers (.cons (by decide) (current_ofMembers (.cons ?_ ?_ .nil)) .nil)
  · cases multipart <;> decide
  · exact current_ofMembers (.cons (by decide) schema .nil)

theorem current_requestBody? {consumes : Json} {parts : Parts} {body : Option Json}
    (current : parts.Current) (done : parts.requestBody? consumes = .ok body) :
    ∀ v ∈ body, Current v := by
  unfold Parts.requestBody? at done
  split at done
  · cases done
    exact current.body
  · obtain ⟨made, formed, rfl⟩ := except_map_eq_ok.mp done
    rintro v ⟨⟩
    exact current_formBody current formed

theorem current_setSome {members : Members} {name : String} {value : Option Json}
    (other : name ≠ "$ref") (current : ∀ m ∈ members, CurrentMember m)
    (new : ∀ v ∈ value, Current v) : ∀ m ∈ setSome members name value, CurrentMember m := by
  cases value with
  | none => exact current
  | some v => exact current_set current (.of_ne (by simpa using other) (new v rfl))

/-- Only the key of references is shown as that key. -/
theorem display_eq_reference {key : Key} (same : key.display = "$ref") : key = "$ref" := by
  by_cases text : ∃ s, key = .text s
  · obtain ⟨s, rfl⟩ := text
    exact congrArg Key.text same
  · have numeral := Key.numeral_display fun s own => text ⟨s, own⟩
    rw [same] at numeral
    exact absurd (numeral '$' (by decide)) (by decide)

theorem current_convertResponses {produces : Json} {operation converted : Members}
    (current : ∀ m ∈ operation, CurrentMember m)
    (done : convertResponses produces operation = .ok converted) :
    ∀ m ∈ converted, CurrentMember m := by
  obtain ⟨responses, found, done⟩ := except_bind_eq_ok.mp done
  have inside := current_members (current_getD current current_empty _) found
  obtain ⟨answers, mapped, done⟩ := except_bind_eq_ok.mp done
  cases done
  apply current_ofList
  intro m member
  obtain ⟨source, held, step⟩ := exists_of_mapM_eq_ok mapped member
  obtain ⟨value, made, same⟩ := except_bind_eq_ok.mp step
  cases same
  refine ⟨fun key pointer text => ?_, current_convertResponse (inside source held).2 made⟩
  have reference : source.1 = "$ref" := display_eq_reference (Key.text.inj key)
  have text : value = .str pointer := text
  rw [text] at made
  exact (inside source held).1 reference pointer (convertResponse_eq_str made)

theorem current_convertOperation {around : Surroundings} {shared operation converted : Json}
    (outside : around.Current) (above : Current shared) (current : Current operation)
    (done : convertOperation around shared operation = .ok converted) : Current converted := by
  obtain ⟨members, object, done⟩ := except_bind_eq_ok.mp done
  have inside := current_members current object
  obtain ⟨sharedItems, sharedFound, done⟩ := except_bind_eq_ok.mp done
  obtain ⟨own, ownFound, done⟩ := except_bind_eq_ok.mp done
  obtain ⟨parts, folded, done⟩ := except_bind_eq_ok.mp done
  have parameters := current_getD inside current_nil "parameters"
  have made : parts.Current := by
    refine except_foldlM_keeps (fun parameter member before after begun step => ?_)
      ⟨by simp, by simp, by simp, by simp⟩ folded
    refine current_addParameter outside begun ?_ step
    rcases List.mem_append.mp member with listed | listed
    · exact current_elements above sharedFound parameter listed
    · exact current_elements parameters ownFound parameter listed
  obtain ⟨body, bodied, done⟩ := except_bind_eq_ok.mp done
  obtain ⟨responses, answered, done⟩ := except_bind_eq_ok.mp done
  cases done
  rw [current_obj]
  refine current_set (current_setSome (by decide) (current_setSome (by decide) ?_ ?_) ?_) ?_
  · exact fun m member => inside m (List.mem_of_mem_filter member)
  · exact current_requestBody? made bodied
  · split
    · simp
    · rintro v ⟨⟩
      exact current_arr.mpr made.parameters
  · exact .of_obj _ (current_obj.mpr (current_convertResponses inside answered))

theorem current_convertPath {around : Surroundings} {item converted : Json}
    (outside : around.Current) (current : Current item)
    (done : convertPath around item = .ok converted) : Current converted := by
  obtain ⟨members, object, done⟩ := except_bind_eq_ok.mp done
  have inside := current_members current object
  have shared := current_getD inside current_nil "parameters"
  obtain ⟨results, mapped, done⟩ := except_bind_eq_ok.mp done
  cases done
  rw [current_obj]
  intro m member
  obtain ⟨result, listed, same⟩ := List.mem_filterMap.mp member
  obtain ⟨source, held, made⟩ := exists_of_mapM_eq_ok mapped listed
  have same : result = some m := same
  rw [same] at made
  split at made
  · rename_i method
    obtain ⟨operation, converted, made⟩ := except_bind_eq_ok.mp made
    cases made
    refine .of_ne ?_ (current_convertOperation outside shared (inside source held).2 converted)
    rintro reference
    rw [reference] at method
    exact absurd method (by decide)
  split at made
  · cases made
  · cases made
    exact inside _ held

theorem current_servers {document : Members} {urls : List Json}
    (current : ∀ m ∈ document, CurrentMember m) (done : servers document = .ok urls) :
    ∀ v ∈ urls, Current v := by
  have basePath := current_getD current (current_str "") "basePath"
  unfold servers at done
  dsimp only at done
  split at done
  · cases done
    split
    · rw [List.forall_mem_singleton]
      exact current_ofMembers (.cons (by decide) basePath .nil)
    · simp
  · obtain ⟨schemes, -, done⟩ := except_bind_eq_ok.mp done
    cases done
    intro v member
    obtain ⟨scheme, -, rfl⟩ := List.mem_map.mp member
    exact current_ofMembers (.cons (by decide) (current_str _) .nil)

theorem convertEach_eq_ok {document members : Members} {name : String}
    {convert : Key → Json → Except Fault Json} (done : convertEach document name convert = .ok members) :
    ∃ entries, (document.get? name).getD (.obj []) = .obj entries ∧
      List.Forall₂ (fun m m' => m'.1 = m.1 ∧ convert m.1 m.2 = .ok m'.2) entries members := by
  obtain ⟨entries, object, done⟩ := except_bind_eq_ok.mp done
  refine ⟨entries, eq_obj_of_members object, (except_mapM_eq_ok.mp done).imp fun m m' step => ?_⟩
  obtain ⟨value, converted, same⟩ := except_bind_eq_ok.mp step
  cases same
  exact ⟨rfl, converted⟩

theorem current_convertEach {document members : Members} {name : String}
    {convert : Key → Json → Except Fault Json} (current : ∀ m ∈ document, CurrentMember m)
    (keeps : ∀ k v v', Current v → convert k v = .ok v' → Current v')
    (texts : ∀ k v s, convert k v = .ok (.str s) → v = .str s)
    (done : convertEach document name convert = .ok members) : ∀ m ∈ members, CurrentMember m := by
  obtain ⟨entries, found, pairs⟩ := convertEach_eq_ok done
  have inside : ∀ m ∈ entries, CurrentMember m := by
    have object := current_getD current current_empty name
    rw [found] at object
    exact current_obj.mp object
  intro m member
  obtain ⟨source, held, key, made⟩ := exists_of_forall₂ pairs member
  refine ⟨fun reference pointer text => ?_, keeps _ _ _ (inside source held).2 made⟩
  rw [text] at made
  exact (inside source held).1 (key ▸ reference) pointer (texts _ _ _ made)

/-- The members of global parameters, and what becomes of them. -/
theorem globalParameters_eq_ok {document parameters : Members} {bodies : List (String × Members)}
    (done : globalParameters document = .ok (bodies, parameters)) :
    ∃ entries sources, (document.get? "parameters").getD (.obj []) = .obj entries ∧
      List.Forall₂ (fun m (p : Key × Members) => p.1 = m.1 ∧ m.2 = .obj p.2) entries sources ∧
      bodies = ((sources.filter fun p => (p.2.get "in").isText "body").reverse.map fun p =>
        ("#/components/parameters/" ++ p.1.display, p.2)) ∧
      parameters = ((sources.filter fun p => !(p.2.get "in").isText "body").map fun p =>
        (p.1, convertParameter p.2)) := by
  obtain ⟨entries, object, done⟩ := except_bind_eq_ok.mp done
  obtain ⟨sources, mapped, done⟩ := except_bind_eq_ok.mp done
  rw [List.partition_eq_filter_filter] at done
  cases done
  refine ⟨entries, sources, eq_obj_of_members object, ?_, rfl, rfl⟩
  refine (except_mapM_eq_ok.mp mapped).imp fun m p step => ?_
  obtain ⟨members, own, same⟩ := except_bind_eq_ok.mp step
  cases same
  exact ⟨rfl, eq_obj_of_members own⟩

def producedBy (document : Members) : Json :=
  (document.get "produces").orElse (.arr ["application/json"])

/-- The parts of a converted document. -/
theorem convertMoved_eq_ok {document : Members} {result : Json}
    (done : convertMoved document = .ok result) :
    ∃ urls definitions bodies parameters responses paths,
      let consumes := (document.get "consumes").orElse (.arr ["application/json"])
      let info := (document.get? "info").getD (.ofMembers [("title", ""), ("version", "")])
      servers document = .ok urls ∧
      convertEach document "definitions" (fun _ v => .ok (convertSchema v)) = .ok definitions ∧
      globalParameters document = .ok (bodies, parameters) ∧
      convertEach document "responses" (fun _ v => convertResponse (producedBy document) v) =
        .ok responses ∧
      convertEach document "paths"
        (fun _ v => convertPath ⟨consumes, producedBy document, bodies⟩ v) = .ok paths ∧
      result = .obj
        ([(.text "openapi", .str "3.0.3"), (.text "info", info)] ++
          (if urls.isEmpty then [] else [(.text "servers", .arr urls)]) ++
          carry document "tags" "tags" ++ carry document "security" "security" ++
          [(.text "components", .obj (components document definitions parameters responses)),
           (.text "paths", .obj paths)]) := by
  obtain ⟨urls, served, done⟩ := except_bind_eq_ok.mp done
  obtain ⟨definitions, defined, done⟩ := except_bind_eq_ok.mp done
  obtain ⟨⟨bodies, parameters⟩, globals, done⟩ := except_bind_eq_ok.mp done
  obtain ⟨responses, answered, done⟩ := except_bind_eq_ok.mp done
  obtain ⟨paths, mapped, done⟩ := except_bind_eq_ok.mp done
  cases done
  exact ⟨urls, definitions, bodies, parameters, responses, paths, served, defined, globals,
    answered, mapped, rfl⟩

theorem current_globalParameters {document parameters : Members}
    {bodies : List (String × Members)} (current : ∀ m ∈ document, CurrentMember m)
    (done : globalParameters document = .ok (bodies, parameters)) :
    (∀ body ∈ bodies, ∀ m ∈ body.2, CurrentMember m) ∧ ∀ m ∈ parameters, CurrentMember m := by
  obtain ⟨entries, sources, found, pairs, rfl, rfl⟩ := globalParameters_eq_ok done
  have object := current_getD current current_empty "parameters"
  rw [found, current_obj] at object
  have inside : ∀ p ∈ sources, ∀ m ∈ p.2, CurrentMember m := by
    intro p member
    obtain ⟨m, held, -, own⟩ := exists_of_forall₂ pairs member
    have value := (object m held).2
    rw [own] at value
    exact current_obj.mp value
  constructor
  · intro body member
    obtain ⟨p, listed, rfl⟩ := List.mem_map.mp member
    exact inside p (List.mem_of_mem_filter (List.mem_reverse.mp listed))
  · intro m member
    obtain ⟨p, listed, rfl⟩ := List.mem_map.mp member
    exact .of_obj _ (current_convertParameter (inside p (List.mem_of_mem_filter listed)))

theorem current_carry {document : Members} (name : String) {newName : String}
    (other : newName ≠ "$ref") (current : ∀ m ∈ document, CurrentMember m) :
    ∀ m ∈ carry document name newName, CurrentMember m := by
  intro m member
  obtain ⟨v, found, rfl⟩ := Option.map_eq_some_iff.mp (Option.mem_toList.mp member)
  exact .of_ne (by simpa using other) (current_get? current found)

theorem current_part (name : String) {members : Members}
    (current : ∀ m ∈ members, CurrentMember m) : ∀ m ∈ part name members, CurrentMember m := by
  unfold part
  split
  · simp
  · rw [List.forall_mem_singleton]
    exact .of_obj _ (current_obj.mpr current)

theorem current_components {document definitions parameters responses : Members}
    (outside : ∀ m ∈ document, CurrentMember m) (schemas : ∀ m ∈ definitions, CurrentMember m)
    (global : ∀ m ∈ parameters, CurrentMember m) (answers : ∀ m ∈ responses, CurrentMember m) :
    ∀ m ∈ components document definitions parameters responses, CurrentMember m := by
  simp only [components, List.forall_mem_append, List.forall_mem_singleton]
  exact ⟨⟨⟨.of_obj _ (current_obj.mpr schemas), current_part _ global⟩, current_part _ answers⟩,
    current_carry _ (by decide) outside⟩

/-- The conversion makes no reference to an old place. -/
theorem current_convertMoved {document : Members} {result : Json}
    (current : ∀ m ∈ document, CurrentMember m) (done : convertMoved document = .ok result) :
    Current result := by
  obtain ⟨urls, definitions, bodies, parameters, responses, paths, served, defined, globals,
    answered, mapped, rfl⟩ := convertMoved_eq_ok done
  have blank : Current (.ofMembers [("title", ""), ("version", "")]) :=
    current_ofMembers (.cons (by decide) (current_str "") (.cons (by decide) (current_str "") .nil))
  have schemas : ∀ m ∈ definitions, CurrentMember m := by
    refine current_convertEach current (fun _ v v' inside made => ?_) (fun _ v s made => ?_) defined
    · cases made
      exact current_convertSchema v inside
    · exact convertSchema_eq_str (Except.ok.inj made)
  obtain ⟨outside, global⟩ := current_globalParameters current globals
  have answers := current_convertEach current (fun _ _ _ => current_convertResponse)
    (fun _ _ _ => convertResponse_eq_str) answered
  have routes : ∀ m ∈ paths, CurrentMember m := by
    refine current_convertEach current (fun _ _ _ inside made => ?_) (fun _ v s made => ?_) mapped
    · refine current_convertPath ?_ inside made
      exact outside
    · obtain ⟨members, -, made⟩ := except_bind_eq_ok.mp made
      obtain ⟨results, -, made⟩ := except_bind_eq_ok.mp made
      cases made
  simp only [current_obj, List.forall_mem_append, List.forall_mem_cons]
  refine ⟨⟨⟨⟨⟨.of_ne (by decide) (current_str _), .of_ne (by decide) (current_getD current blank _),
    fun _ member => nomatch member⟩, ?_⟩, current_carry _ (by decide) current⟩,
    current_carry _ (by decide) current⟩, ?_, ?_, fun _ member => nomatch member⟩
  · split
    · simp
    · rw [List.forall_mem_singleton]
      exact .of_ne (by decide) (current_arr.mpr (current_servers current served))
  · exact .of_obj _ (current_obj.mpr (current_components current schemas global answers))
  · exact .of_obj _ (current_obj.mpr routes)

end Conversion

end Swagger

end TypedClient
