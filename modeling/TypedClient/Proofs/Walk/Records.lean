import TypedClient.Proofs.Builder.Coherence
import TypedClient.Proofs.Store.Order
import TypedClient.Proofs.Walk.Operations

/-! What a walk records. Parsing an operation is a run of records: a schema is added and its name
finds a place in the operation, or a status is noted. A record is labelled with the status that it
puts into the decode table, so that the labels of a run are statuses of the operation. -/
namespace TypedClient.Walk

open Build Builder Store

/-- A schema of the document is added under a name, which is new unless a reference leads to it. -/
structure Adds (document : Json) (before after : Store) (name : String) : Prop where
  settles : Settles document before after
  declared : name ∈ after.names
  source : name ∈ after.refNames.map (·.2) ∨ name ∉ before.names

def Fails (status : String) : Prop :=
  ∃ major, statusMajor status = .ok (some major) ∧ 4 ≤ major

def failed (op : Operation) (status name : String) (store : Store) : Operation :=
  if Generator.isStruct store name then
    { op with
      errors := assign op.errors (Text.lowerText status) name
      errorBodies := assign op.errorBodies name
        ((named (Generator.bodyOf? store name)).getD (name ++ "Body"))
      classes := assign op.classes status .errorTagged }
  else
    { op with
      errors := assign op.errors (Text.lowerText status) name
      classes := assign op.classes status .errorPlain }

/-- An error enters the errors, and the bodies as well if it has one. -/
theorem failed_eq (op : Operation) (status name : String) (store : Store) :
    ∃ errorBodies classes, failed op status name store = { op with
        errors := assign op.errors (Text.lowerText status) name, errorBodies, classes } ∧
      op.errorBodies.map (·.1) ⊆ errorBodies.map (·.1) ∧
      (Generator.isStruct store name = true → name ∈ errorBodies.map (·.1)) := by
  unfold failed
  split
  · exact ⟨_, _, rfl, fun _ member => mem_keys_assign.mpr (.inl member),
      fun _ => mem_keys_assign.mpr (.inr rfl)⟩
  · next plain => exact ⟨_, _, rfl, List.Subset.refl _, fun struct => absurd struct plain⟩

/-- One record. Its label is the status that enters the decode table, if one does. -/
inductive Record (document : Json) : Operation × Store → List String → Operation × Store → Prop
  | places {op store} (urlParams headers : List String) :
    Record document (op, store) [] ({ op with urlParams, headers }, store)
  | params {op before after name} (optional : Bool) (adds : Adds document before after name)
      (own : name ∉ after.refNames.map (·.2)) :
    Record document (op, before) []
      ({ op with params := some name, paramsOptional := optional }, after)
  | payload {op before after name} (formData : Bool) (adds : Adds document before after name) :
    Record document (op, before) []
      ({ op with payload := some name, payloadFormData := formData }, after)
  | default {op before after name} (adds : Adds document before after name) :
    Record document (op, before) [] ({ op with defaultSchema := some name }, after)
  | stream {op before after name} (adds : Adds document before after name) :
    Record document (op, before) [] ({ op with streamSchema := some name }, after)
  /-- A status without a leading digit has a schema that no part of the operation names. -/
  | unread {op before after name} (adds : Adds document before after name) :
    Record document (op, before) [] (op, after)
  | success {op before after name} (status : String) (adds : Adds document before after name) :
    Record document (op, before) [Text.lowerText status]
      ({ op with
        successes := assign op.successes (Text.lowerText status) name
        classes := assign op.classes status .success }, after)
  | failure {op before after name status} (fails : Fails status)
      (adds : Adds document before after name) :
    Record document (op, before) [Text.lowerText status]
      (failed op status name (after.marked name), after.marked name)
  | void {op store} (status : String) :
    Record document (op, store) [Text.lowerText status]
      ({ op with
        voidStatuses := op.voidStatuses ++ [Text.lowerText status]
        classes := assign op.classes status .void }, store)
  | ignored {op store} (status : String) :
    Record document (op, store) []
      ({ op with
        ignoredStatuses := op.ignoredStatuses ++ [Text.lowerText status]
        classes := assign op.classes status .ignored }, store)

inductive Records (document : Json) : Operation × Store → List String → Operation × Store → Prop
  | refl (state) : Records document state [] state
  | next {first second last labels more} (step : Record document first labels second)
      (rest : Records document second more last) : Records document first (labels ++ more) last

variable {document : Json} {x y z : Operation × Store} {labels more : List String}

namespace Records

theorem single (step : Record document x labels y) : Records document x labels y := by
  simpa using Records.next step (.refl y)

theorem trans (first : Records document x labels y) (second : Records document y more z) :
    Records document x (labels ++ more) z := by
  induction first with
  | refl => exact second
  | next step _ ih => simpa only [List.append_assoc] using Records.next step (ih second)

/-- What every record keeps a run keeps. -/
theorem invariant {P : Operation × Store → Prop}
    (keeps : ∀ {x labels y}, Record document x labels y → P x → P y)
    (run : Records document x labels y) (start : P x) : P y := by
  induction run with
  | refl => exact start
  | next step _ ih => exact ih (keeps step start)

end Records

theorem valid_empty (document : Json) : Valid document ({} : Session).store :=
  ⟨sound_empty, by simp [Resolves]⟩

theorem valid_marked {store : Store} (valid : Valid document store) (name : String) :
    Valid document (store.marked name) := by
  refine ⟨(marked_evolves valid.sound name).sound, ?_⟩
  unfold Resolves
  rw [refNames_marked]
  exact valid.resolves

theorem Record.valid (step : Record document x labels y) (valid : Valid document x.2) :
    Valid document y.2 := by
  cases step with
  | places | void | ignored => exact valid
  | params _ adds | payload _ adds | default adds | stream adds | unread adds | success _ adds =>
    exact adds.settles.valid
  | failure _ adds => exact valid_marked adds.settles.valid _

theorem Record.evolves (step : Record document x labels y) (valid : Valid document x.2) :
    Evolves x.2 y.2 := by
  cases step with
  | places | void | ignored => exact .refl valid.sound
  | params _ adds | payload _ adds | default adds | stream adds | unread adds | success _ adds =>
    exact adds.settles.grows.evolves
  | failure _ adds =>
    exact adds.settles.grows.evolves.trans (marked_evolves adds.settles.valid.sound _)

theorem Records.valid (run : Records document x labels y) (valid : Valid document x.2) :
    Valid document y.2 :=
  run.invariant Record.valid valid

section Parsing

variable {env : Env} {op op' : Operation} {s s' : Session} {schemaId status name : String}

theorem addSchema_adds {brandIds preferStruct : Bool} {fragment : Json} {declared : String}
    (valid : Valid document s.store)
    (done : addSchema brandIds name fragment document preferStruct s = .ok declared s') :
    Adds document s.store s'.store declared := by
  obtain ⟨_, declared, source⟩ :=
    (addSchema_grows brandIds name fragment document preferStruct valid.sound).of_ok done
  exact ⟨addSchema_settles valid done, declared, source⟩

/-- The object of the parameters is written out, so it is no reference. -/
theorem asRef?_params {properties : Members} {required : List Json} {path : String}
    {node : Schema.Node}
    (read : Schema.normalize (Json.ofMembers [("type", "object"), ("properties", .obj properties),
      ("required", .arr required)]) path = .ok node) : asRef? node = none := by
  rw [Json.ofMembers, Schema.normalize_obj] at read
  obtain ⟨layer, layered, built⟩ := except_bind_eq_ok.mp read
  cases layered
  obtain ⟨inner, shaped, annotated⟩ := except_bind_eq_ok.mp built
  cases annotated
  obtain ⟨shape, mapped, same⟩ := except_bind_eq_ok.mp shaped
  cases same
  obtain ⟨fields, object⟩ : ∃ fields, Schema.objectLayer (List.map (fun m => (Key.text m.1, m.2))
      [("type", .str "object"), ("properties", .obj properties), ("required", .arr required)]) path =
        .object fields := by
    unfold Schema.objectLayer
    split <;> exact ⟨_, rfl⟩
  rw [object] at mapped
  obtain ⟨_, _, rest⟩ := except_bind_eq_ok.mp mapped
  obtain ⟨_, _, same⟩ := except_bind_eq_ok.mp rest
  cases same
  rfl

theorem parseParameters_records {parameters : List Json} (valid : Valid env.document s.store)
    (done : parseParameters env op schemaId parameters s = .ok op' s') :
    Records env.document (op, s.store) [] (op', s'.store) := by
  unfold parseParameters at done
  obtain ⟨collected, t, gathered, rest⟩ := bind_eq_ok.mp done
  have kept := ((collect_keeps env parameters).of_ok gathered).1
  obtain ⟨params, u, lifted, registered⟩ := bind_eq_ok.mp rest
  obtain ⟨_, rfl⟩ := lift_eq_ok.mp lifted
  rw [← kept] at valid ⊢
  have placed : Record env.document (op, u.store) [] ({ op with
      urlParams := op.urlParams ++ params.urlParams, headers := op.headers ++ params.headers },
      u.store) := .places _ _
  simp only at registered
  split at registered
  · cases registered
    exact .single placed
  · obtain ⟨declared, v, added, same⟩ := bind_eq_ok.mp registered
    cases same
    have own := addSchema_own valid (fun _ => asRef?_params) added
    exact .next placed (.single (.params _ (addSchema_adds valid added) own))

theorem parseBody_records {body : Json} (valid : Valid env.document s.store)
    (done : parseBody env op schemaId body s = .ok op' s') :
    Records env.document (op, s.store) [] (op', s'.store) := by
  unfold parseBody at done
  obtain ⟨followed, t, chased, rest⟩ := bind_eq_ok.mp done
  have kept := ((follow_keeps env.document body).of_ok chased).1
  rw [← kept] at valid ⊢
  obtain ⟨content, u, lifted, read⟩ := bind_eq_ok.mp rest
  obtain ⟨_, rfl⟩ := lift_eq_ok.mp lifted
  obtain ⟨schema, u, lifted, registered⟩ := bind_eq_ok.mp read
  obtain ⟨_, rfl⟩ := lift_eq_ok.mp lifted
  split at registered
  · obtain ⟨members, v, lifted, formed⟩ := bind_eq_ok.mp registered
    obtain ⟨_, rfl⟩ := lift_eq_ok.mp lifted
    cases found : members.get? "multipart/form-data" with
    | none =>
      rw [found] at formed
      cases formed
      exact .refl _
    | some form =>
      rw [found] at formed
      obtain ⟨form, w, lifted, posted⟩ := bind_eq_ok.mp formed
      obtain ⟨_, rfl⟩ := lift_eq_ok.mp lifted
      obtain ⟨declared, v, added, same⟩ := bind_eq_ok.mp posted
      cases same
      exact .single (.payload true (addSchema_adds valid added))
  · obtain ⟨declared, v, added, same⟩ := bind_eq_ok.mp registered
    cases same
    exact .single (.payload op.payloadFormData (addSchema_adds valid added))

/-- An error is recorded as the store has it once it is marked. -/
theorem registerError_eq_ok (done : registerError op status name s = .ok op' s') :
    s'.store = s.store.marked name ∧ op' = failed op status name (s.store.marked name) := by
  obtain ⟨t, marking, marked⟩ := markAsError_ok name s
  unfold registerError at done
  obtain ⟨_, u, marks, rest⟩ := bind_eq_ok.mp done
  cases marking.symm.trans marks
  obtain ⟨_, v, read, registered⟩ := bind_eq_ok.mp rest
  cases read
  rw [← marked]
  unfold failed
  split at registered
  · next isStruct =>
    cases registered
    exact ⟨rfl, by rw [if_pos isStruct]⟩
  · next plain =>
    cases registered
    exact ⟨rfl, by rw [if_neg plain]⟩

/-- A declaration that was added is recorded once, under its status if at all. -/
theorem registerResponse_record {before : Store} {major : Option Nat}
    (adds : Adds document before s.store name) (read : statusMajor status = .ok major)
    (done : registerResponse op status major name s = .ok op' s') :
    ∃ labels, Record document (op, before) labels (op', s'.store) ∧
      labels.Sublist [Text.lowerText status] := by
  unfold registerResponse at done
  split at done
  · cases done
    exact ⟨_, .default adds, by simp⟩
  · split at done
    · cases done
      exact ⟨_, .unread adds, by simp⟩
    · next n =>
      split at done
      · cases done
        exact ⟨_, .success status adds, .refl _⟩
      · next large =>
        obtain ⟨marked, rfl⟩ := registerError_eq_ok done
        rw [marked]
        exact ⟨_, .failure ⟨n, read, Nat.le_of_not_lt large⟩ adds, .refl _⟩

theorem parseContent_records {major : Option Nat} {schema : Json}
    (valid : Valid env.document s.store) (read : statusMajor status = .ok major)
    (done : parseContent env schemaId op status major schema s = .ok op' s') :
    ∃ labels, Records env.document (op, s.store) labels (op', s'.store) ∧
      labels.Sublist [Text.lowerText status] ∧ (schema = .null → labels = []) := by
  unfold parseContent at done
  split at done
  · cases done
    exact ⟨[], .refl _, by simp, fun _ => rfl⟩
  · next given =>
    obtain ⟨declared, t, added, registered⟩ := bind_eq_ok.mp done
    obtain ⟨labels, step, few⟩ :=
      registerResponse_record (addSchema_adds valid added) read registered
    exact ⟨labels, .single step, few, fun null => absurd null given⟩

theorem parseStream_records {stream : Json} (valid : Valid env.document s.store)
    (done : parseStream env schemaId op stream s = .ok op' s') :
    Records env.document (op, s.store) [] (op', s'.store) := by
  have parsed : parseStream env schemaId op stream = pure op ∨ parseStream env schemaId op stream = do
      let name ← addSchema env.brandIds (schemaId ++ "StreamEvent") stream env.document true
      return { op with streamSchema := some name } := by
    unfold parseStream
    split
    · exact .inl rfl
    · exact .inr rfl
    · exact .inl rfl
  rcases parsed with skipped | registered
  · rw [skipped] at done
    cases done
    exact .refl _
  · rw [registered] at done
    obtain ⟨declared, t, added, same⟩ := bind_eq_ok.mp done
    cases same
    exact .single (.stream (addSchema_adds valid added))

theorem noteEmpty_records (document : Json) (op : Operation) (store : Store) (status : String)
    (major : Option Nat) (content : Json) :
    ∃ labels, Records document (op, store) labels (noteEmpty op status major content, store) ∧
      labels.Sublist [Text.lowerText status] ∧ (content.truthy = true → labels = []) := by
  unfold noteEmpty
  split
  · next empty =>
    split
    · exact ⟨_, .single (.void status), .refl _, fun full => by simp [empty] at full⟩
    · exact ⟨_, .single (.ignored status), by simp, fun _ => rfl⟩
  · exact ⟨[], .refl _, by simp, fun _ => rfl⟩

/-- What counts as empty has no schema, so a status with a schema is not noted as empty. -/
theorem mediaSchema_of_empty {content schema : Json} {mediaType : String}
    (empty : content.truthy = false) (read : mediaSchema content mediaType = .ok schema) :
    schema = .null := by
  have missing : mediaSchema content mediaType = .ok .null := by
    simp only [mediaSchema, member, Json.orElse, empty]
    rfl
  exact (Except.ok.inj (missing.symm.trans read)).symm

theorem parseResponse_records {entry : Key × Json} (valid : Valid env.document s.store)
    (done : parseResponse env schemaId op entry s = .ok op' s') :
    ∃ labels, Records env.document (op, s.store) labels (op', s'.store) ∧
      labels.Sublist [Text.lowerText entry.1.display] := by
  unfold parseResponse at done
  obtain ⟨followed, t, chased, rest⟩ := bind_eq_ok.mp done
  have kept := ((follow_keeps env.document entry.2).of_ok chased).1
  rw [← kept] at valid ⊢
  split at rest
  · next response =>
    obtain ⟨schema, u, lifted, read⟩ := bind_eq_ok.mp rest
    obtain ⟨json, rfl⟩ := lift_eq_ok.mp lifted
    obtain ⟨major, u, lifted, registered⟩ := bind_eq_ok.mp read
    obtain ⟨digit, rfl⟩ := lift_eq_ok.mp lifted
    obtain ⟨middle, v, added, streamed⟩ := bind_eq_ok.mp registered
    obtain ⟨labels, run, few, noLabels⟩ := parseContent_records valid digit added
    have valid' := run.valid valid
    obtain ⟨stream, w, lifted, noted⟩ := bind_eq_ok.mp streamed
    obtain ⟨_, rfl⟩ := lift_eq_ok.mp lifted
    obtain ⟨last, w', parsed, same⟩ := bind_eq_ok.mp noted
    cases same
    have further := parseStream_records valid' parsed
    obtain ⟨more, notes, fewMore, noMore⟩ := noteEmpty_records env.document last s'.store
      entry.1.display major (Members.get response "content")
    refine ⟨labels ++ more, by simpa using (run.trans further).trans notes, ?_⟩
    cases content : (Members.get response "content").truthy with
    | true => simpa [noMore content] using few
    | false => simpa [noLabels (mediaSchema_of_empty content json)] using fewMore
  · cases rest
    exact ⟨[], .refl _, by simp⟩

theorem parseEntries_records {schemaId : String} {entries : Members}
    (valid : Valid env.document s.store)
    (done : entries.foldlM (parseResponse env schemaId) op s = .ok op' s') :
    ∃ labels, Records env.document (op, s.store) labels (op', s'.store) ∧
      labels.Sublist (entries.map fun entry => Text.lowerText entry.1.display) := by
  induction entries generalizing op s with
  | nil =>
    cases done
    exact ⟨[], .refl _, by simp⟩
  | cons entry rest ih =>
    rw [List.foldlM_cons] at done
    obtain ⟨middle, t, first, later⟩ := bind_eq_ok.mp done
    obtain ⟨labels, run, few⟩ := parseResponse_records valid first
    obtain ⟨more, others, fewMore⟩ := ih (run.valid valid) later
    exact ⟨labels ++ more, run.trans others, few.append fewMore⟩

def membersOf (value : Json) : Members :=
  value.members.toOption.getD []

theorem membersOf_eq {value : Json} {members : Members} (read : value.members = .ok members) :
    membersOf value = members := by
  simp [membersOf, read, Except.toOption]

def statuses (operation : Members) : List String :=
  (membersOf ((operation.get "responses").orElse emptyObject)).map fun entry =>
    Text.lowerText entry.1.display

theorem parseResponses_records {operation : Members} (valid : Valid env.document s.store)
    (done : parseResponses env op schemaId (operation.get "responses") s = .ok op' s') :
    ∃ recorded labels, Records env.document (op, s.store) labels (recorded, s'.store) ∧
      labels.Sublist (statuses operation) ∧ op' = widenSuccess (adoptDefault recorded) := by
  unfold parseResponses at done
  obtain ⟨entries, t, lifted, rest⟩ := bind_eq_ok.mp done
  obtain ⟨read, rfl⟩ := lift_eq_ok.mp lifted
  obtain ⟨recorded, u, folded, same⟩ := bind_eq_ok.mp rest
  cases same
  obtain ⟨labels, run, few⟩ := parseEntries_records valid folded
  rw [← membersOf_eq read] at few
  exact ⟨recorded, labels, run, few, rfl⟩

/-- Settling the successes keeps them, or lets one of them or the default stand for all. -/
theorem settled_eq (op : Operation) : ∃ successes classes,
    widenSuccess (adoptDefault op) = { op with successes, classes } ∧
      (successes = op.successes ∨ ∃ name, successes = [("2xx", name)] ∧
        (name ∈ op.successes.map (·.2) ∨ op.defaultSchema = some name)) := by
  have adopted : ∃ successes classes, adoptDefault op = { op with successes, classes } ∧
      (successes = op.successes ∨
        ∃ name, successes = [("2xx", name)] ∧ op.defaultSchema = some name) := by
    unfold adoptDefault
    split
    · next found => exact ⟨_, _, rfl, .inr ⟨_, rfl, (Operation.named_eq_some.mp found).1⟩⟩
    · exact ⟨_, _, rfl, .inl rfl⟩
  obtain ⟨successes, classes, same, source⟩ := adopted
  have known : ∀ {status name}, successes = [(status, name)] →
      name ∈ op.successes.map (·.2) ∨ op.defaultSchema = some name := by
    intro status name single
    rcases source with kept | ⟨_, default, found⟩
    · exact .inl (by simp [← kept, single])
    · cases single.symm.trans default
      exact .inr found
  rw [same]
  unfold widenSuccess
  simp only
  split
  · split
    · exact ⟨_, _, rfl, .inr ⟨_, rfl, known rfl⟩⟩
    · exact ⟨_, _, rfl, source.imp id fun ⟨name, default, found⟩ => ⟨name, default, .inr found⟩⟩
  · exact ⟨_, _, rfl, source.imp id fun ⟨name, default, found⟩ => ⟨name, default, .inr found⟩⟩

structure Blank (op : Operation) : Prop where
  params : op.params = none
  payload : op.payload = none
  successes : op.successes = []
  errors : op.errors = []
  errorBodies : op.errorBodies = []
  voidStatuses : op.voidStatuses = []
  defaultSchema : op.defaultSchema = none
  streamSchema : op.streamSchema = none

/-- The operation that an object describes: what is recorded of it, with its successes settled. -/
def Parsed (document : Json) (operation : Members) (before : Store) (op : Operation)
    (after : Store) : Prop :=
  ∃ start recorded labels, Blank start ∧
    Records document (start, before) labels (recorded, after) ∧
    labels.Sublist (statuses operation) ∧ op = widenSuccess (adoptDefault recorded)

theorem parseOperation_parsed {path : Key} {method : String} {operation : Members} {shared : Json}
    (valid : Valid env.document s.store)
    (done : parseOperation env path method operation shared s = .ok op s') :
    Parsed env.document operation s.store op s'.store := by
  unfold parseOperation at done
  obtain ⟨text, t, keyed, named⟩ := bind_eq_ok.mp done
  have kept : t = s := by
    cases path <;> cases keyed
    rfl
  subst kept
  obtain ⟨id, _, lifted, tagged⟩ := bind_eq_ok.mp named
  obtain ⟨_, rfl⟩ := lift_eq_ok.mp lifted
  obtain ⟨tags, _, lifted, shown⟩ := bind_eq_ok.mp tagged
  obtain ⟨_, rfl⟩ := lift_eq_ok.mp lifted
  obtain ⟨schemaId, _, lifted, inherited⟩ := bind_eq_ok.mp shown
  obtain ⟨_, rfl⟩ := lift_eq_ok.mp lifted
  obtain ⟨outer, _, lifted, owned⟩ := bind_eq_ok.mp inherited
  obtain ⟨_, rfl⟩ := lift_eq_ok.mp lifted
  obtain ⟨own, _, lifted, parsed⟩ := bind_eq_ok.mp owned
  obtain ⟨_, rfl⟩ := lift_eq_ok.mp lifted
  obtain ⟨first, u, parameters, rest⟩ := bind_eq_ok.mp parsed
  have params := parseParameters_records valid parameters
  obtain ⟨second, v, body, others⟩ := bind_eq_ok.mp rest
  have payload := parseBody_records (params.valid valid) body
  obtain ⟨third, w, responses, reports⟩ := bind_eq_ok.mp others
  obtain ⟨_, _, reported, same⟩ := bind_eq_ok.mp reports
  cases reported
  cases same
  have run := params.trans payload
  obtain ⟨recorded, labels, noted, few, settled⟩ := parseResponses_records (run.valid valid) responses
  exact ⟨_, recorded, labels, ⟨rfl, rfl, rfl, rfl, rfl, rfl, rfl, rfl⟩, run.trans noted, few, settled⟩

end Parsing

def pathObjects (item : Json) : List Members :=
  methodNames.flatMap fun (method : String) =>
    match (membersOf item).get method with
    | .obj operation => [operation]
    | _ => []

def operationObjects (document : Json) : List Members :=
  (membersOf (((membersOf document).get "paths").orElse emptyObject)).flatMap fun entry =>
    pathObjects entry.2

inductive Walked (document : Json) : List Members → Store → List Operation → Store → Prop
  | nil (store) : Walked document [] store [] store
  | cons {operation operations before op middle ops after}
      (parsed : Parsed document operation before op middle)
      (rest : Walked document operations middle ops after) :
    Walked document (operation :: operations) before (op :: ops) after

namespace Walked

variable {operations others : List Members} {ops more : List Operation}
  {before middle after : Store}

theorem append (first : Walked document operations before ops middle)
    (second : Walked document others middle more after) :
    Walked document (operations ++ others) before (ops ++ more) after := by
  induction first with
  | nil => exact second
  | cons parsed _ ih => exact .cons parsed (ih second)

theorem valid (walked : Walked document operations before ops after)
    (valid : Valid document before) : Valid document after := by
  induction walked with
  | nil => exact valid
  | cons parsed _ ih =>
    obtain ⟨_, _, _, _, run, _⟩ := parsed
    exact ih (run.valid valid)

/-- What holds of every operation that is parsed holds of the operations of a walk. -/
theorem forall₂ {P : Members → Operation → Prop}
    (each : ∀ {operation before op after}, Parsed document operation before op after →
      P operation op)
    (walked : Walked document operations before ops after) : List.Forall₂ P operations ops := by
  induction walked with
  | nil => exact .nil
  | cons parsed _ ih => exact .cons (each parsed) ih

/-- One step for each item, of which each walks the operations of its own. -/
theorem mapM {f : α → Build β} {objects : α → List Members} {results : β → List Operation}
    {items : List α} {found : List β} {s s' : Session}
    (step : ∀ item b (s s' : Session), Valid document s.store → f item s = .ok b s' →
      Walked document (objects item) s.store (results b) s'.store)
    (valid : Valid document s.store) (done : items.mapM f s = .ok found s') :
    Walked document (items.flatMap objects) s.store (found.flatMap results) s'.store := by
  induction items generalizing s found with
  | nil =>
    cases done
    exact .nil _
  | cons item rest ih =>
    rw [List.mapM_cons] at done
    obtain ⟨b, t, first, later⟩ := bind_eq_ok.mp done
    obtain ⟨bs, u, others, same⟩ := bind_eq_ok.mp later
    cases same
    have head := step item b s t valid first
    exact head.append (ih (head.valid valid) others)

end Walked

theorem walkPath_walked {env : Env} {path : Key} {item : Json} {ops : List Operation}
    {s s' : Session} (valid : Valid env.document s.store)
    (done : walkPath env path item s = .ok ops s') :
    Walked env.document (pathObjects item) s.store ops s'.store := by
  unfold walkPath at done
  split at done
  · next members =>
    obtain ⟨found, t, mapped, same⟩ := bind_eq_ok.mp done
    cases same
    rw [List.filterMap_eq_flatMap_toList]
    refine Walked.mapM (fun method parsed s s' valid done => ?_) valid mapped
    have read : membersOf (.obj members) = members := rfl
    rw [read]
    cases found : Members.get members method with
    | obj operation =>
      rw [found] at done
      obtain ⟨op, u, parses, same⟩ := bind_eq_ok.mp done
      cases same
      exact .cons (parseOperation_parsed valid parses) (.nil _)
    | _ =>
      rw [found] at done
      cases done
      exact .nil _
  · next other =>
    cases done
    have missing : membersOf item = [] := by
      cases item with
      | obj members => exact absurd rfl (other members)
      | _ => rfl
    have without : pathObjects item = [] := by
      simp [pathObjects, missing, Members.get, Members.get?]
    rw [without]
    exact .nil _

/-- A walk parses the operations of its document one after the other. -/
theorem walk_walked {env : Env} {ops : List Operation} {s s' : Session}
    (valid : Valid env.document s.store) (done : walk env s = .ok ops s') :
    Walked env.document (operationObjects env.document) s.store ops s'.store := by
  unfold walk at done
  obtain ⟨members, _, lifted, rest⟩ := bind_eq_ok.mp done
  obtain ⟨isObject, rfl⟩ := lift_eq_ok.mp lifted
  obtain ⟨paths, _, lifted, walks⟩ := bind_eq_ok.mp rest
  obtain ⟨arePaths, rfl⟩ := lift_eq_ok.mp lifted
  obtain ⟨found, t, mapped, same⟩ := bind_eq_ok.mp walks
  cases same
  unfold operationObjects
  rw [membersOf_eq isObject, membersOf_eq arePaths, ← List.flatMap_id]
  exact Walked.mapM (fun entry ops s s' valid done => walkPath_walked valid done) valid mapped

def answer (component : String) : Json :=
  let schema : Json := .obj [("$ref", .str ("#/components/schemas/" ++ component))]
  .obj [("content", .obj [("application/json", .obj [("schema", schema)])])]

/-- The description of paths that are read, with the responses of each, over pets and problems. -/
def reading (paths : List (Key × Members)) : Json :=
  let object (field : String) : Json :=
    .obj [("type", .str "object"),
      ("properties", .obj [(.text field, .obj [("type", .str "string")])])]
  .obj [("openapi", .str "3.0.0"),
    ("paths", .obj (paths.map fun path =>
      (path.1, .obj [("get", .obj [("responses", .obj path.2)])]))),
    ("components", .obj [("schemas", .obj [("Pet", object "name"), ("Problem", object "reason")])])]

end TypedClient.Walk
