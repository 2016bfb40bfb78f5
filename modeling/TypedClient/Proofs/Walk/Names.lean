import TypedClient.Proofs.Name.Identifier
import TypedClient.Proofs.Walk.Records

/-! Names that a walk declares. They are made from the label of an operation, which is its id or
else its path, and start with a letter; but a label without letters leaves nothing in front of the
status of a response, which may start with a digit. -/
namespace TypedClient.Walk

open Build Builder Store Name

section Descriptions

/-- The operations of a document as they are written, with their paths. -/
def pathOperations (document : Json) : List (Key × Members) :=
  (membersOf (((membersOf document).get "paths").orElse emptyObject)).flatMap fun entry =>
    (pathObjects entry.2).map fun operation => (entry.1, operation)

/-- What the schemas of an operation are named after: its id, or else its path. -/
def label (described : Key × Members) : Json :=
  (described.2.get "operationId").orElse described.1.toJson

def responsesOf (operation : Members) : Members :=
  membersOf ((operation.get "responses").orElse emptyObject)

/-- The response has a JSON schema, which gets the given name if that is free. -/
def Declares (document : Json) (name : String) (value : Json) : Prop :=
  ∃ response schema node, (∀ s, ∃ t, follow document value s = .ok (.obj response) t) ∧
    mediaSchema (Members.get response "content") "application/json" = .ok schema ∧
    schema ≠ .null ∧ Schema.normalize schema ("#/" ++ name) = .ok node ∧ Own document node

/-- A response of an operation whose label has no letters is declared under its status, which starts
with a digit. -/
def Bare (document : Json) (status : String) : Prop :=
  ∃ described ∈ pathOperations document, ∃ text, label described = .str text ∧
    (∀ c ∈ text.toList, c.isAlpha = false) ∧
    ∃ entry ∈ responsesOf described.2, entry.1.display = status ∧
      (∃ c rest, status.toList = c :: rest ∧ c.isDigit = true) ∧ Declares document status entry.2

structure Described (document : Json) : Prop where
  labels : ∀ described ∈ pathOperations document, ∃ text, label described = .str text
  statuses : ∀ described ∈ pathOperations document, ∀ entry ∈ responsesOf described.2,
    Alphanumeric entry.1.display

end Descriptions

section Naming

variable {P : String → Prop} {env : Env} {op : Operation} {schemaId status : String}

/-- Where references lead does not depend on the session. -/
theorem followFrom_steady (document : Json) (fuel : Nat) (seen : List Key) (value : Json) :
    Steady (followFrom document fuel seen value) := by
  induction fuel generalizing seen value with
  | zero => exact .throw _
  | succ fuel ih =>
    unfold followFrom
    split
    · split
      · exact .pure _
      · refine .bind (.lift _) fun key => ?_
        split
        · exact .pure _
        · refine .bind (.lift _) fun target => ?_
          split
          · exact ih _ _
          · exact .bind (.report _ _) fun _ => .pure _
    · exact .pure _

theorem follow_named (Q : Store → Prop) (document value : Json) : Keeps Q (follow document value) :=
  fun _ holds => (follow_keeps document value).mono (fun _ same => same ▸ holds) fun _ _ _ _ => trivial

theorem collect_named (Q : Store → Prop) (env : Env) (parameters : List Json) :
    Keeps Q (collect env parameters) :=
  fun _ holds => (collect_keeps env parameters).mono (fun _ same => same ▸ holds) fun _ _ _ _ => trivial

theorem parseParameters_named (naming : Naming P) (requested : P (schemaId ++ "Params"))
    (parameters : List Json) :
    Keeps (NamedBy P) (parseParameters env op schemaId parameters) := by
  refine .bind (collect_named _ env parameters) fun collected => .bind (.lift _) fun params => ?_
  dsimp only
  split
  · exact .pure _
  · exact .bind (addSchema_named naming (.inr requested)) fun _ => .pure _

theorem parseBody_named (naming : Naming P) (requested : P (schemaId ++ "Request")) (body : Json) :
    Keeps (NamedBy P) (parseBody env op schemaId body) := by
  refine .bind (follow_named _ env.document body) fun body => .bind (.lift _) fun content => ?_
  refine .bind (.lift _) fun schema => ?_
  split
  · refine .bind (.lift _) fun content => ?_
    split
    · exact .pure _
    · refine .bind (.lift _) fun form => ?_
      exact .bind (addSchema_named naming (.inr requested)) fun _ => .pure _
  · exact .bind (addSchema_named naming (.inr requested)) fun _ => .pure _

theorem registerResponse_named (naming : Naming P) (major : Option Nat) (name : String) :
    Keeps (NamedBy P) (registerResponse op status major name) := by
  have marks : Keeps (NamedBy P) (Generator.markAsError name) := by
    intro s named
    obtain ⟨t, step, marked⟩ := markAsError_ok name s
    unfold Ends
    rw [step]
    exact ⟨marked ▸ named.marked naming name, trivial⟩
  unfold registerResponse
  split
  · exact .pure _
  split
  · exact .pure _
  split
  · exact .pure _
  · refine .bind marks fun _ => .bind .store fun store => ?_
    split <;> exact .pure _

theorem parseContent_named (naming : Naming P) {major : Option Nat} {schema : Json}
    (requested : schema ≠ .null → ∀ node,
      Schema.normalize schema ("#/" ++ (schemaId ++ status)) = .ok node → Own env.document node →
        schemaId ++ status = "" ∨ P (schemaId ++ status)) :
    Keeps (NamedBy P) (parseContent env schemaId op status major schema) := by
  unfold parseContent
  split
  · exact .pure _
  · rename_i given
    refine .bind (addSchema_named_of naming (requested given)) fun name => ?_
    exact registerResponse_named naming major name

theorem parseStream_named (naming : Naming P) (requested : P (schemaId ++ "StreamEvent"))
    (stream : Json) : Keeps (NamedBy P) (parseStream env schemaId op stream) := by
  unfold parseStream
  split
  · exact .pure _
  · exact .bind (addSchema_named naming (.inr requested)) fun _ => .pure _
  · exact .pure _

theorem parseResponse_named (naming : Naming P) {entry : Key × Json}
    (streamed : P (schemaId ++ "StreamEvent"))
    (requested : schemaId ++ entry.1.display = "" ∨ P (schemaId ++ entry.1.display) ∨
      ¬ Declares env.document (schemaId ++ entry.1.display) entry.2) :
    Keeps (NamedBy P) (parseResponse env schemaId op entry) := by
  intro s named
  refine .bind_of_ok (follow_named _ env.document entry.2 s named) fun value t followed named => ?_
  cases value with
  | obj response =>
    refine .lift_bind named fun schema read => .lift_bind named fun major _ => ?_
    have content : Keeps (NamedBy P)
        (parseContent env schemaId op entry.1.display major schema) := by
      refine parseContent_named naming fun given node normal own => ?_
      have declares : Declares env.document (schemaId ++ entry.1.display) entry.2 :=
        ⟨response, schema, node, fun u => followFrom_steady _ _ _ _ _ s t followed u, read, given,
          normal, own⟩
      rcases requested with empty | good | undeclared
      · exact .inl empty
      · exact .inr good
      · exact absurd declares undeclared
    refine Keeps.bind content (fun op => .bind (.lift _) fun stream => ?_) t named
    exact .bind (parseStream_named naming streamed stream) fun _ => .pure _
  | _ => exact .pure named trivial

theorem parseResponses_named (naming : Naming P) {operation : Members}
    (streamed : P (schemaId ++ "StreamEvent"))
    (requested : ∀ entry ∈ responsesOf operation, schemaId ++ entry.1.display = "" ∨
      P (schemaId ++ entry.1.display) ∨
        ¬ Declares env.document (schemaId ++ entry.1.display) entry.2) :
    Keeps (NamedBy P) (parseResponses env op schemaId (operation.get "responses")) := by
  intro s named
  refine .lift_bind named fun entries read => ?_
  have each : ∀ entry ∈ entries, ∀ op, Keeps (NamedBy P) (parseResponse env schemaId op entry) := by
    intro entry member op
    rw [← membersOf_eq read] at member
    exact parseResponse_named naming streamed (requested entry member)
  exact Keeps.bind (.foldlM each op) (fun op => .pure _) s named

end Naming

section Labels

variable {env : Env} {schemaId text : String}

/-- A label that is a text gives the start of names, or nothing if it has no letters. -/
theorem led_append {leads : String → Prop} (text : String) {name : String} (named : Alphanumeric name)
    (starts : StartsWithLetter name) : Led leads (identifier text ++ name) := by
  refine ⟨(alphanumeric_identifier text).append named, .inl ?_⟩
  rcases identifier_cases text with letter | ⟨_, empty⟩
  · exact letter.append name
  · rw [empty]
    simpa using starts

/-- The name of a response starts with a letter, or it is a bare status. -/
theorem led_status {document : Json} (described : Described document) {p : Key × Members}
    (member : p ∈ pathOperations document) (labelled : label p = .str text) {entry : Key × Json}
    (listed : entry ∈ responsesOf p.2) :
    identifier text ++ entry.1.display = "" ∨
      Led (Bare document) (identifier text ++ entry.1.display) ∨
        ¬ Declares document (identifier text ++ entry.1.display) entry.2 := by
  have status := described.statuses p member entry listed
  have whole := (alphanumeric_identifier text).append status
  rcases identifier_cases text with letter | ⟨letterless, empty⟩
  · exact .inr (.inl ⟨whole, .inl (letter.append _)⟩)
  · rw [empty, String.empty_append]
    cases shape : entry.1.display.toList with
    | nil => exact .inl (String.toList_eq_nil_iff.mp shape)
    | cons c rest =>
      right
      have part : c.isAlphanum = true := status c (by simp [shape])
      rcases Bool.or_eq_true_iff.mp part with alpha | digit
      · exact .inl ⟨status, .inl ⟨c, rest, shape, alpha⟩⟩
      · refine or_iff_not_imp_right.mpr fun declares => ⟨status, .inr ⟨entry.1.display, ?_, ?_⟩⟩
        · exact ⟨p, member, text, labelled, letterless, entry, listed, rfl, ⟨c, rest, shape, digit⟩,
            not_not.mp declares⟩
        · exact List.prefix_rfl

theorem capitalize_of_label {path made : String} {operation : Members}
    (labelled : label (.text path, operation) = .str text)
    (camelized : camelizeValue ((operation.get "operationId").orElse (.str path)) = .ok made) :
    capitalize made = identifier text := by
  have labelled : (operation.get "operationId").orElse (.str path) = .str text := labelled
  rw [labelled] at camelized
  cases camelized
  rfl

theorem parseOperation_named (described : Described env.document) {path : Key} {operation : Members}
    (member : (path, operation) ∈ pathOperations env.document) (method : String) (shared : Json) :
    Keeps (NamedBy (Led (Bare env.document)))
      (parseOperation env path method operation shared) := by
  have naming := led_naming (Bare env.document)
  obtain ⟨text, labelled⟩ := described.labels _ member
  cases path with
  | text path =>
    intro s named
    change Ends _ _ (Build.lift _ >>= _) s
    refine .lift_bind named fun id _ => .lift_bind named fun tags _ => ?_
    refine .lift_bind named fun schemaId made => .lift_bind named fun outer _ => ?_
    refine .lift_bind named fun own _ => ?_
    rw [capitalize_of_label labelled made]
    refine Keeps.bind (parseParameters_named naming ?_ _) (fun op => ?_) s named
    · exact led_append text (by decide) ⟨'P', "arams".toList, rfl, rfl⟩
    refine .bind (parseBody_named naming ?_ _) fun op => ?_
    · exact led_append text (by decide) ⟨'R', "equest".toList, rfl, rfl⟩
    refine .bind (parseResponses_named naming ?_ ?_) fun op => ?_
    · exact led_append text (by decide) ⟨'S', "treamEvent".toList, rfl, rfl⟩
    · exact fun entry listed => led_status described member labelled listed
    · exact .bind (.report _ _) fun _ => .pure _
  | _ => exact .throw _

theorem mem_pathOperations {document : Json} {entry : Key × Json} {operation : Members}
    {method : String}
    (listed : entry ∈ membersOf (((membersOf document).get "paths").orElse emptyObject))
    (known : method ∈ methodNames) (found : (membersOf entry.2).get method = .obj operation) :
    (entry.1, operation) ∈ pathOperations document := by
  refine List.mem_flatMap.mpr ⟨entry, listed, List.mem_map.mpr ⟨operation, ?_, rfl⟩⟩
  exact List.mem_flatMap.mpr ⟨method, known, by simp [found]⟩

theorem walk_named (described : Described env.document) :
    Keeps (NamedBy (Led (Bare env.document))) (walk env) := by
  intro s named
  refine .lift_bind named fun document isObject => .lift_bind named fun paths arePaths => ?_
  have each : ∀ entry ∈ paths,
      Keeps (NamedBy (Led (Bare env.document))) (walkPath env entry.1 entry.2) := by
    rintro ⟨path, item⟩ member
    rw [← membersOf_eq arePaths, ← membersOf_eq isObject] at member
    cases item with
    | obj members =>
      refine .bind (.mapM _ fun method known => ?_) fun _ => .pure _
      cases found : Members.get members method with
      | obj operation =>
        have listed := mem_pathOperations member known found
        exact .bind (parseOperation_named described listed method _) fun _ => .pure _
      | _ => exact .pure _
    | _ => exact .pure _
  exact Keeps.bind (.mapM _ each) (fun _ => .pure _) s named

end Labels

section Declaring

variable {env : Env} {op op' : Operation} {schemaId : String} {s t : Session}

/-- A number at the end of a name leaves the name in front. -/
theorem prefix_uniqueName (store : Store) (name : String) :
    name.toList <+: (store.uniqueName name).toList := by
  have front : name.toList <+: (if name = "" then "Schema" else name).toList := by
    split
    · simp_all
    · exact List.prefix_rfl
  unfold uniqueName
  generalize (if name = "" then "Schema" else name) = base at front
  dsimp only
  split
  · cases found : ((List.range' 2 (store.declarations.length + 1)).map
        fun i : Nat => s!"{base}{i}").find? fun c => !store.contains c with
    | none => exact front
    | some candidate =>
      obtain ⟨i, _, rfl⟩ := List.mem_map.mp (List.mem_of_find?_eq_some found)
      refine front.trans ?_
      rw [Option.getD_some, String.toList_append]
      exact List.prefix_append _ _
  · exact front

/-- A reference that has a declaration leads somewhere. -/
theorem resolve_of_refName_some {benv : Builder.Env} {expr : Typer} {pointer : Json} {name : String}
    (valid : Valid benv.document s.store)
    (done : refName benv expr pointer s = .ok (some name) t) :
    ∃ target, Pointer.resolve pointer benv.document = .ok (some target) := by
  unfold refName at done
  obtain ⟨key, u, lifted, rest⟩ := bind_eq_ok.mp done
  obtain ⟨keyed, rfl⟩ := lift_eq_ok.mp lifted
  obtain ⟨_, _, read, found⟩ := bind_eq_ok.mp rest
  cases read
  cases known : known? u.store key with
  | some other =>
    cases key with
    | text text =>
      rw [eq_str_of_toKey keyed]
      exact valid.resolves _ (mem_of_lookup known)
    | _ => cases known
  | none =>
    rw [known] at found
    obtain ⟨target, _, lifted, ended⟩ := bind_eq_ok.mp found
    obtain ⟨resolved, rfl⟩ := lift_eq_ok.mp lifted
    cases target with
    | none => cases ended
    | some target => exact ⟨target, resolved⟩

/-- A node of its own is declared under the name that is asked for, with a number if need be. -/
theorem prefix_add {benv : Builder.Env} {name declared : String} {node : Schema.Node}
    {preferStruct : Bool} (valid : Valid benv.document s.store) (own : Builder.Own benv.document node)
    (done : add benv name node preferStruct s = .ok declared t) :
    name.toList <+: declared.toList := by
  have yields : Yields (fun _ _ => True) (fun declared _ => name.toList <+: declared.toList)
      (add benv name node preferStruct) s := by
    unfold add
    simp only []
    split
    · rename_i pointer reference nullable
      intro declared t done
      obtain ⟨target, u, found, rest⟩ := bind_eq_ok.mp done
      cases target with
      | some target =>
        obtain ⟨_, resolved⟩ := resolve_of_refName_some valid found
        cases resolved.symm.trans (own pointer reference nullable)
      | none =>
        cases rest
        exact ⟨trivial, prefix_uniqueName _ name⟩
    · intro declared t done
      obtain ⟨_, _, same, rest⟩ := bind_eq_ok.mp done
      cases same
      obtain ⟨_, _, same, rest⟩ := bind_eq_ok.mp rest
      cases same
      obtain ⟨_, _, _, same⟩ := bind_eq_ok.mp rest
      cases same
      exact ⟨trivial, prefix_uniqueName _ name⟩
  exact (yields declared t done).2

structure Widens (document : Json) (before after : Store) : Prop where
  valid : Valid document after
  names : before.names ⊆ after.names

theorem Widens.chain (document : Json) : Chain (Valid document) (Widens document) where
  refl valid := ⟨valid, fun _ => id⟩
  trans first second := ⟨second.valid, fun _ member => second.names (first.names member)⟩
  valid widens := widens.valid

theorem Records.widens {document : Json} {x y : Operation × Store} {labels : List String}
    (run : Records document x labels y) (valid : Valid document x.2) :
    Widens document x.2 y.2 := by
  refine run.invariant (P := fun y => Widens document x.2 y.2) ?_ ⟨valid, fun _ => id⟩
  intro y _ z step widens
  exact ⟨step.valid widens.valid,
    fun _ member => (step.evolves widens.valid).names.subset (widens.names member)⟩

theorem Walked.widens {document : Json} {operations : List Members} {before after : Store}
    {ops : List Operation} (walked : Walked document operations before ops after)
    (valid : Valid document before) : Widens document before after := by
  induction walked with
  | nil => exact ⟨valid, fun _ => id⟩
  | cons parsed _ ih =>
    obtain ⟨_, _, _, _, run, _⟩ := parsed
    have first := run.widens valid
    exact (Widens.chain document).trans first (ih first.valid)

def Heads (text : String) (store : Store) : Prop :=
  ∃ name ∈ store.names, text.toList <+: name.toList

theorem Heads.widens {document : Json} {text : String} {before after : Store}
    (heads : Heads text before) (widens : Widens document before after) : Heads text after := by
  obtain ⟨name, member, front⟩ := heads
  exact ⟨name, widens.names member, front⟩

theorem registerResponse_names {status name : String} {major : Option Nat} (sound : s.store.Sound)
    (done : registerResponse op status major name s = .ok op' t) : s.store.names ⊆ t.store.names := by
  unfold registerResponse at done
  split at done
  · cases done
    exact fun _ => id
  split at done
  · cases done
    exact fun _ => id
  split at done
  · cases done
    exact fun _ => id
  · rw [(registerError_eq_ok done).1]
    exact (marked_evolves sound name).names.subset

theorem parseContent_heads {status : String} {major : Option Nat} {schema : Json}
    {node : Schema.Node} (valid : Valid env.document s.store) (given : schema ≠ .null)
    (normal : Schema.normalize schema ("#/" ++ (schemaId ++ status)) = .ok node)
    (own : Builder.Own env.document node)
    (done : parseContent env schemaId op status major schema s = .ok op' t) :
    Heads (schemaId ++ status) t.store := by
  unfold parseContent at done
  split at done
  · exact absurd rfl given
  · obtain ⟨declared, u, added, registered⟩ := bind_eq_ok.mp done
    have adds := addSchema_adds valid added
    obtain ⟨_, _, lifted, added⟩ := bind_eq_ok.mp added
    obtain ⟨again, rfl⟩ := lift_eq_ok.mp lifted
    cases normal.symm.trans again
    have kept := registerResponse_names adds.settles.valid.sound registered
    refine ⟨declared, kept adds.declared, ?_⟩
    exact prefix_add valid own added

/-- A response that declares its schema is declared under the name that it asks for. -/
theorem parseResponse_heads {entry : Key × Json} (valid : Valid env.document s.store)
    (declares : Declares env.document (schemaId ++ entry.1.display) entry.2)
    (done : parseResponse env schemaId op entry s = .ok op' t) :
    Heads (schemaId ++ entry.1.display) t.store := by
  obtain ⟨response, schema, node, followed, json, given, normal, own⟩ := declares
  unfold parseResponse at done
  obtain ⟨value, u, chased, rest⟩ := bind_eq_ok.mp done
  obtain ⟨_, led⟩ := followed s
  cases led.symm.trans chased
  have kept := ((follow_keeps env.document entry.2).of_ok chased).1
  rw [← kept] at valid
  obtain ⟨_, _, lifted, read⟩ := bind_eq_ok.mp rest
  obtain ⟨again, rfl⟩ := lift_eq_ok.mp lifted
  cases json.symm.trans again
  obtain ⟨major, _, lifted, registered⟩ := bind_eq_ok.mp read
  obtain ⟨digit, rfl⟩ := lift_eq_ok.mp lifted
  obtain ⟨middle, v, parsed, streamed⟩ := bind_eq_ok.mp registered
  have heads := parseContent_heads valid given normal own parsed
  obtain ⟨_, run, _⟩ := parseContent_records valid digit parsed
  obtain ⟨stream, _, lifted, noted⟩ := bind_eq_ok.mp streamed
  obtain ⟨_, rfl⟩ := lift_eq_ok.mp lifted
  obtain ⟨last, w, parsed, same⟩ := bind_eq_ok.mp noted
  cases same
  exact heads.widens ((parseStream_records (run.valid valid) parsed).widens (run.valid valid))

theorem parseResponses_heads {operation : Members} {entry : Key × Json}
    (valid : Valid env.document s.store) (listed : entry ∈ responsesOf operation)
    (declares : Declares env.document (schemaId ++ entry.1.display) entry.2)
    (done : parseResponses env op schemaId (operation.get "responses") s = .ok op' t) :
    Heads (schemaId ++ entry.1.display) t.store := by
  unfold parseResponses at done
  obtain ⟨entries, _, lifted, rest⟩ := bind_eq_ok.mp done
  obtain ⟨read, rfl⟩ := lift_eq_ok.mp lifted
  obtain ⟨recorded, u, folded, same⟩ := bind_eq_ok.mp rest
  cases same
  rw [responsesOf, membersOf_eq read] at listed
  have step : ∀ entry ∈ entries, ∀ op (s : Session), Valid env.document s.store →
      Yields (Widens env.document) (fun _ _ => True) (parseResponse env schemaId op entry) s := by
    intro entry _ op s valid op' t done
    obtain ⟨_, run, _⟩ := parseResponse_records valid done
    exact ⟨run.widens valid, trivial⟩
  obtain ⟨u, v, _, _, valid, parsed, widens⟩ :=
    Yields.exists_of_foldlM (Widens.chain env.document) step valid folded listed
  exact (parseResponse_heads valid declares parsed).widens widens

theorem parseOperation_heads {path : Key} {method text : String} {operation : Members}
    {shared : Json} {entry : Key × Json} (valid : Valid env.document s.store)
    (labelled : label (path, operation) = .str text) (listed : entry ∈ responsesOf operation)
    (declares : Declares env.document (identifier text ++ entry.1.display) entry.2)
    (done : parseOperation env path method operation shared s = .ok op t) :
    Heads (identifier text ++ entry.1.display) t.store := by
  cases path with
  | text path =>
    unfold parseOperation at done
    obtain ⟨_, _, same, named⟩ := bind_eq_ok.mp done
    cases same
    obtain ⟨id, _, lifted, tagged⟩ := bind_eq_ok.mp named
    obtain ⟨_, rfl⟩ := lift_eq_ok.mp lifted
    obtain ⟨tags, _, lifted, shown⟩ := bind_eq_ok.mp tagged
    obtain ⟨_, rfl⟩ := lift_eq_ok.mp lifted
    obtain ⟨schemaId, _, lifted, inherited⟩ := bind_eq_ok.mp shown
    obtain ⟨made, rfl⟩ := lift_eq_ok.mp lifted
    obtain ⟨outer, _, lifted, owned⟩ := bind_eq_ok.mp inherited
    obtain ⟨_, rfl⟩ := lift_eq_ok.mp lifted
    obtain ⟨own, _, lifted, parsed⟩ := bind_eq_ok.mp owned
    obtain ⟨_, rfl⟩ := lift_eq_ok.mp lifted
    rw [capitalize_of_label labelled made] at parsed
    obtain ⟨first, u, parameters, rest⟩ := bind_eq_ok.mp parsed
    have params := parseParameters_records valid parameters
    obtain ⟨second, v, body, others⟩ := bind_eq_ok.mp rest
    have payload := parseBody_records (params.valid valid) body
    obtain ⟨third, w, responses, reports⟩ := bind_eq_ok.mp others
    obtain ⟨_, _, reported, same⟩ := bind_eq_ok.mp reports
    cases reported
    cases same
    have heads := parseResponses_heads (payload.valid (params.valid valid)) listed declares responses
    exact heads
  | _ =>
    obtain ⟨_, _, failed, _⟩ := bind_eq_ok.mp done
    cases failed

theorem walkPath_heads {path : Key} {text : String} {item : Json} {operation : Members}
    {ops : List Operation} {entry : Key × Json} (valid : Valid env.document s.store)
    (written : operation ∈ pathObjects item) (labelled : label (path, operation) = .str text)
    (listed : entry ∈ responsesOf operation)
    (declares : Declares env.document (identifier text ++ entry.1.display) entry.2)
    (done : walkPath env path item s = .ok ops t) :
    Heads (identifier text ++ entry.1.display) t.store := by
  obtain ⟨method, known, found⟩ := List.mem_flatMap.mp written
  cases item with
  | obj members =>
    have found : Members.get members method = .obj operation := by
      have members_eq : membersOf (.obj members) = members := rfl
      rw [members_eq] at found
      split at found <;> simp_all
    obtain ⟨_, _, mapped, same⟩ := bind_eq_ok.mp done
    cases same
    obtain ⟨u, v, _, valid, parsed, widens⟩ :=
      Yields.exists_of_mapM (Widens.chain env.document) (by
        intro method _ s valid
        dsimp only
        split
        · intro _ t done
          obtain ⟨op, _, parsed, same⟩ := bind_eq_ok.mp done
          cases same
          obtain ⟨_, _, _, _, run, _⟩ := parseOperation_parsed valid parsed
          exact ⟨run.widens valid, trivial⟩
        · exact .pure ((Widens.chain _).refl valid) trivial) valid mapped known
    rw [found] at parsed
    obtain ⟨op, _, parsed, same⟩ := bind_eq_ok.mp parsed
    cases same
    exact (parseOperation_heads valid labelled listed declares parsed).widens widens
  | _ => simp [membersOf, Json.members, Except.toOption, Members.get, Members.get?] at found

/-- A bare status stands in front of the name of a declaration. -/
theorem walk_heads {ops : List Operation} {status : String} (valid : Valid env.document s.store)
    (bare : Bare env.document status) (done : walk env s = .ok ops t) : Heads status t.store := by
  obtain ⟨⟨path, operation⟩, member, text, labelled, letterless, entry, listed, rfl, _, declares⟩ :=
    bare
  have empty := identifier_of_letterless letterless
  unfold walk at done
  obtain ⟨members, _, lifted, rest⟩ := bind_eq_ok.mp done
  obtain ⟨isObject, rfl⟩ := lift_eq_ok.mp lifted
  obtain ⟨paths, _, lifted, walks⟩ := bind_eq_ok.mp rest
  obtain ⟨arePaths, rfl⟩ := lift_eq_ok.mp lifted
  obtain ⟨found, _, mapped, same⟩ := bind_eq_ok.mp walks
  cases same
  obtain ⟨⟨key, item⟩, known, written⟩ := List.mem_flatMap.mp member
  obtain ⟨_, written, same⟩ := List.mem_map.mp written
  cases same
  rw [membersOf_eq isObject, membersOf_eq arePaths] at known
  have step : ∀ entry ∈ paths, ∀ s : Session, Valid env.document s.store →
      Yields (Widens env.document) (fun _ _ => True) (walkPath env entry.1 entry.2) s := by
    intro entry _ s valid ops t done
    exact ⟨(walkPath_walked valid done).widens valid, trivial⟩
  obtain ⟨u, v, _, valid, walked, widens⟩ :=
    Yields.exists_of_mapM (Widens.chain env.document) step valid mapped known
  have heads := walkPath_heads valid written labelled listed
    (by rwa [empty, String.empty_append]) walked
  rw [empty, String.empty_append] at heads
  exact heads.widens widens

end Declaring

/-- The names that a walk declares consist of letters and digits and start with a letter, unless a
bare status starts them. So where a walk succeeds they are identifiers exactly if no status is
bare. -/
theorem walk_names_identifiers (env : Env) (described : Described env.document) :
    (∀ name ∈ ((walk env).reached {}).store.names, Led (Bare env.document) name) ∧
      ∀ operations final, walk env {} = .ok operations final →
        ((∀ name ∈ final.store.names, Identifier name) ↔ ∀ status, ¬ Bare env.document status) := by
  have fresh : NamedBy (Led (Bare env.document)) ({} : Session).store := by
    simp [NamedBy, Store.names]
  have led := walk_named described {} fresh
  refine ⟨led.reached, fun operations final done => ⟨fun identifiers status bare => ?_, ?_⟩⟩
  · obtain ⟨name, member, front⟩ := walk_heads (valid_empty env.document) bare done
    obtain ⟨_, c, rest, shape, alpha⟩ := identifiers name member
    obtain ⟨_, _, _, _, _, _, _, _, ⟨d, more, digits, digit⟩, _⟩ := bare
    rw [shape, digits] at front
    obtain ⟨rfl, _⟩ := List.cons_prefix_cons.mp front
    rw [isDigit_of_isAlpha alpha] at digit
    cases digit
  · intro lettered name member
    obtain ⟨whole, letter | ⟨status, bare, _⟩⟩ := (led.of_ok done).1 name member
    · exact ⟨whole, letter⟩
    · exact absurd bare (lettered status)

/-- Two responses that have schemas of their own; the path of the first has no letters. -/
def rootPath : Json :=
  let schema : Json := .obj [("type", .str "object"),
    ("properties", .obj [("version", .obj [("type", .str "string")])])]
  let response : Json := .obj [("content", .obj [("application/json", .obj [("schema", schema)])])]
  reading [("/", [("200", response)]), ("/pets", [("404", response)])]

theorem described_rootPath : Described rootPath := by
  have written : (pathOperations rootPath).map
      (fun p => (label p, (responsesOf p.2).map (·.1.display))) =
        [(.str "/", ["200"]), (.str "/pets", ["404"])] := rfl
  have each (p) (member : p ∈ pathOperations rootPath) : ∃ text, label p = .str text ∧
      ∃ status, (responsesOf p.2).map (·.1.display) = [status] ∧ Alphanumeric status := by
    have listed := List.mem_map_of_mem
      (f := fun p => (label p, (responsesOf p.2).map (·.1.display))) member
    rw [written] at listed
    rcases List.mem_pair.mp listed with same | same
    · exact ⟨_, congrArg Prod.fst same, "200", congrArg Prod.snd same, by decide⟩
    · exact ⟨_, congrArg Prod.fst same, "404", congrArg Prod.snd same, by decide⟩
  refine ⟨fun p member => ?_, fun p member entry listed => ?_⟩
  · obtain ⟨text, labelled, _⟩ := each p member
    exact ⟨text, labelled⟩
  · obtain ⟨_, _, status, statuses, whole⟩ := each p member
    have found := List.mem_map_of_mem (f := fun e : Key × Json => e.1.display) listed
    rw [statuses, List.mem_singleton] at found
    exact found ▸ whole

theorem walk_names_identifiers_rootPath : Described rootPath ∧
    (∀ name ∈ ((walk { document := rootPath }).reached {}).store.names, Led (Bare rootPath) name) ∧
    ∃ operations final, walk { document := rootPath } {} = .ok operations final ∧
      final.store.names = ["200", "Pets404", "Pets404Body"] ∧
      ((∀ name ∈ final.store.names, Identifier name) ↔ ∀ status, ¬ Bare rootPath status) := by
  have passed : Build.succeeds (walk { document := rootPath }) {} fun _ final =>
      final.store.names = ["200", "Pets404", "Pets404Body"] := by
    decide +kernel
  obtain ⟨operations, final, done, names⟩ := Build.exists_of_succeeds passed
  obtain ⟨led, identifiers⟩ := walk_names_identifiers { document := rootPath } described_rootPath
  exact ⟨described_rootPath, led, operations, final, done, of_decide_eq_true names,
    identifiers operations final done⟩

/-- A declaration is named after its status alone, which is no identifier. -/
theorem walk_declares_bare_status : Described rootPath ∧
    ∃ operations final, walk { document := rootPath } {} = .ok operations final ∧
      "200" ∈ final.store.names ∧ ¬ Identifier "200" := by
  have passed : Build.succeeds (walk { document := rootPath }) {} fun _ final =>
      "200" ∈ final.store.names := by
    decide +kernel
  obtain ⟨operations, final, done, declared⟩ := Build.exists_of_succeeds passed
  refine ⟨described_rootPath, operations, final, done, of_decide_eq_true declared, ?_⟩
  rintro ⟨_, c, rest, shape, alpha⟩
  cases shape
  cases alpha

end TypedClient.Walk
