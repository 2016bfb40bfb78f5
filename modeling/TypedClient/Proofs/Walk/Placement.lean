import TypedClient.Proofs.Schema.Keys
import TypedClient.Proofs.Walk.Frames
import TypedClient.Proofs.Walk.Names
import TypedClient.Proofs.Walk.References

/-! Where operations are written. Each operation of a walk has a path and a method that no other one
has, and the object that stands there in the document tells its id and whether it streams. -/
namespace TypedClient

/-- In members without repeated keys every entry is found. -/
theorem Members.get_of_mem {members : Members} {name : String} {value : Json}
    (apart : (members.map (·.1)).Pairwise fun a b => a.same b = false)
    (member : (.text name, value) ∈ members) : members.get name = value := by
  suffices members.get? name = some value by rw [get, this, Option.getD_some]
  induction members with
  | nil => cases member
  | cons entry rest ih =>
    obtain ⟨others, apart⟩ := List.pairwise_cons.mp apart
    rw [get?_cons]
    rcases List.mem_cons.mp member with rfl | later
    · exact if_pos rfl
    · have other : entry.1 ≠ name := by
        intro same
        have repeated : entry.1.same name = false := others _ (List.mem_map_of_mem later)
        exact absurd (Key.same_text.mpr same) (Bool.eq_false_iff.mp repeated)
      rw [if_neg other]
      exact ih apart later

namespace Walk

open Build

section Streams

def SendsEvents (document response : Json) : Prop :=
  ∃ object schema, Denotes document response object ∧
    mediaSchema (object.get "content") "text/event-stream" = .ok schema ∧ schema ≠ .null

def Streams (document : Json) (operation : Members) : Prop :=
  ∃ entry ∈ responsesOf operation, SendsEvents document entry.2

variable {env : Env} {op : Operation} {schemaId : String}

theorem frame_streamSchema : Frame (·.streamSchema) :=
  ⟨fun _ _ _ => rfl, fun _ _ _ _ _ _ _ _ => rfl⟩

theorem parseStream_streams (stream : Json) :
    Returns (·.streamSchema.isSome = true ↔ op.streamSchema.isSome = true ∨ stream ≠ .null)
      (parseStream env schemaId op stream) := by
  unfold parseStream
  split
  · next absent => exact .pure (by simp [absent])
  · next given => exact .after fun name => .pure (by simpa using .inr given)
  · next name known => exact .pure (by simp [known])

theorem parseResponse_streams (entry : Key × Json) :
    Returns (·.streamSchema.isSome = true ↔
      op.streamSchema.isSome = true ∨ SendsEvents env.document entry.2)
        (parseResponse env schemaId op entry) := by
  intro s op' t done
  unfold parseResponse at done
  obtain ⟨followed, u, chased, rest⟩ := bind_eq_ok.mp done
  split at rest
  · next object =>
    have denotes := (follow_eq_obj_iff chased).mp rfl
    obtain ⟨schema, _, _, rest⟩ := bind_eq_ok.mp rest
    obtain ⟨major, _, _, rest⟩ := bind_eq_ok.mp rest
    obtain ⟨middle, _, added, rest⟩ := bind_eq_ok.mp rest
    obtain ⟨stream, _, lifted, rest⟩ := bind_eq_ok.mp rest
    obtain ⟨read, -⟩ := lift_eq_ok.mp lifted
    obtain ⟨last, _, parsed, same⟩ := bind_eq_ok.mp rest
    cases same
    have kept : middle.streamSchema = op.streamSchema :=
      parseContent_frame frame_streamSchema rfl _ _ _ added
    have sends : stream ≠ .null ↔ SendsEvents env.document entry.2 := by
      constructor
      · exact fun given => ⟨object, stream, denotes, read, given⟩
      · rintro ⟨other, schema, denotes', read', given⟩
        cases denotes.unique denotes'
        cases read.symm.trans read'
        exact given
    have grown : last.streamSchema.isSome = true ↔ _ := parseStream_streams stream _ _ _ parsed
    rw [noteEmpty_frame frame_streamSchema, grown, kept, sends]
  · next other =>
    cases rest
    have silent : ¬ SendsEvents env.document entry.2 := by
      rintro ⟨object, schema, denotes, -⟩
      exact other object ((follow_eq_obj_iff chased).mpr denotes)
    simp [silent]

/-- An operation gets a stream if one of its responses sends events. -/
theorem parseResponses_streams {operation : Members} (start : op.streamSchema = none) :
    Returns (·.streamSchema.isSome = true ↔ Streams env.document operation)
      (parseResponses env op schemaId (operation.get "responses")) := by
  intro s op' t done
  unfold parseResponses at done
  obtain ⟨entries, _, lifted, rest⟩ := bind_eq_ok.mp done
  obtain ⟨read, -⟩ := lift_eq_ok.mp lifted
  obtain ⟨recorded, _, folded, same⟩ := bind_eq_ok.mp rest
  cases same
  rw [settled_frame frame_streamSchema, Streams, responsesOf, membersOf_eq read]
  refine foldlM_along (P := fun done op => op.streamSchema.isSome = true ↔
    ∃ entry ∈ done, SendsEvents env.document entry.2) ?_ (by simp [start]) folded
  intro done entry before after s t known step
  have grown : after.streamSchema.isSome = true ↔ _ := parseResponse_streams entry _ _ _ step
  rw [grown, known]
  simp [or_and_right, exists_or]

end Streams

section Places

structure Describes (document : Json) (operation : Members) (op : Operation) : Prop where
  id : operationName (operation.get "operationId") op.method op.path = .ok op.id
  streams : op.streamSchema.isSome = true ↔ Streams document operation

variable {env : Env} {op : Operation}

theorem parseOperation_describes {path : Key} {method : String} {operation : Members}
    {shared : Json} :
    Returns (fun op => path = .text op.path ∧ op.method = method ∧
      Describes env.document operation op) (parseOperation env path method operation shared) := by
  intro s op t done
  unfold parseOperation at done
  obtain ⟨text, _, keyed, rest⟩ := bind_eq_ok.mp done
  obtain rfl : path = .text text := by
    cases path <;> cases keyed
    rfl
  obtain ⟨id, _, lifted, rest⟩ := bind_eq_ok.mp rest
  obtain ⟨named, -⟩ := lift_eq_ok.mp lifted
  obtain ⟨tags, _, _, rest⟩ := bind_eq_ok.mp rest
  obtain ⟨schemaId, _, _, rest⟩ := bind_eq_ok.mp rest
  obtain ⟨outer, _, _, rest⟩ := bind_eq_ok.mp rest
  obtain ⟨own, _, _, rest⟩ := bind_eq_ok.mp rest
  obtain ⟨first, _, parameters, rest⟩ := bind_eq_ok.mp rest
  obtain ⟨second, _, body, rest⟩ := bind_eq_ok.mp rest
  obtain ⟨third, _, responses, rest⟩ := bind_eq_ok.mp rest
  obtain ⟨_, _, _, same⟩ := bind_eq_ok.mp rest
  cases same
  let heading (op : Operation) := (op.id, op.method, op.path)
  have frame : Frame heading := ⟨fun _ _ _ => rfl, fun _ _ _ _ _ _ _ _ => rfl⟩
  have begun : heading first = (id, method, text) :=
    parseParameters_frame (fun _ _ _ _ _ => rfl) rfl _ _ _ parameters
  have going : heading second = (id, method, text) := parseBody_frame frame begun _ _ _ body
  have kept : heading op = (id, method, text) :=
    parseResponses_frame frame (fun _ _ => rfl) going _ _ _ responses
  have quiet : second.streamSchema = none :=
    parseBody_frame frame_streamSchema
      (parseParameters_frame (f := (·.streamSchema)) (fun _ _ _ _ _ => rfl) rfl _ _ _ parameters)
      _ _ _ body
  obtain ⟨rfl, rfl, rfl⟩ : op.id = id ∧ op.method = method ∧ op.path = text := by
    simpa [heading] using kept
  exact ⟨rfl, rfl, named, parseResponses_streams quiet _ _ _ responses⟩

theorem methods_sublist {methods : List String} {options : List (Option Operation)}
    (each : List.Forall₂ (fun method option => ∀ op ∈ option, op.method = method) methods options) :
    ((options.filterMap id).map (·.method)).Sublist methods := by
  induction each with
  | nil => exact List.nil_sublist _
  | @cons method option _ _ own _ ih =>
    cases option with
    | none => exact ih.cons method
    | some op =>
      obtain rfl := own op rfl
      exact ih.cons_cons op.method

/-- The operations of a path have some of the methods, each once. -/
theorem walkPath_describes {path : Key} {item : Json} :
    Returns (fun ops => (ops.map (·.method)).Sublist methodNames ∧ ∀ op ∈ ops,
      path = .text op.path ∧ Describes env.document (membersOf ((membersOf item).get op.method)) op)
        (walkPath env path item) := by
  unfold walkPath
  split
  · next members =>
    refine .bind (.mapM (Q := fun (method : String) option => ∀ op ∈ option,
      op.method = method ∧ path = .text op.path ∧
        Describes env.document (membersOf (Members.get members method)) op) ?_) ?_
    · intro method _
      dsimp only
      split
      · next operation found =>
        refine .bind parseOperation_describes fun op described => .pure ?_
        obtain ⟨keyed, own, describes⟩ := described
        rintro _ ⟨⟩
        rw [found]
        exact ⟨own, keyed, describes⟩
      · exact .pure nofun
    · intro options each
      refine .pure ⟨?_, fun op member => ?_⟩
      · exact methods_sublist (each.imp fun method option own op given => (own op given).1)
      · obtain ⟨option, listed, same⟩ := List.mem_filterMap.mp member
        obtain ⟨method, _, own⟩ := exists_of_forall₂ each listed
        obtain ⟨rfl, keyed, describes⟩ := own op same
        exact ⟨keyed, describes⟩
  · exact .pure ⟨List.nil_sublist _, nofun⟩

def pathsOf (document : Json) : Members :=
  membersOf (((membersOf document).get "paths").orElse emptyObject)

/-- The object that describes an operation in a document. -/
def written (document : Json) (op : Operation) : Members :=
  membersOf ((membersOf ((pathsOf document).get op.path)).get op.method)

theorem uniqueKeys_membersOf {value : Json} (unique : value.uniqueKeys = true) :
    (Json.obj (membersOf value)).uniqueKeys = true := by
  cases value with
  | obj members => exact unique
  | _ => rfl

theorem pathsOf_apart {document : Json} (unique : document.uniqueKeys = true) :
    ((pathsOf document).map (·.1)).Pairwise fun a b => a.same b = false := by
  have given : ((membersOf document).get "paths").uniqueKeys = true := by
    unfold Members.get
    cases found : (membersOf document).get? "paths" with
    | none => rfl
    | some value => exact Json.uniqueKeys_get? (uniqueKeys_membersOf unique) found
  have either : (((membersOf document).get "paths").orElse emptyObject).uniqueKeys = true := by
    unfold Json.orElse
    split
    · exact given
    · rfl
  exact (Json.uniqueKeys_obj.mp (uniqueKeys_membersOf either)).1

/-- Operations of paths that are apart are apart themselves. -/
theorem places_nodup {paths : Members} {results : List (List Operation)}
    (apart : (paths.map (·.1)).Pairwise fun a b => a.same b = false)
    (each : List.Forall₂ (fun entry ops => (ops.map (·.method)).Sublist methodNames ∧
      ∀ op ∈ ops, entry.1 = .text op.path) paths results) :
    (results.flatten.map fun op => (op.path, op.method)).Nodup := by
  induction each with
  | nil => exact List.nodup_nil
  | @cons entry ops _ rest own others ih =>
    obtain ⟨first, later⟩ := List.pairwise_cons.mp apart
    rw [List.flatten_cons, List.map_append]
    refine List.nodup_append.mpr ⟨?_, ih later, ?_⟩
    · have methods : (ops.map (·.method)).Nodup := own.1.nodup (by decide)
      refine List.Nodup.of_map Prod.snd ?_
      rwa [List.map_map]
    · -- operations of different paths, which the keys of the paths tell apart
      rintro _ member _ further rfl
      obtain ⟨op, listed, rfl⟩ := List.mem_map.mp member
      obtain ⟨other, flat, same⟩ := List.mem_map.mp further
      obtain ⟨group, grouped, inside⟩ := List.mem_flatten.mp flat
      obtain ⟨entry', listed', own'⟩ := exists_of_forall₂ others grouped
      have path : other.path = op.path := congrArg Prod.fst same
      have repeated : entry.1.same entry'.1 = false := first _ (List.mem_map_of_mem listed')
      rw [own.2 op listed, own'.2 other inside, path] at repeated
      exact absurd (Key.same_text.mpr rfl) (Bool.eq_false_iff.mp repeated)

/-- Operations of a walk are written in places of their own. -/
theorem walk_placed (unique : env.document.uniqueKeys = true) :
    Returns (fun ops => (ops.map fun op => (op.path, op.method)).Nodup ∧ ∀ op ∈ ops,
      op.method ∈ methodNames ∧ Describes env.document (written env.document op) op)
        (walk env) := by
  intro s ops t done
  unfold walk at done
  obtain ⟨members, _, lifted, rest⟩ := bind_eq_ok.mp done
  obtain ⟨isObject, rfl⟩ := lift_eq_ok.mp lifted
  obtain ⟨paths, _, lifted, walks⟩ := bind_eq_ok.mp rest
  obtain ⟨arePaths, rfl⟩ := lift_eq_ok.mp lifted
  obtain ⟨results, _, mapped, same⟩ := bind_eq_ok.mp walks
  cases same
  have known : pathsOf env.document = paths := by
    rw [pathsOf, membersOf_eq isObject, membersOf_eq arePaths]
  have apart := known ▸ pathsOf_apart unique
  have each := Returns.mapM (fun entry _ => walkPath_describes) _ _ _ mapped
  constructor
  · refine places_nodup apart (each.imp fun entry ops own => ?_)
    exact ⟨own.1, fun op listed => (own.2 op listed).1⟩
  · intro op flat
    obtain ⟨group, grouped, inside⟩ := List.mem_flatten.mp flat
    obtain ⟨entry, listed, sublist, own⟩ := exists_of_forall₂ each grouped
    obtain ⟨keyed, describes⟩ := own op inside
    have found : (pathsOf env.document).get op.path = entry.2 := by
      rw [known]
      exact Members.get_of_mem apart (keyed ▸ listed)
    rw [written, found]
    exact ⟨sublist.subset (List.mem_map_of_mem inside), describes⟩

end Places

end Walk

end TypedClient
