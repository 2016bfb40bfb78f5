import TypedClient.Proofs.Schema.Overlay

/-! The leaves of an `allOf`. Members, nested members and what references lead to are one list of
concrete nodes, and merging lays these over each other from left to right, whatever their kinds
and however they are nested. -/
namespace TypedClient.Schema

open Node

variable {lookup : Json → Except Fault (Option Node)}

def Notes.leaf (notes : Notes) : Node :=
  { notes, shape := .always true }

mutual

/-- The leaves that a node stands for, on a chain of references. -/
inductive Expands (lookup : Json → Except Fault (Option Node)) :
    List Key → Node → List Node → Prop where
  | concrete {seen node} (concrete : node.Concrete) : Expands lookup seen node [node]
  /-- A reference that is on its own chain. -/
  | again {seen node pointer key} (shape : node.shape = .ref pointer)
      (keyed : pointer.toKey = .ok key) (met : seen.any (·.same key) = true) :
      Expands lookup seen node []
  | unresolvable {seen node pointer key} (shape : node.shape = .ref pointer)
      (keyed : pointer.toKey = .ok key) (found : lookup pointer = .ok none) :
      Expands lookup seen node []
  | target {seen node pointer key target leaves} (shape : node.shape = .ref pointer)
      (keyed : pointer.toKey = .ok key) (fresh : seen.any (·.same key) = false)
      (found : lookup pointer = .ok (some target))
      (deeper : Expands lookup (key :: seen) target leaves) : Expands lookup seen node leaves
  /-- The notes of a nested `allOf` come after its members. -/
  | nested {seen node members leaves} (shape : node.shape = .allOf members)
      (inner : ExpandsAll lookup seen members leaves) :
      Expands lookup seen node (leaves ++ [node.notes.leaf])

inductive ExpandsAll (lookup : Json → Except Fault (Option Node)) :
    List Key → List Node → List Node → Prop where
  | nil {seen} : ExpandsAll lookup seen [] []
  | cons {seen member rest leaves others} (first : Expands lookup seen member leaves)
      (further : ExpandsAll lookup seen rest others) :
      ExpandsAll lookup seen (member :: rest) (leaves ++ others)

end

/-- On its way to leaves a node meets a reference that cannot be followed. -/
inductive Stuck (lookup : Json → Except Fault (Option Node)) (fault : Fault) :
    List Key → Node → Prop where
  | unkeyed {seen node pointer} (shape : node.shape = .ref pointer)
      (unkeyed : pointer.toKey = .error fault) : Stuck lookup fault seen node
  | unread {seen node pointer key} (shape : node.shape = .ref pointer)
      (keyed : pointer.toKey = .ok key) (fresh : seen.any (·.same key) = false)
      (unread : lookup pointer = .error fault) : Stuck lookup fault seen node
  | target {seen node pointer key target} (shape : node.shape = .ref pointer)
      (keyed : pointer.toKey = .ok key) (fresh : seen.any (·.same key) = false)
      (found : lookup pointer = .ok (some target))
      (deeper : Stuck lookup fault (key :: seen) target) : Stuck lookup fault seen node
  | nested {seen node members member} (shape : node.shape = .allOf members)
      (listed : member ∈ members) (inner : Stuck lookup fault seen member) :
      Stuck lookup fault seen node

def Node.fields? (node : Node) : Option (Fields Node) :=
  match node.shape with
  | .object fields => some fields
  | _ => none

def objectsOf (leaves : List Node) : List (Fields Node) :=
  leaves.filterMap (·.fields?)

/-- What leaves, laid over each other in their order, are together. -/
structure Gathers (leaves : List Node) (node : Node) : Prop where
  nullable : node.nullable = leaves.any (·.nullable)
  title : node.notes.title = lastDefined (·.notes.title) leaves
  description : node.notes.description = lastDefined (·.notes.description) leaves
  defaultValue : node.notes.defaultValue = lastDefined (·.notes.defaultValue) leaves
  /-- No other kind makes an object. -/
  other : objectsOf leaves = [] → node.fields? = none
  object : objectsOf leaves ≠ [] → ∃ fields, node.shape = .object fields ∧ Joins (objectsOf leaves) fields

theorem fields?_eq_some {node : Node} {fields : Fields Node} :
    node.fields? = some fields ↔ node.shape = .object fields := by
  unfold fields?
  split <;> simp_all

section Overlay

variable {acc member : Node} {lower upper : Fields Node}

/-- Whatever the kinds, what both say besides their shapes is laid over each other. -/
theorem notes_overlay (acc member : Node) : ∃ path,
    (acc.overlay member).notes = { acc.notes.overlay member.notes with path } := by
  unfold Node.overlay
  split
  · exact ⟨_, rfl⟩
  split
  · exact ⟨_, rfl⟩
  split
  · exact ⟨_, rfl⟩
  split <;> exact ⟨_, rfl⟩

theorem fields?_of_isUnconstrained {node : Node} (all : node.isUnconstrained = true) :
    node.fields? = none := by
  unfold isUnconstrained at all
  unfold fields?
  split <;> simp_all

theorem isSome_fields? (node : Node) : node.fields?.isSome = node.isObject := by
  unfold fields? isObject
  cases node.shape <;> rfl

theorem fields?_of_overlay? {notes : Notes} {shape : Shape Node}
    (laid : acc.shape.overlay? member.shape = some shape) : fields? { notes, shape } =
      Option.merge Fields.overlay acc.fields? member.fields? := by
  unfold Shape.overlay? at laid
  unfold fields?
  split at laid <;> cases laid <;> simp_all

/-- An object is joined with an object and outweighs every other kind. -/
theorem fields?_overlay (acc member : Node) : (acc.overlay member).fields? =
    Option.merge Fields.overlay acc.fields? member.fields? := by
  unfold Node.overlay
  split
  · rename_i all
    rw [fields?_of_isUnconstrained all, Option.merge_none_right]
    rfl
  split
  · rename_i all
    rw [fields?_of_isUnconstrained all, Option.merge_none_left]
    rfl
  split
  · rename_i shape laid
    exact fields?_of_overlay? laid
  rename_i apart
  split
  · rename_i isObject
    -- two objects would have been joined
    have other : member.fields? = none := by
      cases found : member.fields? with
      | none => rfl
      | some upper =>
        obtain ⟨lower, own⟩ := Option.isSome_iff_exists.mp ((isSome_fields? acc).trans isObject)
        rw [fields?_eq_some.mp own, fields?_eq_some.mp found] at apart
        cases apart
    rw [other, Option.merge_none_right]
    rfl
  · rename_i other
    have fieldless : acc.fields? = none := by
      rw [← Option.not_isSome_iff_eq_none, isSome_fields?]
      exact other
    rw [fieldless, Option.merge_none_left]
    rfl

end Overlay

namespace Gathers

variable {leaves others : List Node} {node acc member : Node}

/-- Without leaves there is nothing to say. -/
theorem nil : Gathers [] { shape := .always true } where
  nullable := rfl
  title := rfl
  description := rfl
  defaultValue := rfl
  other _ := rfl
  object nonempty := absurd rfl nonempty

theorem singleton (apart : ∀ fields, node.shape = .object fields →
    (keysOf fields.properties).Pairwise fun a b => a.same b = false) : Gathers [node] node := by
  have objects : objectsOf [node] = node.fields?.toList := by
    cases found : node.fields? <;> simp [objectsOf, found]
  refine ⟨by simp, ?_, ?_, ?_, fun empty => ?_, fun nonempty => ?_⟩
  · rw [lastDefined_singleton]
  · rw [lastDefined_singleton]
  · rw [lastDefined_singleton]
  · simpa [objects] using empty
  · rw [objects] at nonempty ⊢
    cases found : node.fields? with
    | none => exact absurd (by rw [found]; rfl) nonempty
    | some fields =>
      have shape := fields?_eq_some.mp found
      exact ⟨fields, shape, joins_singleton (apart fields shape)⟩

/-- The leaves of two nodes, one laid over the other. -/
theorem overlay (first : Gathers leaves acc) (second : Gathers others member) :
    Gathers (leaves ++ others) (acc.overlay member) := by
  obtain ⟨path, notes⟩ := notes_overlay acc member
  have objects : objectsOf (leaves ++ others) = objectsOf leaves ++ objectsOf others :=
    List.filterMap_append
  refine ⟨?_, ?_, ?_, ?_, fun empty => ?_, fun nonempty => ?_⟩
  · rw [Node.nullable, notes, List.any_append, ← first.nullable, ← second.nullable]
    exact Bool.or_comm ..
  · rw [notes, lastDefined_append, ← first.title, ← second.title]
    exact Option.orElse_eq_or
  · rw [notes, lastDefined_append, ← first.description, ← second.description]
    exact Option.orElse_eq_or
  · rw [notes, lastDefined_append, ← first.defaultValue, ← second.defaultValue]
    exact Option.orElse_eq_or
  · rw [objects, List.append_eq_nil_iff] at empty
    rw [fields?_overlay, first.other empty.1, second.other empty.2]
    rfl
  · simp only [← fields?_eq_some, fields?_overlay, objects]
    rw [objects] at nonempty
    by_cases left : objectsOf leaves = []
    · rw [left, List.nil_append] at nonempty ⊢
      obtain ⟨fields, shape, joins⟩ := second.object nonempty
      exact ⟨fields, by rw [first.other left, fields?_eq_some.mpr shape]; rfl, joins⟩
    · obtain ⟨lower, shape, joins⟩ := first.object left
      rw [fields?_eq_some.mpr shape]
      by_cases right : objectsOf others = []
      · rw [right, List.append_nil, second.other right]
        exact ⟨lower, rfl, joins⟩
      · obtain ⟨upper, shape', joins'⟩ := second.object right
        rw [fields?_eq_some.mpr shape']
        exact ⟨lower.overlay upper, rfl, joins.overlay joins' left right⟩

end Gathers

def Node.Keyed (node : Node) : Prop :=
  ∀ other ∈ node.subnodes, ∀ fields, other.shape = .object fields →
    (keysOf fields.properties).Pairwise fun a b => a.same b = false

theorem Node.Keyed.part {node part : Node} (keyed : node.Keyed) (member : part ∈ node.shape.parts) :
    part.Keyed :=
  fun other inner => keyed other (subnodes_part_subset member inner)

/-- What a member leads to, if anything, is what its leaves are together. -/
def AmountsTo (leaves : List Node) : Option Node → Prop
  | none => leaves = []
  | some node => Gathers leaves node

section Members

variable {flatten : Node → Except Fault (Option Node)} {seen : List Key} {members : List Node}
  {leaves known : List Node} {acc flat : Option Node} {member : Node}

theorem mergeMember_amountsTo (before : AmountsTo known acc) (own : AmountsTo leaves flat)
    (done : flatten member = .ok flat) :
    ∃ after, mergeMember flatten acc member = .ok after ∧ AmountsTo (known ++ leaves) after := by
  unfold mergeMember
  rw [done]
  cases flat with
  | none =>
    cases own
    rw [List.append_nil]
    cases acc <;> exact ⟨_, rfl, before⟩
  | some node =>
    cases acc with
    | none =>
      cases before
      exact ⟨_, rfl, own⟩
    | some acc => exact ⟨_, rfl, before.overlay own⟩

/-- The members are folded one after the other, and so are their leaves. -/
theorem foldlM_amountsTo (each : ∀ member ∈ members, ∀ leaves, Expands lookup seen member leaves →
      flatten member ≠ .error .tooDeep → ∃ flat, flatten member = .ok flat ∧ AmountsTo leaves flat)
    (expands : ExpandsAll lookup seen members leaves) (before : AmountsTo known acc)
    (ends : members.foldlM (mergeMember flatten) acc ≠ .error .tooDeep) :
    ∃ last, members.foldlM (mergeMember flatten) acc = .ok last ∧ AmountsTo (known ++ leaves) last := by
  induction members generalizing leaves known acc with
  | nil =>
    cases expands
    exact ⟨acc, rfl, by rwa [List.append_nil]⟩
  | cons member rest ih =>
    cases expands with
    | cons first further =>
      rw [List.foldlM_cons] at ends ⊢
      obtain ⟨flat, done, own⟩ := each member List.mem_cons_self _ first fun deep =>
        ends (by rw [mergeMember, deep]; rfl)
      obtain ⟨after, merged, amounts⟩ := mergeMember_amountsTo before own done
      rw [merged] at ends ⊢
      obtain ⟨last, folded, all⟩ :=
        ih (fun other listed => each other (List.mem_cons_of_mem _ listed)) further amounts ends
      exact ⟨last, folded, by rwa [← List.append_assoc]⟩

theorem mergeWith_gathers (each : ∀ member ∈ members, ∀ leaves, Expands lookup seen member leaves →
      flatten member ≠ .error .tooDeep → ∃ flat, flatten member = .ok flat ∧ AmountsTo leaves flat)
    (expands : ExpandsAll lookup seen members leaves)
    (ends : mergeWith flatten members ≠ .error .tooDeep) :
    ∃ result, mergeWith flatten members = .ok result ∧ Gathers leaves result := by
  have start : AmountsTo [] none := rfl
  obtain ⟨last, folded, amounts⟩ := foldlM_amountsTo each expands start fun deep =>
    ends (by rw [mergeWith, deep]; rfl)
  refine ⟨_, except_bind_eq_ok.mpr ⟨last, folded, rfl⟩, ?_⟩
  cases last with
  | none =>
    cases amounts
    exact .nil
  | some node => exact amounts

/-- Members that are folded have leaves. -/
theorem exists_expandsAll {last : Option Node}
    (each : ∀ member ∈ members, ∀ flat, flatten member = .ok flat →
      ∃ leaves, Expands lookup seen member leaves)
    (folded : members.foldlM (mergeMember flatten) acc = .ok last) :
    ∃ leaves, ExpandsAll lookup seen members leaves := by
  induction members generalizing acc with
  | nil => exact ⟨[], .nil⟩
  | cons member rest ih =>
    rw [List.foldlM_cons] at folded
    obtain ⟨after, merged, folded⟩ := except_bind_eq_ok.mp folded
    obtain ⟨flat, done, _⟩ := except_bind_eq_ok.mp merged
    obtain ⟨leaves, first⟩ := each member List.mem_cons_self flat done
    obtain ⟨others, further⟩ :=
      ih (fun other listed => each other (List.mem_cons_of_mem _ listed)) folded
    exact ⟨leaves ++ others, .cons first further⟩

end Members

section Flatten

variable {fuel : Nat} {seen : List Key} {node target : Node} {members leaves : List Node} {pointer : Json}
  {key : Key}

theorem flatten_target (shape : node.shape = .ref pointer) (keyed : pointer.toKey = .ok key)
    (fresh : seen.any (·.same key) = false) (found : lookup pointer = .ok (some target)) :
    flatten lookup (fuel + 1) seen node = flatten lookup fuel (key :: seen) target := by
  rw [flatten]
  simp only [shape, keyed, found]
  exact if_neg (by simp [fresh])

theorem flatten_nested (shape : node.shape = .allOf members) :
    flatten lookup (fuel + 1) seen node =
      (some <| ·.annotatedBy node.notes) <$> mergeWith (flatten lookup fuel seen) members := by
  rw [flatten]
  simp only [shape]
  cases mergeWith (flatten lookup fuel seen) members <;> rfl

/-- What a node leads to is what its leaves are together. -/
theorem flatten_amountsTo (targets : ∀ {pointer target}, lookup pointer = .ok (some target) → target.Keyed)
    (distinct : node.Keyed) (expands : Expands lookup seen node leaves)
    (ends : flatten lookup fuel seen node ≠ .error .tooDeep) :
    ∃ flat, flatten lookup fuel seen node = .ok flat ∧ AmountsTo leaves flat := by
  induction fuel generalizing seen node leaves with
  | zero => exact absurd rfl ends
  | succ fuel ih =>
    cases expands with
    | concrete concrete =>
      rw [flatten]
      split
      · rename_i pointer shape
        exact absurd shape (concrete.2 pointer)
      · rename_i members shape
        exact absurd shape (isAllOf_eq_false.mp concrete.1 members)
      · exact ⟨some node, rfl, .singleton (distinct node (self_mem_subnodes node))⟩
    | again shape keyed met =>
      rw [flatten]
      simp only [shape, keyed]
      exact ⟨none, if_pos met, rfl⟩
    | unresolvable shape keyed found =>
      rw [flatten]
      simp only [shape, keyed, found]
      exact ⟨none, ite_self _, rfl⟩
    | target shape keyed fresh found deeper =>
      rw [flatten_target shape keyed fresh found] at ends ⊢
      exact ih (targets found) deeper ends
    | nested shape inner =>
      rw [flatten_nested shape] at ends ⊢
      have each : ∀ member ∈ _, ∀ leaves, Expands lookup seen member leaves →
          flatten lookup fuel seen member ≠ .error .tooDeep → _ := fun member listed _ expands ends =>
        ih (distinct.part (by rwa [shape])) expands ends
      obtain ⟨result, merged, gathers⟩ := mergeWith_gathers each inner fun deep =>
        ends (except_map_eq_error.mpr deep)
      refine ⟨_, except_map_eq_ok.mpr ⟨result, merged, rfl⟩, ?_⟩
      -- the notes are a last leaf that accepts everything
      have notes : Gathers [node.notes.leaf] node.notes.leaf := .singleton (by simp [Notes.leaf])
      exact gathers.overlay notes

/-- A node that leads anywhere has leaves. -/
theorem exists_expands {flat : Option Node} (done : flatten lookup fuel seen node = .ok flat) :
    ∃ leaves, Expands lookup seen node leaves := by
  induction fuel generalizing seen node flat with
  | zero => cases done
  | succ fuel ih =>
    rw [flatten] at done
    split at done
    · rename_i pointer shape
      obtain ⟨key, keyed, done⟩ := except_bind_eq_ok.mp done
      split at done
      · rename_i met
        exact ⟨[], .again shape keyed met⟩
      · rename_i fresh
        obtain ⟨target, found, deeper⟩ := except_bind_eq_ok.mp done
        cases target with
        | none => exact ⟨[], .unresolvable shape keyed found⟩
        | some target =>
          obtain ⟨leaves, expands⟩ := ih deeper
          exact ⟨leaves, .target shape keyed (by simpa using fresh) found expands⟩
    · rename_i members shape
      obtain ⟨inner, merged, _⟩ := except_bind_eq_ok.mp done
      obtain ⟨last, folded, _⟩ := except_bind_eq_ok.mp merged
      obtain ⟨leaves, expands⟩ := exists_expandsAll (fun _ _ _ done => ih done) folded
      exact ⟨_, .nested shape expands⟩
    · rename_i noRef noAllOf
      exact ⟨[node], .concrete ⟨isAllOf_eq_false.mpr noAllOf, noRef⟩⟩

/-- Merging fails for want of depth, or where a reference cannot be followed. -/
theorem stuck_of_flatten {fault : Fault} (failed : flatten lookup fuel seen node = .error fault) :
    fault = .tooDeep ∨ Stuck lookup fault seen node := by
  induction fuel generalizing seen node with
  | zero =>
    cases failed
    exact .inl rfl
  | succ fuel ih =>
    rw [flatten] at failed
    split at failed
    · rename_i pointer shape
      rcases except_bind_eq_error.mp failed with unkeyed | ⟨key, keyed, failed⟩
      · exact .inr (.unkeyed shape unkeyed)
      · split at failed
        · cases failed
        · rename_i fresh
          rcases except_bind_eq_error.mp failed with unread | ⟨target, found, deeper⟩
          · exact .inr (.unread shape keyed (by simpa using fresh) unread)
          · cases target with
            | none => cases deeper
            | some target => exact (ih deeper).imp_right (.target shape keyed (by simpa using fresh) found)
    · rename_i members shape
      rcases except_bind_eq_error.mp failed with failed | ⟨_, _, done⟩
      · obtain ⟨member, listed, failed⟩ := mergeWith_error failed
        exact (ih failed).imp_right (.nested shape listed)
      · cases done
    · cases failed

end Flatten

end TypedClient.Schema
