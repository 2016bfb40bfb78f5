import TypedClient.Proofs.Builder.Unfolding

/-! Branches of merging. Merging a node goes from a reference to its target, which may be larger than
all that was met before, and from an `allOf` to its members. No branch takes a reference twice, so it
is no longer than the references and the heights of the nodes between them allow, and merging ends
whatever cycles the references form. -/
namespace TypedClient.Schema

open Node

/-- The nodes that merging goes through from one to another in so many steps, each with the chain of
references that have been followed to it. -/
inductive Branch (lookup : Json → Except Fault (Option Node)) :
    Nat → List Key → Node → List Key → Node → Prop where
  | here {seen node} : Branch lookup 0 seen node seen node
  | target {n seen node pointer key target chain last} (shape : node.shape = .ref pointer)
      (keyed : pointer.toKey = .ok key) (fresh : seen.any (·.same key) = false)
      (found : lookup pointer = .ok (some target))
      (deeper : Branch lookup n (key :: seen) target chain last) :
      Branch lookup (n + 1) seen node chain last
  | member {n seen node members member chain last} (shape : node.shape = .allOf members)
      (listed : member ∈ members) (deeper : Branch lookup n seen member chain last) :
      Branch lookup (n + 1) seen node chain last

variable {lookup : Json → Except Fault (Option Node)} {texts : List String} {height n : Nat}
  {seen chain : List Key} {node last : Node}

/-- The chain takes each of its references once, and they are among the given ones. -/
def Unrepeated (texts : List String) (chain : List Key) : Prop :=
  ∃ pointers : List String, chain = pointers.map Key.text ∧ pointers.Nodup ∧ pointers ⊆ texts

theorem Unrepeated.cons {p : String} (before : Unrepeated texts seen)
    (fresh : seen.any (·.same (.text p)) = false) (member : p ∈ texts) :
    Unrepeated texts (.text p :: seen) := by
  obtain ⟨pointers, rfl, nodup, inside⟩ := before
  have absent : p ∉ pointers := by
    intro met
    have same : (pointers.map Key.text).any (·.same (.text p)) = true :=
      List.any_eq_true.mpr ⟨.text p, List.mem_map_of_mem met, by simp [Key.same]⟩
    rw [fresh] at same
    cases same
  exact ⟨p :: pointers, rfl, List.nodup_cons.mpr ⟨absent, nodup⟩, List.cons_subset.mpr ⟨member, inside⟩⟩

theorem Unrepeated.length_le (chained : Unrepeated texts chain) :
    chain.length ≤ texts.toFinset.card := by
  obtain ⟨pointers, rfl, nodup, inside⟩ := chained
  rw [List.length_map, ← List.toFinset_card_of_nodup nodup]
  exact Finset.card_le_card fun p member => List.mem_toFinset.mpr (inside (List.mem_toFinset.mp member))

/-- A target is found under one of the references, which is not on the chain yet. -/
theorem Closed.target {pointer : Json} {key : Key} {target : Node} (closed : Closed lookup texts height)
    (refers : node.pointers ⊆ texts) (shape : node.shape = .ref pointer)
    (keyed : pointer.toKey = .ok key) (found : lookup pointer = .ok (some target)) :
    ∃ p ∈ texts, key = .text p ∧ target.Within height ∧ target.pointers ⊆ texts := by
  obtain ⟨p, rfl⟩ := closed.text found
  cases keyed
  have member : p ∈ texts := refers (mem_pointers_iff.mpr (.inl shape))
  exact ⟨p, member, rfl, closed.bounds member found⟩

/-- No branch follows a reference twice. -/
theorem Branch.unrepeated (branch : Branch lookup n seen node chain last)
    (closed : Closed lookup texts height) (refers : node.pointers ⊆ texts)
    (before : Unrepeated texts seen) : Unrepeated texts chain := by
  induction branch with
  | here => exact before
  | target shape keyed fresh found _ ih =>
    obtain ⟨p, member, rfl, _, inside⟩ := closed.target refers shape keyed found
    exact ih inside (before.cons fresh member)
  | member shape listed _ ih =>
    exact ih (List.Subset.trans (pointers_part_subset (by rwa [shape])) refers) before

/-- A step takes a reference off those that are left, which pays for the height of its target, or it
goes down one layer. -/
theorem Branch.length_lt {depth : Nat} (branch : Branch lookup n seen node chain last)
    (closed : Closed lookup texts height) (within : node.Within depth)
    (refers : node.pointers ⊆ texts) : n < unseen texts seen * (height + 1) + depth := by
  induction branch generalizing depth with
  | here =>
    have := within.pos
    omega
  | target shape keyed fresh found _ ih =>
    obtain ⟨p, member, rfl, targetWithin, inside⟩ := closed.target refers shape keyed found
    have rest := ih targetWithin inside
    have fewer := Nat.mul_le_mul_right (height + 1) (unseen_cons_lt member fresh)
    rw [Nat.succ_mul] at fewer
    have := within.pos
    omega
  | @member _ seen _ _ _ _ _ shape listed _ ih =>
    have part := within.part (by rwa [shape])
    have rest := ih part (List.Subset.trans (pointers_part_subset (by rwa [shape])) refers)
    have := part.pos
    omega

/-- Merging is cut off at a depth only if a branch is that long. -/
theorem exists_branch_of_tooDeep (ends : ∀ pointer, lookup pointer ≠ .error .tooDeep) {fuel : Nat}
    (cut : flatten lookup fuel seen node = .error .tooDeep) :
    ∃ chain last, Branch lookup fuel seen node chain last := by
  induction fuel generalizing seen node with
  | zero => exact ⟨seen, node, .here⟩
  | succ fuel ih =>
    rw [flatten] at cut
    split at cut
    · rename_i pointer shape
      rcases except_bind_eq_error.mp cut with unkeyed | ⟨key, keyed, cut⟩
      · exact absurd unkeyed (toKey_ends pointer)
      · split at cut
        · cases cut
        · rename_i fresh
          rcases except_bind_eq_error.mp cut with unread | ⟨target, found, deeper⟩
          · exact absurd unread (ends pointer)
          · cases target with
            | none => cases deeper
            | some target =>
              obtain ⟨chain, last, branch⟩ := ih deeper
              exact ⟨chain, last, .target shape keyed (Bool.eq_false_of_not_eq_true fresh) found branch⟩
    · rename_i members shape
      rcases except_bind_eq_error.mp cut with cut | ⟨_, _, done⟩
      · obtain ⟨member, listed, cut⟩ := mergeWith_error cut
        obtain ⟨chain, last, branch⟩ := ih cut
        exact ⟨chain, last, .member shape listed branch⟩
      · cases done
    · cases cut

end TypedClient.Schema

namespace TypedClient.Builder

open Schema Node

def mergeRefs (document : Json) (members : List Node) : List String :=
  members.flatMap pointers ++ document.references

/-- A depth that no branch exceeds: a target is no higher than the document. -/
def mergeDepth (document : Json) (members : List Node) : Nat :=
  (mergeRefs document members).length * (document.size + 1) + (members.map (·.subnodes.length)).sum

variable {document : Json} {members : List Node} {member : Node}

theorem mergeRefs_closed : Closed (lookup document) (mergeRefs document members) document.size :=
  lookup_closed (List.subset_append_right _ _) (Nat.le_refl _)

theorem pointers_subset_mergeRefs (document : Json) (listed : member ∈ members) :
    member.pointers ⊆ mergeRefs document members :=
  fun _ occurs => List.mem_append_left _ (List.mem_flatMap.mpr ⟨member, listed, occurs⟩)

theorem branch_length_lt {n : Nat} {chain : List Key} {last : Node} (listed : member ∈ members)
    (branch : Branch (lookup document) n [] member chain last) : n < mergeDepth document members := by
  have below := branch.length_lt mergeRefs_closed member.within_length_subnodes
    (pointers_subset_mergeRefs document listed)
  have few := Nat.mul_le_mul_right (document.size + 1) (unseen_le (mergeRefs document members) [])
  have low : member.subnodes.length ≤ (members.map (·.subnodes.length)).sum :=
    List.single_le_sum (by simp) _ (List.mem_map_of_mem listed)
  rw [mergeDepth]
  omega

/-- What an addition works with is more than that. -/
theorem mergeDepth_le_exprBound {node : Node} (shape : node.shape = .allOf members) :
    mergeDepth document members ≤ exprBound node document := by
  have parts : node.subnodes.length = (members.map (·.subnodes.length)).sum + 1 := by
    rw [length_subnodes, shape, Shape.parts]
  have own : (members.flatMap pointers).length ≤ (members.map (·.subnodes.length)).sum := by
    rw [List.length_flatMap]
    exact List.sum_le_sum fun member _ => member.length_pointers_le
  have refs : (mergeRefs document members).length ≤
      (members.map (·.subnodes.length)).sum + document.size := by
    rw [mergeRefs, List.length_append]
    exact Nat.add_le_add own (Json.length_references_le document)
  simp only [exprBound, mergeDepth]
  generalize size : node.subnodes.length + document.size + 2 = n
  have square := Nat.mul_le_mul (show (mergeRefs document members).length ≤ n by omega)
    (show document.size + 1 ≤ n by omega)
  have line : n ≤ n * n := Nat.le_mul_self n
  have cube := Nat.mul_le_mul_left (n * n) (show 2 ≤ n by omega)
  omega

/-- From that depth on no member is cut off. -/
theorem flatten_ends_of_mergeDepth {fuel : Nat} (enough : mergeDepth document members ≤ fuel)
    (listed : member ∈ members) : flatten (lookup document) fuel [] member ≠ .error .tooDeep := by
  intro cut
  obtain ⟨chain, last, branch⟩ := exists_branch_of_tooDeep lookup_ends cut
  have := branch_length_lt listed branch
  omega

theorem mergeAllOf_ends_of_mergeDepth {fuel : Nat} (enough : mergeDepth document members ≤ fuel) :
    mergeAllOf (lookup document) fuel members ≠ .error .tooDeep := by
  intro cut
  obtain ⟨member, listed, cut⟩ := mergeWith_error cut
  exact flatten_ends_of_mergeDepth enough listed cut

/-- A depth that the schemas tell before their members are read. -/
theorem mergeAllOf_ends_of_depthBound {schemas : List Json} {fuel : Nat}
    (read : ∀ member ∈ members, ∃ schema ∈ schemas, ∃ path, normalize schema path = .ok member)
    (enough : depthBound (.arr schemas) document ≤ fuel) :
    mergeAllOf (lookup document) fuel members ≠ .error .tooDeep := by
  intro cut
  obtain ⟨member, listed, cut⟩ := mergeWith_error cut
  obtain ⟨chain, last, branch⟩ := exists_branch_of_tooDeep lookup_ends cut
  obtain ⟨schema, inside, path, normal⟩ := read member listed
  obtain ⟨within, refers⟩ := normalize_bounds normal
  let texts := (Json.arr schemas).references ++ document.references
  have closed : Closed (lookup document) texts document.size :=
    lookup_closed (List.subset_append_right _ _) (Nat.le_refl _)
  have below := branch.length_lt closed (within.mono (Json.size_lt_arr inside).le)
    (List.Subset.trans refers (List.Subset.trans (Json.references_arr_subset inside)
      (List.subset_append_left _ _)))
  have few : unseen texts [] ≤ refCount (.arr schemas) + refCount document :=
    calc unseen texts [] ≤ texts.length := unseen_le texts []
      _ = (Json.arr schemas).references.length + document.references.length := List.length_append
      _ ≤ refCount (.arr schemas) + refCount document :=
        Nat.add_le_add (Json.length_references_le_refCount _) (Json.length_references_le_refCount _)
  have scaled := Nat.mul_le_mul_right (document.size + 1) few
  simp only [depthBound] at enough
  generalize refCount (.arr schemas) + refCount document = refs at enough scaled
  have wide : refs + 1 ≤ 4 * (refs + 2) * (refs + 2) := by nlinarith
  have area := Nat.mul_le_mul_right ((Json.arr schemas).size + document.size + 2) wide
  have cover : refs * (document.size + 1) + (Json.arr schemas).size ≤
      (refs + 1) * ((Json.arr schemas).size + document.size + 2) := by nlinarith
  omega

theorem mergeAllOf_stable {fuel more : Nat} (le : fuel ≤ more)
    (ends : mergeAllOf (lookup document) fuel members ≠ .error .tooDeep) :
    mergeAllOf (lookup document) more members = mergeAllOf (lookup document) fuel members := by
  have cut : CutOff (mergeAllOf (lookup document) fuel members)
      (mergeAllOf (lookup document) more members) :=
    CutOff.mergeWith fun member _ => flatten_cutOff le [] member
  exact (cut.resolve_left ends).symm

/-- Merging ends on every document. From a depth on that is known beforehand nothing is cut off and a
greater depth changes nothing, both for the members and for an `allOf` of them, to which an addition
gives more than that. No branch is longer, and its chain of references takes each one once, so it is
no longer than there are different references in the document and the members. -/
theorem mergeAllOf_terminates (document : Json) (members : List Node) :
    let depth := mergeDepth document members
    (∀ fuel, depth ≤ fuel →
      mergeAllOf (lookup document) fuel members ≠ .error .tooDeep ∧
      mergeAllOf (lookup document) fuel members = mergeAllOf (lookup document) depth members ∧
      ∀ node, node.shape = .allOf members →
        flattenAllOf (lookup document) fuel node ≠ .error .tooDeep ∧
        flattenAllOf (lookup document) fuel node = flattenAllOf (lookup document) depth node) ∧
    (∀ node, node.shape = .allOf members → depth ≤ exprBound node document) ∧
    ∀ member ∈ members, ∀ n chain last, Branch (lookup document) n [] member chain last →
      n < depth ∧ Unrepeated (mergeRefs document members) chain ∧
        chain.length ≤ (mergeRefs document members).toFinset.card := by
  intro depth
  refine ⟨fun fuel enough => ?_, fun node => mergeDepth_le_exprBound,
    fun member listed n chain last branch => ?_⟩
  · have ends {fuel : Nat} (enough : depth ≤ fuel) := mergeAllOf_ends_of_mergeDepth enough
    refine ⟨ends enough, mergeAllOf_stable enough (ends (Nat.le_refl _)), fun node shape => ?_⟩
    have whole {fuel : Nat} (enough : depth ≤ fuel) :
        flattenAllOf (lookup document) fuel node ≠ .error .tooDeep := by
      intro cut
      rw [flattenAllOf, shape] at cut
      rcases except_bind_eq_error.mp cut with cut | ⟨_, _, done⟩
      · exact ends enough cut
      · cases done
    exact ⟨whole enough, flattenAllOf_stable enough (whole (Nat.le_refl _))⟩
  · have chained := branch.unrepeated mergeRefs_closed
      (pointers_subset_mergeRefs document listed) ⟨[], rfl, .nil, List.nil_subset _⟩
    exact ⟨branch_length_lt listed branch, chained, chained.length_le⟩

/-- Two definitions that have each other among their members. -/
def knotDocument : Json :=
  let ref (name : String) : Json := .ofMembers [("$ref", .str ("#/$defs/" ++ name))]
  let object (key : String) : Json :=
    .ofMembers [("properties", .ofMembers [(key, .ofMembers [("type", "string")])])]
  .ofMembers [("$defs", .ofMembers [
    ("Left", .ofMembers [("allOf", .arr [ref "Right", object "left"])]),
    ("Right", .ofMembers [("allOf", .arr [object "right", ref "Left"])])])]

def knotMember : Node :=
  { shape := .ref "#/$defs/Left" }

theorem mergeAllOf_terminates_knot :
    let depth := mergeDepth knotDocument [knotMember]
    depth ≤ depth + 1 ∧
      mergeAllOf (lookup knotDocument) (depth + 1) [knotMember] =
        mergeAllOf (lookup knotDocument) depth [knotMember] ∧
      (mergeAllOf (lookup knotDocument) depth [knotMember]).toOption.map
        (fun node => node.shape.parts.length) = some 2 ∧
      depth ≤ exprBound { shape := .allOf [knotMember] } knotDocument ∧
      knotMember ∈ [knotMember] ∧
      ∃ target, Branch (lookup knotDocument) 1 [] knotMember [.text "#/$defs/Left"] target ∧
        1 < depth ∧ 1 ≤ (mergeRefs knotDocument [knotMember]).toFinset.card := by
  intro depth
  obtain ⟨ends, enough, branches⟩ := mergeAllOf_terminates knotDocument [knotMember]
  have found : ((lookup knotDocument "#/$defs/Left").toOption.join).isSome = true := by
    decide +kernel
  cases looked : lookup knotDocument "#/$defs/Left" with
  | error fault =>
    rw [looked] at found
    cases found
  | ok result =>
    rw [looked] at found
    obtain ⟨target, rfl⟩ := Option.isSome_iff_exists.mp found
    have branch : Branch (lookup knotDocument) 1 [] knotMember [.text "#/$defs/Left"] target :=
      .target rfl rfl rfl looked .here
    obtain ⟨short, _, few⟩ := branches knotMember (List.mem_singleton_self _) _ _ _ branch
    exact ⟨Nat.le_succ _, (ends _ (Nat.le_succ _)).2.1, by decide +kernel, enough _ rfl,
      List.mem_singleton_self _, target, branch, short, few⟩

end TypedClient.Builder
