import TypedClient.Proofs.Schema.Parts
import TypedClient.Schema.Merge

/-! Merging of `allOf`. What merging leads to is concrete and made of the parts of what it meets.
Along one path no reference is followed twice, so among finitely many references it ends, and more
depth than it needs changes nothing. -/
namespace TypedClient.Schema

open Node

variable {lookup : Json → Except Fault (Option Node)} {members : List Node} {node result : Node}

def Node.Concrete (node : Node) : Prop :=
  node.isAllOf = false ∧ ∀ pointer, node.shape ≠ .ref pointer

theorem isAllOf_eq_true : node.isAllOf = true ↔ ∃ members, node.shape = .allOf members := by
  unfold isAllOf
  split <;> simp_all

theorem isAllOf_eq_false : node.isAllOf = false ↔ ∀ members, node.shape ≠ .allOf members := by
  rw [← Bool.not_eq_true, isAllOf_eq_true, not_exists]

section Overlay

theorem mem_setProperty {properties : List (Key × Node)} {p q : Key × Node}
    (member : q ∈ setProperty properties p) : q.2 ∈ properties.map (·.2) ∨ q.2 = p.2 := by
  unfold setProperty at member
  split at member
  · obtain ⟨old, listed, rfl⟩ := List.mem_map.mp member
    split
    · exact .inr rfl
    · exact .inl (List.mem_map_of_mem listed)
  · rcases List.mem_append.mp member with old | new
    · exact .inl (List.mem_map_of_mem old)
    · exact .inr (by rw [List.mem_singleton.mp new])

theorem mem_foldl_setProperty {lower upper : List (Key × Node)} {part : Node}
    (member : part ∈ (upper.foldl setProperty lower).map (·.2)) :
    part ∈ lower.map (·.2) ∨ part ∈ upper.map (·.2) := by
  induction upper generalizing lower with
  | nil => exact .inl member
  | cons p rest ih =>
    rcases ih member with lower | upper
    · obtain ⟨q, listed, rfl⟩ := List.mem_map.mp lower
      rcases mem_setProperty listed with old | same
      · exact .inl old
      · exact .inr (by simp [same])
    · exact .inr (List.mem_cons_of_mem _ upper)

theorem mem_items_overlay {lower upper : Items Node} {part : Node}
    (member : part ∈ (lower.overlay upper).parts) : part ∈ lower.parts ∨ part ∈ upper.parts := by
  cases upper with
  | anything => exact .inl member
  | nothing | each => exact .inr member

/-- Shapes that are laid over each other keep their kind and hold no parts of their own. -/
theorem overlay?_eq_some {lower upper shape : Shape Node} (laid : lower.overlay? upper = some shape) :
    (∀ pointer, shape ≠ .ref pointer) ∧ (∀ members, shape ≠ .allOf members) ∧
      ∀ part ∈ shape.parts, part ∈ lower.parts ∨ part ∈ upper.parts := by
  unfold Shape.overlay? at laid
  split at laid <;> cases laid
  case h_1 lower upper =>
    refine ⟨by simp, by simp, fun part member => ?_⟩
    simp only [Shape.parts, Fields.overlay, List.mem_append, Option.mem_toList] at member ⊢
    rcases member with property | further
    · rcases mem_foldl_setProperty property with old | new
      · exact .inl (.inl old)
      · exact .inr (.inl new)
    · cases extra : upper.additional with
      | none => exact .inl (.inr (by simpa [extra] using further))
      | some node => exact .inr (.inr (by simpa [extra] using further))
  case h_5 lower upper =>
    refine ⟨by simp, by simp, fun part member => ?_⟩
    simp only [Shape.parts] at member ⊢
    split at member
    · exact .inl member
    · exact .inr member
  case h_6 lower _ _ upper _ _ => exact ⟨by simp, by simp, fun part => mem_items_overlay⟩
  case h_7 lower r upper s =>
    refine ⟨by simp, by simp, fun part member => ?_⟩
    simp only [Shape.parts, List.mem_append] at member ⊢
    rcases member with leading | further
    · split at leading
      · exact .inl (.inl leading)
      · exact .inr (.inl leading)
    · rcases mem_items_overlay further with old | new
      · exact .inl (.inr old)
      · exact .inr (.inr new)
  all_goals exact ⟨by simp, by simp, by simp [Shape.parts]⟩

/-- What is laid over a concrete node stays concrete and brings its own parts only. -/
theorem overlay_parts {acc member : Node} (concrete : acc.Concrete) (memberConcrete : member.Concrete) :
    (acc.overlay member).Concrete ∧ ∀ part ∈ (acc.overlay member).shape.parts,
      part ∈ acc.shape.parts ∨ part ∈ member.shape.parts := by
  unfold Node.overlay
  split
  · exact ⟨concrete, fun _ => .inl⟩
  · split
    · exact ⟨memberConcrete, fun _ => .inr⟩
    · split
      · rename_i shape laid
        obtain ⟨noRef, noAllOf, parts⟩ := overlay?_eq_some laid
        exact ⟨⟨isAllOf_eq_false.mpr noAllOf, noRef⟩, parts⟩
      · split
        · exact ⟨concrete, fun _ => .inl⟩
        · exact ⟨memberConcrete, fun _ => .inr⟩

end Overlay

section Members

variable {flatten : Node → Except Fault (Option Node)}

/-- What the members lead to and laying over each other keeps, merging keeps. -/
theorem mergeWith_keeps {P : Node → Prop} (empty : P { shape := .always true })
    (overlay : ∀ acc node, P acc → P node → P (acc.overlay node))
    (each : ∀ member ∈ members, ∀ node, flatten member = .ok (some node) → P node)
    (done : mergeWith flatten members = .ok result) : P result := by
  obtain ⟨last, folded, same⟩ := except_bind_eq_ok.mp done
  cases same
  have kept : ∀ node ∈ last, P node := by
    refine except_foldlM_keeps (P := fun acc : Option Node => ∀ node ∈ acc, P node) ?_ (by simp) folded
    intro member listed before after kept step
    obtain ⟨flat, found, step⟩ := except_bind_eq_ok.mp step
    cases flat with
    | none =>
      cases step
      exact kept
    | some node =>
      have own := each member listed node found
      cases before with
      | none =>
        cases step
        simpa using own
      | some acc =>
        cases step
        simpa using overlay acc node (kept acc rfl) own
  cases last with
  | none => exact empty
  | some node => exact kept node rfl

theorem foldlM_error {f : β → α → Except Fault β} {items : List α} {init : β} {fault : Fault}
    (failed : items.foldlM f init = .error fault) :
    ∃ item ∈ items, ∃ acc, f acc item = .error fault := by
  induction items generalizing init with
  | nil => cases failed
  | cons item rest ih =>
    rw [List.foldlM_cons] at failed
    rcases except_bind_eq_error.mp failed with first | ⟨middle, _, failed⟩
    · exact ⟨item, List.mem_cons_self, init, first⟩
    · obtain ⟨other, member, step⟩ := ih failed
      exact ⟨other, List.mem_cons_of_mem _ member, step⟩

/-- Merging fails only where a member does. -/
theorem mergeWith_error {fault : Fault} (failed : mergeWith flatten members = .error fault) :
    ∃ member ∈ members, flatten member = .error fault := by
  rcases except_bind_eq_error.mp failed with folded | ⟨_, _, done⟩
  · obtain ⟨member, listed, acc, step⟩ := foldlM_error folded
    rcases except_bind_eq_error.mp step with failed | ⟨flat, _, step⟩
    · exact ⟨member, listed, failed⟩
    · cases acc <;> cases flat <;> cases step
  · cases done

end Members

/-- Merging leads to concrete nodes. -/
theorem flatten_concrete {fuel : Nat} {seen : List Key}
    (done : flatten lookup fuel seen node = .ok (some result)) : result.Concrete := by
  induction fuel generalizing seen node result with
  | zero => cases done
  | succ fuel ih =>
    unfold flatten at done
    split at done
    case h_1 pointer _ =>
      obtain ⟨key, _, done⟩ := except_bind_eq_ok.mp done
      split at done
      · cases done
      · obtain ⟨target, _, deeper⟩ := except_bind_eq_ok.mp done
        cases target with
        | none => cases deeper
        | some target => exact ih deeper
    case h_2 members _ =>
      obtain ⟨inner, folded, same⟩ := except_bind_eq_ok.mp done
      cases same
      have concrete : inner.Concrete := mergeWith_keeps ⟨rfl, by simp⟩
        (fun _ _ concrete other => (overlay_parts concrete other).1)
        (fun _ _ _ step => ih step) folded
      exact concrete
    case h_3 noRef noAllOf =>
      cases done
      exact ⟨isAllOf_eq_false.mpr noAllOf, noRef⟩

theorem flattenAllOf_concrete {fuel : Nat} (done : flattenAllOf lookup fuel node = .ok result) :
    result.Concrete := by
  unfold flattenAllOf at done
  split at done
  · obtain ⟨inner, folded, same⟩ := except_bind_eq_ok.mp done
    cases same
    have concrete : inner.Concrete := mergeWith_keeps ⟨rfl, by simp⟩
      (fun _ _ concrete other => (overlay_parts concrete other).1)
      (fun _ _ _ step => flatten_concrete step) folded
    exact concrete
  · cases done

section Depth

def CutOff (first second : Except Fault α) : Prop :=
  first = .error .tooDeep ∨ first = second

theorem CutOff.refl (result : Except Fault α) : CutOff result result :=
  .inr rfl

theorem CutOff.bind {first second : Except Fault α} {next next' : α → Except Fault β}
    (cut : CutOff first second) (rest : ∀ a, CutOff (next a) (next' a)) :
    CutOff (first >>= next) (second >>= next') := by
  rcases cut with rfl | rfl
  · exact .inl rfl
  · cases first with
    | error fault => exact .refl _
    | ok a => exact rest a

theorem CutOff.foldlM {f f' : β → α → Except Fault β} {items : List α}
    (step : ∀ item ∈ items, ∀ acc, CutOff (f acc item) (f' acc item)) (init : β) :
    CutOff (items.foldlM f init) (items.foldlM f' init) := by
  induction items generalizing init with
  | nil => exact .refl _
  | cons item rest ih =>
    rw [List.foldlM_cons, List.foldlM_cons]
    exact (step item List.mem_cons_self init).bind
      fun acc => ih (fun other member => step other (List.mem_cons_of_mem _ member)) acc

theorem CutOff.mergeWith {flatten flatten' : Node → Except Fault (Option Node)}
    (each : ∀ member ∈ members, CutOff (flatten member) (flatten' member)) :
    CutOff (mergeWith flatten members) (mergeWith flatten' members) := by
  refine CutOff.bind (CutOff.foldlM (fun member listed acc => ?_) none) fun _ => .refl _
  exact (each member listed).bind fun _ => .refl _

/-- More depth changes nothing but where the depth was used up. -/
theorem flatten_cutOff {fuel more : Nat} (le : fuel ≤ more) (seen : List Key) (node : Node) :
    CutOff (flatten lookup fuel seen node) (flatten lookup more seen node) := by
  induction fuel generalizing more seen node with
  | zero => exact .inl rfl
  | succ fuel ih =>
    obtain ⟨more, rfl⟩ := Nat.exists_eq_add_of_lt le
    unfold flatten
    split
    · rename_i pointer _
      refine (CutOff.refl pointer.toKey).bind fun key => ?_
      split
      · exact .refl _
      · refine (CutOff.refl (lookup pointer)).bind fun target => ?_
        cases target with
        | none => exact .refl _
        | some target => exact ih (by omega) (key :: seen) target
    · exact (CutOff.mergeWith fun member _ => ih (by omega) seen member).bind fun _ => .refl _
    · exact .refl _

theorem flattenAllOf_cutOff {fuel more : Nat} (le : fuel ≤ more) (node : Node) :
    CutOff (flattenAllOf lookup fuel node) (flattenAllOf lookup more node) := by
  unfold flattenAllOf
  split
  · exact (CutOff.mergeWith fun member _ => flatten_cutOff le [] member).bind fun _ => .refl _
  · exact .refl _

theorem flattenAllOf_stable {fuel more : Nat} (le : fuel ≤ more)
    (ends : flattenAllOf lookup fuel node ≠ .error .tooDeep) :
    flattenAllOf lookup more node = flattenAllOf lookup fuel node :=
  ((flattenAllOf_cutOff le node).resolve_left ends).symm

/-- Merging has one result, whatever depth it was given. -/
theorem flattenAllOf_unique {fuel more : Nat} {other : Node}
    (done : flattenAllOf lookup fuel node = .ok result)
    (otherDone : flattenAllOf lookup more node = .ok other) : result = other := by
  rcases Nat.le_total fuel more with le | le
  · have stable := flattenAllOf_stable le (by simp [done] : flattenAllOf lookup fuel node ≠ _)
    rw [stable, done] at otherDone
    exact Except.ok.inj otherDone
  · have stable := flattenAllOf_stable le (by simp [otherDone] : flattenAllOf lookup more node ≠ _)
    rw [stable, otherDone] at done
    exact (Except.ok.inj done).symm

end Depth

section Ends

variable {texts : List String} {height : Nat}

/-- The references lead, without loss of depth, to nodes of bounded height that refer to nothing
else. -/
structure Closed (lookup : Json → Except Fault (Option Node)) (texts : List String)
    (height : Nat) : Prop where
  ends : ∀ pointer, lookup pointer ≠ .error .tooDeep
  text : ∀ {pointer target}, lookup pointer = .ok (some target) → ∃ p, pointer = .str p
  bounds : ∀ {p target}, p ∈ texts → lookup (.str p) = .ok (some target) →
    target.Within height ∧ target.pointers ⊆ texts

def unseen (texts : List String) (seen : List Key) : Nat :=
  (texts.filter fun p => !seen.any (·.same (.text p))).length

theorem unseen_le (texts : List String) (seen : List Key) : unseen texts seen ≤ texts.length :=
  List.length_filter_le _ _

theorem length_filter_lt {items : List α} {holds holds' : α → Bool} {item : α}
    (weaker : ∀ other, holds other = true → holds' other = true) (member : item ∈ items)
    (kept : holds' item = true) (lost : holds item = false) :
    (items.filter holds).length < (items.filter holds').length := by
  have split : items.filter holds = (items.filter holds').filter holds := by
    rw [List.filter_filter]
    refine List.filter_congr fun other _ => ?_
    rw [Bool.eq_iff_iff, Bool.and_eq_true]
    exact ⟨fun own => ⟨own, weaker other own⟩, And.left⟩
  rw [split, List.length_filter_lt_length_iff_exists]
  exact ⟨item, List.mem_filter.mpr ⟨member, kept⟩, by simp [lost]⟩

theorem unseen_cons_lt {seen : List Key} {p : String} (member : p ∈ texts)
    (fresh : seen.any (·.same (.text p)) = false) :
    unseen texts (.text p :: seen) < unseen texts seen :=
  length_filter_lt (by simp_all) member (by simp [fresh]) (by simp [Key.same])

theorem toKey_ends (pointer : Json) : pointer.toKey ≠ .error .tooDeep := by
  unfold Json.toKey
  split <;> simp

/-- A chain takes each reference once, and between two of them it goes down one node. -/
theorem flatten_ends (closed : Closed lookup texts height) {fuel depth : Nat} {seen : List Key}
    (within : node.Within depth) (refers : node.pointers ⊆ texts)
    (enough : unseen texts seen * (height + 1) + depth ≤ fuel) :
    flatten lookup fuel seen node ≠ .error .tooDeep := by
  induction fuel generalizing node depth seen with
  | zero =>
    have := within.pos
    omega
  | succ fuel ih =>
    have := within.pos
    intro failed
    unfold flatten at failed
    split at failed
    · rename_i pointer shape
      rcases except_bind_eq_error.mp failed with unkeyed | ⟨key, keyed, failed⟩
      · exact toKey_ends pointer unkeyed
      · split at failed
        · cases failed
        · rename_i fresh
          rcases except_bind_eq_error.mp failed with unfound | ⟨target, found, deeper⟩
          · exact closed.ends pointer unfound
          · cases target with
            | none => cases deeper
            | some target =>
              obtain ⟨p, rfl⟩ := closed.text found
              cases keyed
              have member : p ∈ texts := refers (mem_pointers_iff.mpr (.inl shape))
              have fewer := unseen_cons_lt member (Bool.eq_false_of_not_eq_true fresh)
              have scaled := Nat.mul_le_mul_right (height + 1) fewer
              rw [Nat.succ_mul] at scaled
              obtain ⟨targetWithin, targetRefers⟩ := closed.bounds member found
              exact ih targetWithin targetRefers (by omega) deeper
    · rename_i members shape
      rcases except_bind_eq_error.mp failed with failed | ⟨_, _, done⟩
      · obtain ⟨member, listed, failed⟩ := mergeWith_error failed
        have part : member ∈ node.shape.parts := by rwa [shape]
        exact ih (within.part part) (List.Subset.trans (pointers_part_subset part) refers)
          (by omega) failed
      · cases done
    · cases failed

theorem flattenAllOf_ends (closed : Closed lookup texts height) {fuel depth : Nat}
    (within : node.Within depth) (refers : node.pointers ⊆ texts)
    (enough : texts.length * (height + 1) + depth ≤ fuel) :
    flattenAllOf lookup fuel node ≠ .error .tooDeep := by
  intro failed
  unfold flattenAllOf at failed
  split at failed
  · rename_i members shape
    rcases except_bind_eq_error.mp failed with failed | ⟨_, _, done⟩
    · obtain ⟨member, listed, failed⟩ := mergeWith_error failed
      have part : member ∈ node.shape.parts := by rwa [shape]
      have scaled := Nat.mul_le_mul_right (height + 1) (unseen_le texts [])
      exact flatten_ends closed (within.part part)
        (List.Subset.trans (pointers_part_subset part) refers) (by omega) failed
    · cases done
  · cases failed

end Ends

end TypedClient.Schema
