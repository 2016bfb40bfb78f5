import TypedClient.Proofs.Builder.Growth
import TypedClient.Proofs.Schema.Merging

/-! Unfolding of `allOf`. A merged node holds copies of what its references lead to, which may be
merged again in turn. Where no reference is pulled back into its own target the unfolded node is a
finite tree: every reference that is pulled in has a rank, and the copies only pull in lower ones. -/
namespace TypedClient

namespace Json

mutual

theorem length_references_le_refCount (value : Json) :
    value.references.length ≤ Builder.refCount value := by
  match value with
  | .arr items => simpa only [references, Builder.refCount] using
      length_referencesOfItems_le_refCount items
  | .obj members => simpa only [references, Builder.refCount] using
      length_referencesOfMembers_le_refCount members
  | .null | .bool _ | .int _ | .float _ | .str _ => simp [references]

theorem length_referencesOfItems_le_refCount (items : List Json) :
    (referencesOfItems items).length ≤ Builder.refCountItems items := by
  match items with
  | [] => simp [referencesOfItems]
  | v :: rest =>
    have := length_references_le_refCount v
    have := length_referencesOfItems_le_refCount rest
    simp only [referencesOfItems, Builder.refCountItems, List.length_append]
    omega

theorem length_referencesOfMembers_le_refCount (members : List (Key × Json)) :
    (referencesOfMembers members).length ≤ Builder.refCountMembers members := by
  match members with
  | [] => simp [referencesOfMembers]
  | (k, v) :: rest =>
    have own : (referenceAt k v).length ≤ if k.same "$ref" then 1 else 0 := by
      cases v with
      | str p => by_cases own : k.same "$ref" = true <;> simp [referenceAt, own]
      | null | bool | int | float | arr | obj => simp [referenceAt]
    have := length_references_le_refCount v
    have := length_referencesOfMembers_le_refCount rest
    simp only [referencesOfMembers, Builder.refCountMembers, List.length_append]
    omega

end

end Json

namespace Schema.Node

variable {node part : Node} {p : String}

/-- An `allOf` that is merged: it does not wrap one reference alone. -/
def merges (node : Node) : Bool :=
  node.isAllOf && node.singleRef?.isNone

/-- The references that are followed when a node is merged into another. -/
def drawn (node : Node) : List String :=
  (match node.shape with
    | .ref (.str p) => [p]
    | _ => []) ++
  if node.isAllOf then node.shape.parts.attach.flatMap fun part => part.val.drawn else []
termination_by sizeOf node
decreasing_by exact sizeOf_part_lt part.property

def pulled (node : Node) : List String :=
  (node.subnodes.filter merges).flatMap drawn

theorem mem_drawn : p ∈ node.drawn ↔
    node.shape = .ref (.str p) ∨ node.isAllOf = true ∧ ∃ part ∈ node.shape.parts, p ∈ part.drawn := by
  rw [drawn, List.mem_append]
  apply or_congr
  · split
    · simp_all [eq_comm]
    · rename_i other
      simp only [List.not_mem_nil, false_iff]
      exact other p
  · split <;> simp_all

theorem Concrete.merges (concrete : node.Concrete) : node.merges = false := by
  rw [Node.merges, concrete.1, Bool.false_and]

theorem mem_pulled :
    p ∈ node.pulled ↔ ∃ other ∈ node.subnodes, other.merges = true ∧ p ∈ other.drawn := by
  simp [pulled, and_assoc]

theorem pulled_part_subset (member : part ∈ node.shape.parts) : part.pulled ⊆ node.pulled := by
  intro p occurs
  obtain ⟨other, inner, pulls⟩ := mem_pulled.mp occurs
  exact mem_pulled.mpr ⟨other, subnodes_part_subset member inner, pulls⟩

theorem drawn_member_subset (isAllOf : node.isAllOf = true) (member : part ∈ node.shape.parts) :
    part.drawn ⊆ node.drawn :=
  fun _ occurs => mem_drawn.mpr (.inr ⟨isAllOf, part, member, occurs⟩)

theorem drawn_subset_pulled (merging : node.merges = true) : node.drawn ⊆ node.pulled :=
  fun _ occurs => mem_pulled.mpr ⟨node, self_mem_subnodes node, merging, occurs⟩

theorem drawn_subset_pointers (node : Node) : node.drawn ⊆ node.pointers := by
  induction node using induction_on_parts with
  | _ node ih =>
    intro p occurs
    rcases mem_drawn.mp occurs with own | ⟨_, part, member, inner⟩
    · exact mem_pointers_iff.mpr (.inl own)
    · exact pointers_part_subset member (ih part member inner)

theorem pulled_subset_pointers (node : Node) : node.pulled ⊆ node.pointers := by
  induction node using induction_on_parts with
  | _ node ih =>
    intro p occurs
    obtain ⟨other, listed, merging, draws⟩ := mem_pulled.mp occurs
    rcases mem_subnodes.mp listed with rfl | ⟨part, member, inner⟩
    · exact drawn_subset_pointers other draws
    · exact pointers_part_subset member
        (ih part member (mem_pulled.mpr ⟨other, inner, merging, draws⟩))

end Schema.Node

namespace Builder

open Schema Schema.Node

variable {document : Json} {node result : Node} {p q : String}

theorem merged_of_plain {env : Env} (plain : node.merges = false) : merged env node = .ok node := by
  rw [merges] at plain
  rw [merged, plain]
  rfl

theorem merged_of_merges {env : Env} (merging : node.merges = true) :
    merged env node = flattenAllOf (lookup env.document) env.fuel node := by
  rw [merges] at merging
  rw [merged, if_pos merging]

section Targets

theorem step_cases {value next : Json} {segment : String}
    (stepped : Pointer.step value segment = .ok (some next)) :
    (∃ members : Members, value = .obj members ∧ members.get? segment = some next) ∨
      ∃ items, value = .arr items ∧ next ∈ items := by
  cases value with
  | obj members => exact .inl ⟨members, rfl, Except.ok.inj stepped⟩
  | arr items =>
    simp only [Pointer.step] at stepped
    split at stepped
    · split at stepped
      · cases stepped
      · split at stepped
        · exact .inr ⟨items, rfl, List.mem_of_getElem? (Except.ok.inj stepped)⟩
        · cases stepped
    · cases stepped
  | _ => cases stepped

/-- What members and items have from the value that holds them, every value has that a walk
reaches. -/
theorem walk_keeps {P : Json → Prop} {value target : Json} {segments : List String}
    (member : ∀ {members : Members} {name v}, P (.obj members) → members.get? name = some v → P v)
    (item : ∀ {items v}, P (.arr items) → v ∈ items → P v)
    (walked : Pointer.walk value segments = .ok (some target)) (start : P value) : P target := by
  induction segments generalizing value with
  | nil =>
    cases walked
    exact start
  | cons segment rest ih =>
    obtain ⟨next, stepped, walked⟩ := except_bind_eq_ok.mp walked
    cases next with
    | none => cases walked
    | some next =>
      apply ih walked
      rcases step_cases stepped with ⟨members, rfl, found⟩ | ⟨items, rfl, listed⟩
      · exact member start found
      · exact item start listed

theorem walk_error {value : Json} {segments : List String} {fault : Fault}
    (failed : Pointer.walk value segments = .error fault) : fault ≠ .tooDeep := by
  induction segments generalizing value with
  | nil => cases failed
  | cons segment rest ih =>
    rcases except_bind_eq_error.mp failed with failed | ⟨next, _, failed⟩
    · unfold Pointer.step at failed
      repeat' split at failed
      all_goals cases failed
      all_goals simp
    · cases next with
      | none => cases failed
      | some next => exact ih failed

theorem resolve_keeps {P : Json → Prop} {pointer : Json} {target : Pointer.Target}
    (member : ∀ {members : Members} {name v}, P (.obj members) → members.get? name = some v → P v)
    (item : ∀ {items v}, P (.arr items) → v ∈ items → P v)
    (resolved : Pointer.resolve pointer document = .ok (some target)) (start : P document) :
    P target.fragment := by
  unfold Pointer.resolve at resolved
  split at resolved
  · cases resolved
  · obtain ⟨value, walked, found⟩ := except_bind_eq_ok.mp resolved
    split at found
    · cases found
      exact walk_keeps member item walked start
    · cases found
      exact walk_keeps member item walked start
    · cases found

theorem resolve_bounds {pointer : Json} {target : Pointer.Target}
    (resolved : Pointer.resolve pointer document = .ok (some target)) :
    target.fragment.size ≤ document.size ∧ target.fragment.references ⊆ document.references := by
  refine resolve_keeps (P := fun v => v.size ≤ document.size ∧ v.references ⊆ document.references)
    ?_ ?_ resolved ⟨Nat.le_refl _, List.Subset.refl _⟩
  · rintro members name v ⟨smaller, refers⟩ found
    exact ⟨(Members.size_lt_of_get? found).le.trans smaller,
      List.Subset.trans (Json.references_get?_subset found) refers⟩
  · rintro items v ⟨smaller, refers⟩ listed
    exact ⟨(Json.size_lt_arr listed).le.trans smaller,
      List.Subset.trans (Json.references_arr_subset listed) refers⟩

theorem resolve_error {pointer : Json} {fault : Fault}
    (failed : Pointer.resolve pointer document = .error fault) : fault ≠ .tooDeep := by
  unfold Pointer.resolve at failed
  split at failed
  · cases failed
  · rcases except_bind_eq_error.mp failed with failed | ⟨value, _, failed⟩
    · exact walk_error failed
    · split at failed <;> cases failed

theorem lookup_eq_some {pointer : Json} : lookup document pointer = .ok (some node) ↔
    ∃ target, Pointer.resolve pointer document = .ok (some target) ∧
      normalize target.fragment target.pointer = .ok node := by
  constructor
  · intro found
    obtain ⟨target, resolved, found⟩ := except_bind_eq_ok.mp found
    cases target with
    | none => cases found
    | some target =>
      obtain ⟨other, normal, same⟩ := except_bind_eq_ok.mp found
      cases same
      exact ⟨target, resolved, normal⟩
  · rintro ⟨target, resolved, normal⟩
    exact except_bind_eq_ok.mpr ⟨_, resolved, except_bind_eq_ok.mpr ⟨_, normal, rfl⟩⟩

theorem lookup_ends (pointer : Json) : lookup document pointer ≠ .error .tooDeep := by
  intro failed
  rcases except_bind_eq_error.mp failed with failed | ⟨target, _, failed⟩
  · exact resolve_error failed rfl
  · cases target with
    | none => cases failed
    | some target =>
      rcases except_bind_eq_error.mp failed with failed | ⟨_, _, done⟩
      · cases normalize_error failed
      · cases done

theorem lookup_bounds {pointer : Json} (found : lookup document pointer = .ok (some node)) :
    node.Within document.size ∧ node.pointers ⊆ document.references := by
  obtain ⟨target, resolved, normal⟩ := lookup_eq_some.mp found
  obtain ⟨smaller, inside⟩ := resolve_bounds resolved
  obtain ⟨within, refers⟩ := normalize_bounds normal
  exact ⟨within.mono smaller, List.Subset.trans refers inside⟩

theorem lookup_closed {texts : List String} {height : Nat} (refers : document.references ⊆ texts)
    (high : document.size ≤ height) : Closed (lookup document) texts height where
  ends := lookup_ends
  text found := by
    obtain ⟨target, resolved, _⟩ := lookup_eq_some.mp found
    exact ⟨target.pointer, resolve_pointer resolved⟩
  bounds _ found := by
    obtain ⟨within, inside⟩ := lookup_bounds found
    exact ⟨within.mono high, List.Subset.trans inside refers⟩

end Targets

section Acyclic

/-- A reference leads to another when its target is that other or wraps it alone, or pulls it in at
any depth. -/
def Leads (document : Json) (p q : String) : Prop :=
  ∃ node, lookup document (.str p) = .ok (some node) ∧
    (asRef? node = some (.str q) ∨ q ∈ node.pulled)

/-- No reference leads back to itself. References may well form cycles through properties, items,
alternatives and references that stand alone. -/
def Acyclic (document : Json) : Prop :=
  ∀ p, ¬ Relation.TransGen (Leads document) p p

theorem mem_drawn_iff_asRef? (plain : node.merges = false) :
    q ∈ node.drawn ↔ asRef? node = some (.str q) := by
  rw [mem_drawn]
  cases wraps : node.singleRef? with
  | some member =>
    obtain ⟨shape, pointer, inner⟩ := singleRef?_eq_some.mp wraps
    have single : q ∈ member.drawn ↔ pointer = .str q := by
      rw [mem_drawn]
      simp [inner, isAllOf]
    simp [asRef?, wraps, inner, shape, Shape.parts, isAllOf, single]
  | none =>
    have notAllOf : node.isAllOf = false := by simpa [merges, wraps] using plain
    cases shape : node.shape <;> simp [asRef?, wraps, shape, notAllOf]

theorem leads_iff : Leads document p q ↔ ∃ node, lookup document (.str p) = .ok (some node) ∧
    (q ∈ node.drawn ∨ q ∈ node.pulled) := by
  refine exists_congr fun node => and_congr_right fun _ => ?_
  cases merging : node.merges with
  | false => rw [mem_drawn_iff_asRef? merging]
  | true =>
    have inside : q ∈ node.drawn → q ∈ node.pulled := fun occurs => drawn_subset_pulled merging occurs
    have alone : asRef? node ≠ some (.str q) := by
      obtain ⟨isAllOf, wraps⟩ := Bool.and_eq_true_iff.mp merging
      obtain ⟨members, shape⟩ := isAllOf_eq_true.mp isAllOf
      simp [asRef?, Option.isNone_iff_eq_none.mp wraps, shape]
    tauto

instance : Decidable (Leads document p q) :=
  match found : lookup document (.str p) with
  | .ok (some node) => decidable_of_iff (q ∈ node.drawn ∨ q ∈ node.pulled) (by
      rw [leads_iff, found]
      simp)
  | .ok none => isFalse (by simp [leads_iff, found])
  | .error _ => isFalse (by simp [leads_iff, found])

theorem Leads.mem_references (leads : Leads document p q) : q ∈ document.references := by
  obtain ⟨node, found, occurs⟩ := leads_iff.mp leads
  apply (lookup_bounds found).2
  rcases occurs with drawn | pulled
  · exact drawn_subset_pointers node drawn
  · exact pulled_subset_pointers node pulled

/-- What is on a cycle is led to, so it is enough to rank the references of the document. -/
theorem acyclic_of_rank (rank : String → Nat)
    (falls : ∀ p ∈ document.references, ∀ q ∈ document.references,
      Leads document p q → rank q < rank p) : Acyclic document := by
  intro p cycle
  have inside {a b : String} (path : Relation.TransGen (Leads document) a b) :
      b ∈ document.references := by
    cases path with
    | single leads | tail _ leads => exact leads.mem_references
  have lower {b : String} (path : Relation.TransGen (Leads document) p b) : rank b < rank p := by
    induction path with
    | single leads => exact falls p (inside cycle) _ leads.mem_references leads
    | tail before leads ih => exact (falls _ (inside before) _ leads.mem_references leads).trans ih
  exact Nat.lt_irrefl _ (lower cycle)

open scoped Classical in
noncomputable def reach (document : Json) (p : String) : Finset String :=
  document.references.toFinset.filter (Relation.TransGen (Leads document) p)

open scoped Classical in
theorem card_reach_le (p : String) : (reach document p).card ≤ document.size :=
  calc (reach document p).card ≤ document.references.toFinset.card := Finset.card_filter_le _ _
    _ ≤ document.references.length := List.toFinset_card_le _
    _ ≤ document.size := Json.length_references_le document

open scoped Classical in
theorem Acyclic.card_reach_lt (acyclic : Acyclic document) (leads : Leads document p q) :
    (reach document q).card < (reach document p).card := by
  apply Finset.card_lt_card
  refine Finset.ssubset_iff_of_subset ?_ |>.mpr ⟨q, ?_, ?_⟩
  · intro other reached
    obtain ⟨listed, path⟩ := Finset.mem_filter.mp reached
    exact Finset.mem_filter.mpr ⟨listed, .head leads path⟩
  · exact Finset.mem_filter.mpr ⟨List.mem_toFinset.mpr leads.mem_references, .single leads⟩
  · exact fun reached => acyclic q (Finset.mem_filter.mp reached).2

end Acyclic

section Weight

variable {texts : List String} {height rank depth : Nat}

/-- A node of bounded height that pulls in references below a rank weighs less than so much for
each rank, and its height. -/
def Lighter (document : Json) (texts : List String) (height weight : Nat) (node : Node) : Prop :=
  ∃ rank depth, node.Within depth ∧ depth ≤ height ∧ node.pointers ⊆ texts ∧
    (∀ q ∈ node.pulled, (reach document q).card < rank) ∧ rank * (height + 1) + depth < weight

theorem Lighter.mono {weight more : Nat} (light : Lighter document texts height weight node)
    (le : weight ≤ more) : Lighter document texts height more node := by
  obtain ⟨rank, depth, within, low, refers, pulls, less⟩ := light
  exact ⟨rank, depth, within, low, refers, pulls, by omega⟩

theorem lighter_part {part : Node} (within : node.Within depth) (low : depth ≤ height)
    (refers : node.pointers ⊆ texts) (pulls : ∀ q ∈ node.pulled, (reach document q).card < rank)
    (member : part ∈ node.shape.parts) :
    Lighter document texts height (rank * (height + 1) + depth) part := by
  have := within.pos
  exact ⟨rank, depth - 1, within.part member, by omega,
    List.Subset.trans (pointers_part_subset member) refers,
    fun q occurs => pulls q (pulled_part_subset member occurs), by omega⟩

def PartsLighter (document : Json) (texts : List String) (height weight : Nat) (node : Node) : Prop :=
  node.Concrete ∧ ∀ part ∈ node.shape.parts, Lighter document texts height weight part

theorem PartsLighter.annotatedBy {weight : Nat} (light : PartsLighter document texts height weight node)
    (notes : Notes) : PartsLighter document texts height weight (node.annotatedBy notes) :=
  light

theorem mergeWith_lighter {flatten : Node → Except Fault (Option Node)} {members : List Node}
    {weight : Nat}
    (each : ∀ member ∈ members, ∀ node, flatten member = .ok (some node) →
      PartsLighter document texts height weight node)
    (done : mergeWith flatten members = .ok result) :
    PartsLighter document texts height weight result := by
  refine mergeWith_keeps ?_ ?_ each done
  · exact ⟨⟨rfl, by simp⟩, by simp [Shape.parts]⟩
  · rintro acc member ⟨concrete, light⟩ ⟨memberConcrete, memberLight⟩
    obtain ⟨overlaid, parts⟩ := overlay_parts concrete memberConcrete
    exact ⟨overlaid, fun part inner => (parts part inner).elim (light part) (memberLight part)⟩

/-- What is merged in is lighter: a part of the node itself, or one of the target of a reference of
lower rank. -/
theorem flatten_lighter (acyclic : Acyclic document) (closed : Closed (lookup document) texts height)
    {fuel : Nat} {seen : List Key} (within : node.Within depth) (low : depth ≤ height)
    (refers : node.pointers ⊆ texts)
    (draws : ∀ q ∈ node.drawn, (reach document q).card < rank)
    (pulls : ∀ q ∈ node.pulled, (reach document q).card < rank)
    (done : flatten (lookup document) fuel seen node = .ok (some result)) :
    PartsLighter document texts height (rank * (height + 1) + depth) result := by
  induction fuel generalizing node depth rank seen result with
  | zero => cases done
  | succ fuel ih =>
    have := within.pos
    unfold flatten at done
    split at done
    case h_1 pointer shape =>
      obtain ⟨key, keyed, done⟩ := except_bind_eq_ok.mp done
      split at done
      · cases done
      · obtain ⟨target, found, deeper⟩ := except_bind_eq_ok.mp done
        cases target with
        | none => cases deeper
        | some target =>
          obtain ⟨p, rfl⟩ := closed.text found
          have lower := draws p (mem_drawn.mpr (.inl shape))
          have leads {q : String} (occurs : q ∈ target.drawn ∨ q ∈ target.pulled) :
              (reach document q).card < (reach document p).card :=
            acyclic.card_reach_lt (leads_iff.mpr ⟨target, found, occurs⟩)
          obtain ⟨targetWithin, targetRefers⟩ :=
            closed.bounds (refers (mem_pointers_iff.mpr (.inl shape))) found
          obtain ⟨concrete, light⟩ := ih targetWithin (Nat.le_refl _) targetRefers
            (fun q occurs => leads (.inl occurs)) (fun q occurs => leads (.inr occurs)) deeper
          have scaled := Nat.mul_le_mul_right (height + 1) lower
          rw [Nat.succ_mul] at scaled
          exact ⟨concrete, fun part member => (light part member).mono (by omega)⟩
    case h_2 members shape =>
      obtain ⟨inner, folded, same⟩ := except_bind_eq_ok.mp done
      cases same
      refine PartsLighter.annotatedBy (mergeWith_lighter (fun member listed flat step => ?_) folded) _
      have part : member ∈ node.shape.parts := by rwa [shape]
      have isAllOf := isAllOf_eq_true.mpr ⟨members, shape⟩
      obtain ⟨concrete, light⟩ := ih (within.part part) (by omega)
        (List.Subset.trans (pointers_part_subset part) refers)
        (fun q occurs => draws q (drawn_member_subset isAllOf part occurs))
        (fun q occurs => pulls q (pulled_part_subset part occurs)) step
      exact ⟨concrete, fun inner member => (light inner member).mono (by omega)⟩
    case h_3 noRef noAllOf =>
      cases done
      exact ⟨⟨isAllOf_eq_false.mpr noAllOf, noRef⟩,
        fun part member => lighter_part within low refers pulls member⟩

/-- Merging an `allOf` takes one more off than its members do. -/
theorem flattenAllOf_lighter (acyclic : Acyclic document)
    (closed : Closed (lookup document) texts height) {fuel : Nat} (within : node.Within depth)
    (low : depth ≤ height) (refers : node.pointers ⊆ texts)
    (draws : ∀ q ∈ node.drawn, (reach document q).card < rank)
    (pulls : ∀ q ∈ node.pulled, (reach document q).card < rank)
    (done : flattenAllOf (lookup document) fuel node = .ok result) :
    PartsLighter document texts height (rank * (height + 1) + (depth - 1)) result := by
  unfold flattenAllOf at done
  split at done
  · rename_i members shape
    obtain ⟨inner, folded, same⟩ := except_bind_eq_ok.mp done
    cases same
    refine PartsLighter.annotatedBy (mergeWith_lighter (fun member listed flat step => ?_) folded) _
    have part : member ∈ node.shape.parts := by rwa [shape]
    have isAllOf := isAllOf_eq_true.mpr ⟨members, shape⟩
    exact flatten_lighter acyclic closed (within.part part) (by omega)
      (List.Subset.trans (pointers_part_subset part) refers)
      (fun q occurs => draws q (drawn_member_subset isAllOf part occurs))
      (fun q occurs => pulls q (pulled_part_subset part occurs)) step
  · cases done

end Weight

section Unfolds

variable {texts : List String} {height fuel weight : Nat}

/-- The node is a tree of bounded depth when every `allOf` in it is merged, and the references left
in it are among the texts. -/
def Unfolds (document : Json) (texts : List String) (fuel : Nat) : Nat → Node → Prop
  | 0, _ => False
  | weight + 1, node =>
    (∀ p, node.shape = .ref (.str p) → p ∈ texts) ∧
    if node.merges then
      flattenAllOf (lookup document) fuel node ≠ .error .tooDeep ∧
      ∀ result, flattenAllOf (lookup document) fuel node = .ok result →
        Unfolds document texts fuel weight result
    else ∀ part ∈ node.shape.parts, Unfolds document texts fuel weight part

theorem Unfolds.mono {more : Nat} (unfolds : Unfolds document texts fuel weight node)
    (le : weight ≤ more) : Unfolds document texts fuel more node := by
  induction weight generalizing node more with
  | zero => exact unfolds.elim
  | succ weight ih =>
    obtain ⟨more, rfl⟩ := Nat.exists_eq_add_of_lt le
    obtain ⟨refers, rest⟩ := unfolds
    refine ⟨refers, ?_⟩
    cases merging : node.merges with
    | true =>
      rw [merging] at rest
      exact ⟨rest.1, fun result done => ih (rest.2 result done) (by omega)⟩
    | false =>
      rw [merging] at rest
      exact fun part member => ih (rest part member) (by omega)

theorem Unfolds.pos (unfolds : Unfolds document texts fuel weight node) : 0 < weight := by
  cases weight with
  | zero => exact unfolds.elim
  | succ weight => exact weight.succ_pos

theorem Unfolds.part {part : Node} (unfolds : Unfolds document texts fuel weight node)
    (plain : node.merges = false) (member : part ∈ node.shape.parts) :
    Unfolds document texts fuel (weight - 1) part := by
  cases weight with
  | zero => exact unfolds.elim
  | succ weight =>
    have parts := unfolds.2
    rw [plain] at parts
    exact parts part member

theorem Unfolds.flattened (unfolds : Unfolds document texts fuel weight node)
    (merging : node.merges = true) :
    flattenAllOf (lookup document) fuel node ≠ .error .tooDeep ∧
      ∀ result, flattenAllOf (lookup document) fuel node = .ok result →
        Unfolds document texts fuel (weight - 1) result := by
  cases weight with
  | zero => exact unfolds.elim
  | succ weight =>
    have rest := unfolds.2
    rwa [merging] at rest

theorem Unfolds.mem_texts (unfolds : Unfolds document texts fuel weight node)
    (shape : node.shape = .ref (.str p)) : p ∈ texts := by
  cases weight with
  | zero => exact unfolds.elim
  | succ weight => exact unfolds.1 p shape

theorem Unfolds.singleRef? {member : Node} (unfolds : Unfolds document texts fuel weight node)
    (wraps : node.singleRef? = some member) : Unfolds document texts fuel (weight - 1) member := by
  have plain : node.merges = false := by simp [merges, wraps]
  obtain ⟨shape, _⟩ := singleRef?_eq_some.mp wraps
  exact unfolds.part plain (by simp [shape, Shape.parts])

theorem Unfolds.asRef?_mem (unfolds : Unfolds document texts fuel weight node)
    (refers : asRef? node = some (.str p)) : p ∈ texts := by
  unfold asRef? at refers
  cases wraps : node.singleRef? with
  | some member =>
    rw [wraps, Option.getD_some] at refers
    split at refers <;> cases refers
    exact (unfolds.singleRef? wraps).mem_texts ‹_›
  | none =>
    rw [wraps, Option.getD_none] at refers
    split at refers <;> cases refers
    exact unfolds.mem_texts ‹_›

/-- The node that a declaration is built from is one tree with the node itself. -/
theorem Unfolds.merged {brandIds : Bool} (unfolds : Unfolds document texts fuel weight node) :
    merged ⟨document, brandIds, fuel⟩ node ≠ .error .tooDeep ∧
      ∀ result, merged ⟨document, brandIds, fuel⟩ node = .ok result →
        Unfolds document texts fuel weight result ∧
          ∀ part ∈ result.shape.parts, Unfolds document texts fuel weight part := by
  cases merging : node.merges with
  | false =>
    rw [merged_of_plain merging]
    refine ⟨by simp, fun result same => ?_⟩
    cases same
    exact ⟨unfolds, fun part member => (unfolds.part merging member).mono (by omega)⟩
  | true =>
    obtain ⟨ends, flat⟩ := unfolds.flattened merging
    rw [merged_of_merges merging]
    refine ⟨ends, fun result done => ?_⟩
    have deeper := flat result done
    exact ⟨deeper.mono (by omega), fun part member =>
      (deeper.part (flattenAllOf_concrete done).merges member).mono (by omega)⟩

theorem Lighter.unfolds (acyclic : Acyclic document)
    (closed : Closed (lookup document) texts height)
    (enough : (texts.length + 1) * (height + 1) ≤ fuel)
    (light : Lighter document texts height weight node) :
    Unfolds document texts fuel weight node := by
  induction weight using Nat.strong_induction_on generalizing node with
  | _ weight ih =>
    obtain ⟨rank, depth, within, low, refers, pulls, less⟩ := light
    have positive := within.pos
    -- a merged node stands one level above its parts, so two levels are taken off at once
    obtain ⟨weight, rfl⟩ : ∃ lower, weight = lower + 2 := ⟨weight - 2, by omega⟩
    refine ⟨fun p shape => refers (mem_pointers_iff.mpr (.inl shape)), ?_⟩
    cases merging : node.merges with
    | false =>
      exact fun part member =>
        ih _ (by omega) ((lighter_part within low refers pulls member).mono (by omega))
    | true =>
      rw [Nat.succ_mul] at enough
      refine ⟨flattenAllOf_ends closed within refers (by omega), fun result done => ?_⟩
      obtain ⟨concrete, parts⟩ := flattenAllOf_lighter acyclic closed within low refers
        (fun q occurs => pulls q (drawn_subset_pulled merging occurs)) pulls done
      refine ⟨fun p shape => absurd shape (concrete.2 _), ?_⟩
      rw [concrete.merges]
      exact fun part member => ih _ (by omega) ((parts part member).mono (by omega))

end Unfolds

end Builder

end TypedClient
