import TypedClient.Proofs.Json.Key
import TypedClient.Proofs.Schema.Merging

/-! Objects that are laid over each other, seen from outside: the order of their keys, the values
that the keys lead to, and what is required. Keys and names are added one by one unless they are
there, which leaves each at its first place. -/
namespace TypedClient

/-- What the last of the items says that says anything. -/
def lastDefined (f : α → Option β) (items : List α) : Option β :=
  items.reverse.findSome? f

theorem lastDefined_singleton (f : α → Option β) (item : α) : lastDefined f [item] = f item := by
  simp [lastDefined]

theorem lastDefined_append (f : α → Option β) (first second : List α) :
    lastDefined f (first ++ second) = (lastDefined f second).or (lastDefined f first) := by
  simp [lastDefined, List.findSome?_append]

namespace Key

theorem same_symm {a b : Key} (same : a.same b = true) : b.same a = true := by
  obtain ⟨meaning, first, second⟩ := same_iff.mp same
  exact same_iff.mpr ⟨meaning, second, first⟩

theorem same_comm (a b : Key) : a.same b = b.same a :=
  Bool.eq_iff_iff.mpr ⟨same_symm, same_symm⟩

theorem same_trans {a b c : Key} (first : a.same b = true) (second : b.same c = true) :
    a.same c = true :=
  same_of_same (same_symm first) second

end Key

section AddNew

variable {r : α → α → Bool} {x : α} {xs : List α}

def addNew (r : α → α → Bool) (known : List α) (x : α) : List α :=
  if known.any (r x ·) then known else known ++ [x]

/-- What is added one by one stays at its first place. -/
theorem foldl_addNew_nil (r : α → α → Bool) (xs : List α) :
    xs.foldl (addNew r) [] = xs.eraseDupsBy r := by
  have steps : ∀ known, xs.foldl (addNew r) known = List.eraseDupsBy.loop r xs known.reverse := by
    induction xs with
    | nil => simp [List.eraseDupsBy.loop]
    | cons x rest ih =>
      intro known
      rw [List.foldl_cons, ih, addNew, List.eraseDupsBy.loop, List.any_reverse]
      cases known.any (r x ·) <;> simp
  exact steps []

theorem subset_foldl_addNew (r : α → α → Bool) (known xs : List α) :
    known ⊆ xs.foldl (addNew r) known := by
  induction xs generalizing known with
  | nil => exact List.Subset.refl _
  | cons x rest ih =>
    refine List.Subset.trans (fun y member => ?_) (ih _)
    unfold addNew
    split
    · exact member
    · exact List.mem_append_left _ member

variable (trans : ∀ a b c, r a b = true → r b c = true → r a c = true)
include trans

theorem any_foldl_addNew (known : List α) (member : x ∈ xs) {y : α} (like : r y x = true) :
    (xs.foldl (addNew r) known).any (r y ·) = true := by
  induction xs generalizing known with
  | nil => cases member
  | cons first rest ih =>
    rw [List.foldl_cons]
    rcases List.mem_cons.mp member with rfl | later
    · have found : (addNew r known x).any (r y ·) = true := by
        unfold addNew
        split
        · rename_i held
          obtain ⟨z, listed, same⟩ := List.any_eq_true.mp held
          exact List.any_eq_true.mpr ⟨z, listed, trans _ _ _ like same⟩
        · exact List.any_eq_true.mpr ⟨x, by simp, like⟩
      obtain ⟨z, listed, same⟩ := List.any_eq_true.mp found
      exact List.any_eq_true.mpr ⟨z, subset_foldl_addNew r _ rest listed, same⟩
    · exact ih _ later

/-- Entries without repetitions are added like the entries themselves. -/
theorem foldl_addNew_foldl (known others xs : List α) :
    (xs.foldl (addNew r) others).foldl (addNew r) known =
      xs.foldl (addNew r) (others.foldl (addNew r) known) := by
  induction xs generalizing others with
  | nil => rfl
  | cons x rest ih =>
    rw [List.foldl_cons, ih, List.foldl_cons]
    congr 1
    nth_rewrite 1 [addNew]
    split
    · rename_i held
      obtain ⟨y, listed, same⟩ := List.any_eq_true.mp held
      rw [addNew, if_pos (any_foldl_addNew trans known listed same)]
    · rw [List.foldl_append]
      rfl

end AddNew

namespace Schema

theorem distinct_eq_foldl [BEq α] (items : List α) :
    distinct items = items.foldl (addNew (· == ·)) [] := by
  unfold distinct addNew
  simp only [List.contains_eq_any_beq]

section Properties

variable {properties lower upper : List (Key × Node)} {p : Key × Node}

def keysOf (properties : List (Key × Node)) : List Key :=
  properties.map (·.1)

def property? (properties : List (Key × Node)) (key : Key) : Option Node :=
  (properties.find? (·.1.same key)).map (·.2)

theorem property?_cons (p : Key × Node) (rest : List (Key × Node)) (key : Key) :
    property? (p :: rest) key = if p.1.same key then some p.2 else property? rest key := by
  unfold property?
  rw [List.find?_cons]
  cases p.1.same key <;> rfl

theorem property?_eq_none {key : Key} (absent : ∀ p ∈ properties, p.1.same key = false) :
    property? properties key = none := by
  unfold property?
  rw [Option.map_eq_none_iff, List.find?_eq_none]
  exact fun p member => by simp [absent p member]

theorem keysOf_setProperty (properties : List (Key × Node)) (p : Key × Node) :
    keysOf (setProperty properties p) = addNew Key.same (keysOf properties) p.1 := by
  have held : (keysOf properties).any (p.1.same ·) = properties.any (·.1.same p.1) := by
    simp only [keysOf, List.any_map, Function.comp_def, Key.same_comm p.1]
  unfold setProperty addNew
  rw [held]
  split
  · simp only [keysOf, List.map_map]
    refine List.map_congr_left fun q _ => ?_
    simp only [Function.comp_apply]
    split <;> rfl
  · simp [keysOf]

theorem keysOf_foldl_setProperty (lower upper : List (Key × Node)) :
    keysOf (upper.foldl setProperty lower) = (keysOf upper).foldl (addNew Key.same) (keysOf lower) := by
  induction upper generalizing lower with
  | nil => rfl
  | cons p rest ih =>
    rw [List.foldl_cons, ih, keysOf_setProperty]
    rfl

theorem property?_replace (properties : List (Key × Node)) (p : Key × Node) (key : Key) :
    property? (properties.map fun q => if q.1.same p.1 then (q.1, p.2) else q) key =
      if p.1.same key then (property? properties key).map fun _ => p.2
      else property? properties key := by
  induction properties with
  | nil => simp [property?]
  | cons q rest ih =>
    rw [List.map_cons, property?_cons, property?_cons, ih]
    by_cases own : q.1.same p.1 = true
    · have both : q.1.same key = p.1.same key :=
        Bool.eq_iff_iff.mpr ⟨Key.same_trans (Key.same_symm own), Key.same_trans own⟩
      rw [if_pos own, both]
      split <;> rfl
    · have apart : q.1.same key = true → p.1.same key = false := by
        intro found
        by_contra other
        exact own (Key.same_trans found (Key.same_symm (by simpa using other)))
      rw [if_neg own]
      cases found : q.1.same key with
      | true => simp [apart found]
      | false => simp

theorem property?_append (first second : List (Key × Node)) (key : Key) :
    property? (first ++ second) key = (property? first key).or (property? second key) := by
  unfold property?
  rw [List.find?_append]
  cases first.find? (·.1.same key) <;> rfl

/-- A property that is set is found, and hides no other. -/
theorem property?_setProperty (properties : List (Key × Node)) (p : Key × Node) (key : Key) :
    property? (setProperty properties p) key =
      if p.1.same key then some p.2 else property? properties key := by
  unfold setProperty
  split
  · rename_i held
    rw [property?_replace]
    split
    · rename_i own
      obtain ⟨q, member, same⟩ := List.any_eq_true.mp held
      have found : (properties.find? (·.1.same key)).isSome = true :=
        List.find?_isSome.mpr ⟨q, member, Key.same_trans same own⟩
      obtain ⟨old, first⟩ := Option.isSome_iff_exists.mp found
      simp [property?, first]
    · rfl
  · rename_i fresh
    rw [property?_append, property?_cons]
    split
    · rename_i own
      have absent : ∀ q ∈ properties, q.1.same key = false := by
        intro q member
        by_contra found
        refine fresh (List.any_eq_true.mpr ⟨q, member, ?_⟩)
        exact Key.same_trans (by simpa using found) (Key.same_symm own)
      rw [property?_eq_none absent, Option.none_or]
    · exact Option.or_none

/-- Laid over others, properties under keys of their own are found first. -/
theorem property?_foldl_setProperty
    (apart : (keysOf upper).Pairwise fun a b => a.same b = false) (key : Key) :
    property? (upper.foldl setProperty lower) key =
      (property? upper key).or (property? lower key) := by
  induction upper generalizing lower with
  | nil => rfl
  | cons p rest ih =>
    obtain ⟨others, apart⟩ := List.pairwise_cons.mp apart
    rw [List.foldl_cons, ih apart, property?_setProperty, property?_cons]
    split
    · rename_i own
      have absent : ∀ q ∈ rest, q.1.same key = false := by
        intro q member
        by_contra found
        have same := Key.same_trans own (Key.same_symm (by simpa using found))
        rw [others q.1 (List.mem_map_of_mem member)] at same
        cases same
      rw [property?_eq_none absent]
      rfl
    · rfl

theorem pairwise_eraseDupsBy_same (keys : List Key) :
    (keys.eraseDupsBy Key.same).Pairwise fun a b => a.same b = false := by
  have steps : ∀ known : List Key, known.Pairwise (fun a b => a.same b = false) →
      (keys.foldl (addNew Key.same) known).Pairwise fun a b => a.same b = false := by
    induction keys with
    | nil => exact fun _ apart => apart
    | cons key rest ih =>
      intro known apart
      refine ih _ ?_
      unfold addNew
      split
      · exact apart
      · rename_i fresh
        refine List.pairwise_append.mpr ⟨apart, List.pairwise_singleton _ _, fun a listed b last => ?_⟩
        rw [List.mem_singleton.mp last, Key.same_comm]
        by_contra same
        exact fresh (List.any_eq_true.mpr ⟨a, listed, by simpa using same⟩)
  rw [← foldl_addNew_nil]
  exact steps [] .nil

/-- Keys that are all different stay as they are. -/
theorem eraseDupsBy_same_of_pairwise {keys : List Key}
    (apart : keys.Pairwise fun a b => a.same b = false) : keys.eraseDupsBy Key.same = keys := by
  induction keys with
  | nil => rfl
  | cons key rest ih =>
    obtain ⟨others, apart⟩ := List.pairwise_cons.mp apart
    have kept : rest.filter (fun other => decide (other.same key = false)) = rest := by
      refine List.filter_eq_self.mpr fun other member => ?_
      rw [Key.same_comm]
      simpa using others other member
    rw [List.eraseDupsBy_cons, kept, ih apart]

end Properties

section Joined

variable {objects others : List (Fields Node)} {fields lower upper : Fields Node}

/-- What several objects, laid over each other in their order, are together. -/
structure Joins (objects : List (Fields Node)) (fields : Fields Node) : Prop where
  /-- Every key is at its first place. -/
  keys : keysOf fields.properties = (objects.flatMap (keysOf ·.properties)).eraseDupsBy Key.same
  /-- A key leads to what the last object says that has it. -/
  value : ∀ key, property? fields.properties key = lastDefined (property? ·.properties key) objects
  alone : ∀ only, objects = [only] → fields.required = only.required
  required : 2 ≤ objects.length → fields.required = (objects.flatMap (·.required)).eraseDups
  explicit : fields.explicit = objects.any (·.explicit)
  additional : fields.additional = lastDefined (·.additional) objects

theorem joins_singleton
    (apart : (keysOf fields.properties).Pairwise fun a b => a.same b = false) :
    Joins [fields] fields where
  keys := by simp [eraseDupsBy_same_of_pairwise apart]
  value key := by rw [lastDefined_singleton]
  alone only same := by rw [List.singleton_inj.mp same]
  required many := by simp at many
  explicit := by simp
  additional := (lastDefined_singleton _ fields).symm

namespace Joins

theorem pairwise (joins : Joins objects fields) :
    (keysOf fields.properties).Pairwise fun a b => a.same b = false := by
  rw [joins.keys]
  exact pairwise_eraseDupsBy_same _

/-- Repetitions aside, all is required that one of the objects requires. -/
theorem foldl_required (joins : Joins objects fields) (nonempty : objects ≠ []) (known : List String) :
    fields.required.foldl (addNew (· == ·)) known =
      (objects.flatMap (·.required)).foldl (addNew (· == ·)) known := by
  cases objects with
  | nil => exact absurd rfl nonempty
  | cons first rest =>
    cases rest with
    | nil => simp [joins.alone first rfl]
    | cons second rest =>
      have distinct := (joins.required (by simp)).trans (foldl_addNew_nil (· == ·) _).symm
      rw [distinct, foldl_addNew_foldl fun a b c => by simp_all]
      rfl

/-- Objects are laid over each other in any grouping. -/
theorem overlay (first : Joins objects lower) (second : Joins others upper)
    (nonempty : objects ≠ []) (more : others ≠ []) :
    Joins (objects ++ others) (lower.overlay upper) where
  keys := by
    have keys : keysOf (lower.overlay upper).properties = _ :=
      keysOf_foldl_setProperty lower.properties upper.properties
    rw [keys, first.keys, second.keys, ← foldl_addNew_nil, ← foldl_addNew_nil, ← foldl_addNew_nil,
      foldl_addNew_foldl (r := Key.same) fun _ _ _ => Key.same_trans, List.flatMap_append, List.foldl_append]
    rfl
  value key := by
    rw [lastDefined_append, ← first.value, ← second.value]
    exact property?_foldl_setProperty second.pairwise key
  alone only same := by
    have total := congrArg List.length same
    rw [List.length_append, List.length_singleton] at total
    have := List.length_pos_of_ne_nil nonempty
    have := List.length_pos_of_ne_nil more
    omega
  required _ := by
    have required : (lower.overlay upper).required = _ := distinct_eq_foldl _
    rw [required, List.foldl_append, first.foldl_required nonempty, second.foldl_required more,
      ← List.foldl_append, ← List.flatMap_append]
    exact foldl_addNew_nil _ _
  explicit := by
    rw [List.any_append, ← first.explicit, ← second.explicit]
    rfl
  additional := by
    rw [lastDefined_append, ← first.additional, ← second.additional]
    exact Option.orElse_eq_or

end Joins

end Joined

end Schema

end TypedClient
