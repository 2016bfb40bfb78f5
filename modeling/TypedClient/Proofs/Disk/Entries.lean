import Mathlib
import TypedClient.FileTree

/-! File trees entry by entry. Setting and erasing change one entry, and where a path leads depends
on the directories alone, so that it leads there still when more of them are made. -/
namespace TypedClient.FileTree

section Lookup

variable {entries : List (List String × FileEntry)} {place other : List String} {entry : FileEntry}

theorem lookup_entry : ((place, entry) :: entries).lookup other =
    if other = place then some entry else entries.lookup other := by
  by_cases same : other = place
  · simp [same]
  · simp [List.lookup_cons, beq_false_of_ne same, same]

theorem lookup_replaced :
    (entries.map fun e => if e.1 == place then (e.1, entry) else e).lookup other =
      if other = place then (entries.lookup other).map fun _ => entry else entries.lookup other := by
  induction entries with
  | nil => simp
  | cons e rest ih =>
    obtain ⟨k, v⟩ := e
    rw [List.map_cons, lookup_entry]
    by_cases own : k = place
    · simp only [own, beq_self_eq_true, if_true, lookup_entry, ih]
      split <;> rfl
    · simp only [beq_false_of_ne own, Bool.false_eq_true, if_false, lookup_entry, ih]
      split
      · next found => rw [if_neg (found ▸ own)]
      · rfl

end Lookup

variable {tree before after : FileTree} {place other : List String} {entry : FileEntry}

/-- The root has no entry of its own. -/
theorem ne_nil_of_get? (given : tree.get? place ≠ some .directory) : place ≠ [] := by
  rintro rfl
  exact given rfl

theorem get?_inside (inside : place ≠ []) : tree.get? place = tree.entries.lookup place := by
  simp [get?, inside]

theorem get?_set (inside : place ≠ []) :
    (tree.set place entry).get? other = if other = place then some entry else tree.get? other := by
  by_cases root : other = []
  · subst root
    rw [if_neg inside.symm]
    rfl
  rw [get?_inside root, get?_inside root, set]
  split
  · next listed =>
    rw [lookup_replaced]
    split
    · next same =>
      obtain ⟨e, member, own⟩ := List.any_eq_true.mp listed
      have found : (tree.entries.lookup other).isSome = true :=
        List.lookup_isSome_iff.mpr ⟨e, member, by rw [same, eq_of_beq own, beq_self_eq_true]⟩
      obtain ⟨old, found⟩ := Option.isSome_iff_exists.mp found
      rw [found, Option.map_some]
    · rfl
  · next unlisted =>
    rw [List.lookup_append, lookup_entry, List.lookup_nil]
    split
    · next same =>
      have missing : tree.entries.lookup other = none := by
        rw [List.lookup_eq_none_iff]
        intro e member
        refine bne_iff_ne.mpr fun own => unlisted (List.any_eq_true.mpr ⟨e, member, ?_⟩)
        rw [← own, same, beq_self_eq_true]
      rw [missing, Option.none_or]
    · exact Option.or_none

def Within (before after : FileTree) : Prop :=
  ∀ place, before.get? place = some .directory → after.get? place = some .directory

theorem locate_of_within (within : Within before after) {here parts : List String}
    (found : before.locate here parts = .ok place) : after.locate here parts = .ok place := by
  induction parts generalizing here with
  | nil => exact found
  | cons part rest ih =>
    rw [locate] at found ⊢
    split at found
    · next directory =>
      rw [within here directory]
      dsimp only
      split at found
      · cases found
      · next short =>
        rw [if_neg short]
        exact ih found
    · cases found
    · cases found

theorem placeOf_of_within (within : Within before after) {directory : List String} {path : Path}
    (found : before.placeOf directory path = .ok place) :
    after.placeOf directory path = .ok place := by
  unfold placeOf at found ⊢
  split at found
  · cases found
  next clean =>
  split at found
  · cases found
  next short =>
  rw [if_neg clean, if_neg short]
  exact locate_of_within within found

/-- Components that never go up lead below where they start, one place for each. -/
theorem eq_append_of_locate {here parts : List String} (level : ".." ∉ parts)
    (found : tree.locate here parts = .ok place) : place = here ++ parts := by
  induction parts generalizing here with
  | nil =>
    rw [List.append_nil]
    exact (Except.ok.inj found).symm
  | cons part rest ih =>
    obtain ⟨apart, level⟩ := List.ne_and_not_mem_of_not_mem_cons level
    rw [locate, if_neg (Ne.symm apart)] at found
    split at found
    · split at found
      · cases found
      · rw [ih level found, List.append_assoc, List.singleton_append]
    · cases found
    · cases found

theorem eq_append_of_placeOf {directory : List String} {path : Path} (level : ".." ∉ path.parts)
    (found : tree.placeOf directory path = .ok place) :
    place = (if path.root = "" then directory else []) ++ path.parts := by
  unfold placeOf at found
  split at found
  · cases found
  split at found
  · cases found
  exact eq_append_of_locate level found

end TypedClient.FileTree
