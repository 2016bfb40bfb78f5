import Mathlib
import TypedClient.Module
import TypedClient.Proofs.Session.Outcome

/-! Groups and the mapping of modules. Groups have keys of their own, so a module is lost only where
a group has the key of the shared module. -/
namespace TypedClient.Module

def Apart (keys : List Key) : Prop :=
  keys.Pairwise fun a b => a.same b = false

/-- What grouping keeps: the keys stay apart, and the groups hold given operations only. -/
structure Groups (operations : List Operation) (groups : List (Key × List Operation)) : Prop where
  apart : Apart (groups.map (·.1))
  listed : ∀ group ∈ groups, ∀ op ∈ group.2, op ∈ operations

variable {operations : List Operation} {groups result : List (Key × List Operation)}
  {op : Operation}

theorem not_any_same {entries : List (Key × α)} {key : Key}
    (fresh : ¬ entries.any (·.1.same key) = true) : ∀ entry ∈ entries, entry.1.same key = false := by
  intro entry member
  by_contra same
  exact fresh (List.any_eq_true.mpr ⟨entry, member, by simpa using same⟩)

theorem addToGroup_groups (before : Groups operations groups) (member : op ∈ operations)
    (done : addToGroup groups op = .ok result) : Groups operations result := by
  unfold addToGroup at done
  split at done
  · cases done
  · next tag others tagged =>
    obtain ⟨key, _, done⟩ := except_bind_eq_ok.mp done
    split at done
    · cases done
      constructor
      · have keys : (groups.map fun g => if g.1.same key then (g.1, g.2 ++ [op]) else g).map (·.1) =
            groups.map (·.1) := by
          rw [List.map_map]
          apply List.map_congr_left
          intro group _
          simp only [Function.comp_apply]
          split <;> rfl
        rw [keys]
        exact before.apart
      · intro group grouped other occurs
        obtain ⟨old, listed, rfl⟩ := List.mem_map.mp grouped
        split at occurs
        · rcases List.mem_append.mp occurs with occurs | added
          · exact before.listed old listed other occurs
          · rw [List.mem_singleton.mp added]
            exact member
        · exact before.listed old listed other occurs
    · next fresh =>
      cases done
      constructor
      · rw [List.map_append]
        refine List.pairwise_append.mpr ⟨before.apart, List.pairwise_singleton _ _, ?_⟩
        intro first listed last added
        obtain ⟨group, grouped, rfl⟩ := List.mem_map.mp listed
        rw [List.mem_singleton.mp added]
        exact not_any_same fresh group grouped
      · intro group grouped other occurs
        rcases List.mem_append.mp grouped with grouped | added
        · exact before.listed group grouped other occurs
        · rw [List.mem_singleton.mp added] at occurs
          rw [List.mem_singleton.mp occurs]
          exact member

theorem groupByTag_groups (done : groupByTag operations = .ok groups) :
    Groups operations groups := by
  have start : Groups operations [] := ⟨List.Pairwise.nil, by simp⟩
  exact except_foldlM_keeps
    (fun op member before after fits step => addToGroup_groups fits member step) start done

variable {modules entries : List (Key × Module)} {entry : Key × Module}

def putAll (modules entries : List (Key × Module)) : List (Key × Module) :=
  entries.foldl (fun modules entry => put modules entry.1 entry.2) modules

theorem mem_put {key : Key} {module : Module} (member : entry ∈ put modules key module) :
    (entry ∈ modules ∧ entry.1.same key = false) ∨ entry.2 = module := by
  unfold put at member
  split at member
  · obtain ⟨old, listed, rfl⟩ := List.mem_map.mp member
    split
    · exact .inr rfl
    · next differs => exact .inl ⟨listed, by simpa using differs⟩
  · next fresh =>
    rcases List.mem_append.mp member with listed | added
    · exact .inl ⟨listed, not_any_same fresh entry listed⟩
    · exact .inr (by rw [List.mem_singleton.mp added])

/-- A module that was there stays only if no key is the same as its own. -/
theorem mem_putAll (member : entry ∈ putAll modules entries) :
    (entry ∈ modules ∧ ∀ e ∈ entries, entry.1.same e.1 = false) ∨
      entry.2 ∈ entries.map (·.2) := by
  unfold putAll at member
  induction entries generalizing modules with
  | nil => exact .inl ⟨member, by simp⟩
  | cons first rest ih =>
    rcases ih member with ⟨kept, differs⟩ | later
    · rcases mem_put kept with ⟨listed, first⟩ | same
      · exact .inl ⟨listed, List.forall_mem_cons.mpr ⟨first, differs⟩⟩
      · exact .inr (by simp [same])
    · exact .inr (List.mem_cons_of_mem _ later)

/-- Modules with keys of their own are listed in order. -/
theorem putAll_apart (apart : Apart ((modules ++ entries).map (·.1))) :
    putAll modules entries = modules ++ entries := by
  unfold putAll
  induction entries generalizing modules with
  | nil => simp
  | cons first rest ih =>
    have fresh : ¬ modules.any (·.1.same first.1) = true := by
      rw [List.any_eq_true]
      rintro ⟨entry, member, same⟩
      rw [List.map_append] at apart
      have differs := (List.pairwise_append.mp apart).2.2 entry.1 (List.mem_map_of_mem member)
        first.1 (by simp)
      exact absurd (same.symm.trans differs) (by simp)
    rw [List.foldl_cons, put, if_neg fresh, ih (by simpa using apart)]
    simp

end TypedClient.Module
