import TypedClient.Module
import TypedClient.Proofs.Store.Selection

/-! What groups of operations need and share. The names of a group hold what they depend on, and so
do the names that several groups share; what is written for either is exactly those names. -/
namespace TypedClient

namespace Store

variable {store : Store} {name : String} {f : Declaration → Declaration}

/-- A change that neither the graph nor the references see. -/
structure Unseen (f : Declaration → Declaration) : Prop where
  name : ∀ d, (f d).name = d.name
  order : ∀ d, (f d).order = d.order
  kind : ∀ d, (f d).kind = d.kind
  type : ∀ d, (f d).type = d.type
  body : ∀ d, (f d).body = d.body

namespace Unseen

theorem aliases (unseen : Unseen f) : (store.update name f).aliases = store.aliases := by
  unfold Store.aliases
  rw [update, List.filterMap_map]
  apply List.filterMap_congr
  intro d _
  by_cases same : d.name = name <;> simp [same, unseen.kind, unseen.body, unseen.name]

theorem dependsOn (unseen : Unseen f) (d : Declaration) :
    (store.update name f).dependsOn d = store.dependsOn d := by
  simp [Store.dependsOn, unseen.aliases]

theorem graph (unseen : Unseen f) : (store.update name f).graph = store.graph := by
  unfold Store.graph
  have declarations : (store.update name f).declarations =
      store.declarations.map fun d => if d.name == name then f d else d := rfl
  rw [declarations, List.foldl_map]
  congr 1
  funext g d
  rw [unseen.dependsOn]
  split
  · simp [Store.dependsOn, Declaration.refs, unseen.name, unseen.order, unseen.type, unseen.body]
  · rfl

theorem evolves (unseen : Unseen f) (sound : store.Sound) : Evolves store (store.update name f) := by
  have soundAfter : (store.update name f).Sound := by
    apply sound.update unseen.name unseen.order
    · exact fun d _ _ => by rw [unseen.kind]
    · exact fun d member _ type typed => sound.fits d member type (by rwa [unseen.type] at typed)
    · exact fun d member _ body wraps => sound.bodies d member body (by rwa [unseen.body] at wraps)
    · exact fun d member _ => by rw [unseen.kind, unseen.body]; exact sound.tagged d member
  refine ⟨soundAfter, ?_, List.prefix_refl _, ?_⟩
  · rw [names_update unseen.name]
  · intro d member _
    by_cases same : d.name = name
    · exact ⟨f d, mem_update.mpr (.inl ⟨d, member, same, rfl⟩), unseen.name d, unseen.body d⟩
    · exact ⟨d, mem_update.mpr (.inr ⟨member, same⟩), rfl, rfl⟩

end Unseen

theorem unseen_share : Unseen fun d => { d with shared := true } := by
  constructor <;> intro <;> rfl

theorem graph_markShared (store : Store) (names : List String) :
    (store.markShared names).graph = store.graph := by
  unfold markShared
  induction names generalizing store with
  | nil => rfl
  | cons name rest ih => rw [List.foldl_cons, ih, unseen_share.graph]

theorem markShared_evolves (sound : store.Sound) (names : List String) :
    Evolves store (store.markShared names) := by
  unfold markShared
  induction names generalizing store with
  | nil => exact .refl sound
  | cons name rest ih =>
    have first : Evolves store (store.update name fun d => { d with shared := true }) :=
      unseen_share.evolves sound
    exact first.trans (ih first.sound)

/-- Names that hold what they depend on are what is written for them. -/
theorem names_selection_of_closed {names excluded : List String} (sound : store.Sound)
    (declared : ∀ name ∈ names, name ∈ store.names ∧ name ∉ excluded)
    (closed : ∀ d ∈ store.declarations, d.name ∈ names → ∀ other ∈ store.dependsOn d,
      other ∈ names ∨ other ∈ excluded) :
    name ∈ (store.selection (some names) excluded).map (·.name) ↔ name ∈ names := by
  rw [mem_names_selection sound, ← NameGraph.mem_closure]
  apply NameGraph.mem_closure_of_closed
  · intro root member
    exact ⟨(names_graph sound.distinct).symm ▸ (declared root member).1, (declared root member).2⟩
  · intro root member other edge isOpen
    obtain ⟨d, listed, rfl, depends⟩ := (edge_graph sound).mp edge
    exact (closed d listed member other depends).resolve_right isOpen.2

end Store

namespace Module

variable {store : Store} {group : Key × List Operation} {groups : List (Key × List Operation)}
  {name : String}

theorem declared_of_mem_groupNames (sound : store.Sound) (member : name ∈ groupNames store group) :
    name ∈ store.names :=
  Store.names_graph sound.distinct ▸ (NameGraph.mem_closure.mp member).isOpen.1

/-- The names of the operations themselves are among those that the group needs. -/
theorem mem_groupNames_of_schemaNames (sound : store.Sound) {op : Operation}
    (member : op ∈ group.2) (listed : name ∈ op.schemaNames) (declared : name ∈ store.names) :
    name ∈ groupNames store group :=
  NameGraph.mem_closure.mpr (.root (List.mem_flatMap.mpr ⟨op, member, listed⟩)
    ⟨(Store.names_graph sound.distinct).symm ▸ declared, by simp⟩)

theorem groupNames_closed (sound : store.Sound) {d : Declaration} (listed : d ∈ store.declarations)
    (member : d.name ∈ groupNames store group) {other : String}
    (depends : other ∈ store.dependsOn d) : other ∈ groupNames store group := by
  have declared := Store.dependsOn_subset sound listed depends
  exact NameGraph.mem_closure.mpr (.step (NameGraph.mem_closure.mp member)
    ((Store.edge_graph sound).mpr ⟨d, listed, rfl, depends⟩)
    ⟨(Store.names_graph sound.distinct).symm ▸ declared, by simp⟩)

theorem groupNames_markShared (store : Store) (names : List String) :
    groupNames (store.markShared names) = groupNames store := by
  funext group
  simp only [groupNames, Store.closure, Store.graph_markShared]

/-- The names that two or more groups need. -/
def commonNames (store : Store) (groups : List (Key × List Operation)) : List String :=
  sharedNames (groups.map (groupNames store))

theorem exists_group_of_several
    (several : 2 ≤ groups.countP fun group => (groupNames store group).contains name) :
    ∃ group ∈ groups, name ∈ groupNames store group := by
  obtain ⟨group, listed, needs⟩ :=
    List.countP_pos_iff.mp (Nat.lt_of_lt_of_le Nat.zero_lt_two several)
  exact ⟨group, listed, List.contains_iff_mem.mp needs⟩

theorem mem_commonNames : name ∈ commonNames store groups ↔
    2 ≤ groups.countP fun group => (groupNames store group).contains name := by
  have same : ((groups.map (groupNames store)).map Schema.distinct).countP (·.contains name) =
      groups.countP fun group => (groupNames store group).contains name := by
    rw [List.countP_map, List.countP_map]
    congr 1
    funext group
    rw [Bool.eq_iff_iff]
    simp only [Function.comp_apply, List.contains_iff_mem, Schema.mem_distinct]
  simp only [commonNames, sharedNames, List.mem_filter, decide_eq_true_eq, same,
    Schema.mem_distinct]
  constructor
  · exact fun member => member.2
  · intro several
    refine ⟨?_, several⟩
    obtain ⟨group, listed, needs⟩ := exists_group_of_several several
    exact List.mem_flatten.mpr ⟨Schema.distinct (groupNames store group),
      List.mem_map_of_mem (List.mem_map_of_mem listed), Schema.mem_distinct.mpr needs⟩

/-- What a shared name depends on is shared by the same groups. -/
theorem commonNames_closed (sound : store.Sound) {d : Declaration}
    (listed : d ∈ store.declarations) (member : d.name ∈ commonNames store groups)
    {other : String} (depends : other ∈ store.dependsOn d) : other ∈ commonNames store groups := by
  refine mem_commonNames.mpr ((mem_commonNames.mp member).trans (List.countP_mono_left ?_))
  intro group _ needs
  rw [List.contains_iff_mem] at needs ⊢
  exact groupNames_closed sound listed needs depends

theorem commonNames_single (single : groups.length < 2) : commonNames store groups = [] := by
  refine List.eq_nil_iff_forall_not_mem.mpr fun name member => ?_
  have several := mem_commonNames.mp member
  have bound := List.countP_le_length (p := fun g => (groupNames store g).contains name)
    (l := groups)
  omega

def ownNames (store : Store) (common : List String) (group : Key × List Operation) : List String :=
  (groupNames store group).filter fun name => !common.contains name

theorem mem_ownNames {common : List String} :
    name ∈ ownNames store common group ↔ name ∈ groupNames store group ∧ name ∉ common := by
  simp [ownNames]

theorem names_selection_common (sound : store.Sound) :
    name ∈ (store.selection (some (commonNames store groups)) []).map (·.name) ↔
      name ∈ commonNames store groups := by
  apply Store.names_selection_of_closed sound
  · intro name member
    obtain ⟨group, _, needs⟩ := exists_group_of_several (mem_commonNames.mp member)
    exact ⟨declared_of_mem_groupNames sound needs, by simp⟩
  · exact fun d listed member other depends => .inl (commonNames_closed sound listed member depends)

theorem names_selection_own (sound : store.Sound) :
    name ∈ (store.selection (some (ownNames store (commonNames store groups) group))
      (commonNames store groups)).map (·.name) ↔
        name ∈ ownNames store (commonNames store groups) group := by
  apply Store.names_selection_of_closed sound
  · intro name member
    obtain ⟨needs, own⟩ := mem_ownNames.mp member
    exact ⟨declared_of_mem_groupNames sound needs, own⟩
  · intro d listed member other depends
    have needs := groupNames_closed sound listed (mem_ownNames.mp member).1 depends
    by_cases shared : other ∈ commonNames store groups
    · exact .inr shared
    · exact .inl (mem_ownNames.mpr ⟨needs, shared⟩)

end Module

end TypedClient
