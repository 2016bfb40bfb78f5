import TypedClient.Proofs.NameGraph.Additions

/-! Closures of the graphs that additions make. They are known from the paths along what was added,
so neither the order nor the repetitions of what is given matter, and every loop that looks for
them ends. -/
namespace TypedClient.NameGraph

open Relation

section Paths

variable {graph : NameGraph} {additions : List Addition} {excluded roots : List String}
  {name dep : String}

/-- A path along what the additions say, through names that they know and that are not excluded. -/
structure Route (additions : List Addition) (excluded path : List String) : Prop where
  edges : path.IsChain fun name dep => dep ∈ depsIn additions name
  through : ∀ name ∈ path, name ∈ additions.map (·.name) ∧ name ∉ excluded

theorem open_ofAdditions :
    (ofAdditions additions).Open excluded name ↔ name ∈ additions.map (·.name) ∧ name ∉ excluded := by
  have known : name ∈ (ofAdditions additions).names ↔ name ∈ additions.map (·.name) := by
    rw [← not_iff_not, ← find?_eq_none, (find?_ofAdditions additions).1]
    split <;> simp_all
  rw [Open, known]

/-- A path of open names that starts where a path from the roots ends goes on from the roots. -/
theorem Reaches.along {path : List String} (reaches : Reaches graph excluded roots name)
    (edges : (name :: path).IsChain graph.Edge) (through : ∀ other ∈ path, graph.Open excluded other)
    (last : (name :: path).getLast? = some dep) : Reaches graph excluded roots dep := by
  induction path generalizing name with
  | nil =>
    obtain rfl : name = dep := by simpa using last
    exact reaches
  | cons next path ih =>
    rw [List.isChain_cons_cons] at edges
    rw [List.forall_mem_cons] at through
    exact ih (.step reaches edges.1 through.1) edges.2 through.2 (by simpa using last)

theorem mem_closure_ofAdditions : name ∈ (ofAdditions additions).closure roots excluded ↔
    ∃ path, Route additions excluded path ∧ (∃ root ∈ roots, path.head? = some root) ∧
      path.getLast? = some name := by
  rw [mem_closure]
  constructor
  · intro reaches
    induction reaches with
    | @root name member isOpen =>
      refine ⟨[name], ⟨.singleton _, ?_⟩, ⟨name, member, rfl⟩, rfl⟩
      simpa using open_ofAdditions.mp isOpen
    | @step name other _ edge isOpen ih =>
      obtain ⟨path, route, ⟨root, member, first⟩, last⟩ := ih
      refine ⟨path ++ [other], ⟨?_, ?_⟩, ⟨root, member, ?_⟩, by simp⟩
      · refine List.isChain_append.mpr ⟨route.edges, .singleton _, ?_⟩
        intro a lastA b headB
        obtain rfl : name = a := Option.some.inj (last.symm.trans lastA)
        obtain rfl : other = b := by simpa using headB
        exact edge_ofAdditions.mp edge
      · rw [List.forall_mem_append]
        exact ⟨route.through, by simpa using open_ofAdditions.mp isOpen⟩
      · rw [List.head?_append, first, Option.some_or]
  · rintro ⟨path, route, ⟨root, member, first⟩, last⟩
    obtain ⟨rest, rfl⟩ := List.head?_eq_some_iff.mp first
    have through := List.forall_mem_cons.mp route.through
    refine Reaches.along (.root member (open_ofAdditions.mpr through.1)) ?_ ?_ last
    · exact route.edges.imp fun _ _ => edge_ofAdditions.mpr
    · exact fun other listed => open_ofAdditions.mpr (through.2 other listed)

end Paths

namespace Worklist

variable {graph : NameGraph} {excluded : List String} {before after : Worklist}

def measure (graph : NameGraph) (work : Worklist) : ℕ ×ₗ ℕ :=
  toLex ((graph.names.toFinset \ work.closed.toFinset).card, work.waiting.length)

theorem Turn.measure_lt (turn : Turn graph excluded before after) :
    after.measure graph < before.measure graph := by
  cases turn with
  | drop taken _ =>
    refine Prod.Lex.toLex_lt_toLex.mpr (.inr ⟨rfl, ?_⟩)
    simp [taken.length_eq]
  | @take closed _ _ _ name _ fresh isOpen _ _ =>
    have fewer : graph.names.toFinset \ (name :: closed).toFinset ⊂
        graph.names.toFinset \ closed.toFinset := by
      refine (Finset.ssubset_iff_of_subset ?_).mpr ⟨name, ?_, by simp⟩
      · exact Finset.sdiff_subset_sdiff subset_rfl (by simp)
      · simpa using ⟨isOpen.1, fresh⟩
    exact Prod.Lex.toLex_lt_toLex.mpr (.inl (Finset.card_lt_card fewer))

/-- No loop goes on for ever, cycles or not. -/
theorem turn_wellFounded (graph : NameGraph) (excluded : List String) :
    WellFounded fun after before => Turn graph excluded before after :=
  Subrelation.wf Turn.measure_lt (InvImage.wf (measure graph) wellFounded_lt)

/-- A loop is over only where no name waits. -/
theorem exists_turn (nonempty : before.waiting ≠ []) : ∃ after, Turn graph excluded before after := by
  obtain ⟨closed, waiting⟩ := before
  obtain ⟨name, rest, rfl⟩ := List.exists_cons_of_ne_nil nonempty
  by_cases passed : name ∈ closed ∨ ¬ graph.Open excluded name
  · exact ⟨_, .drop (.refl _) passed⟩
  · push Not at passed
    obtain ⟨node, found⟩ := Option.isSome_iff_exists.mp (Option.ne_none_iff_isSome.mp
      (mt find?_eq_none.mp (not_not_intro passed.2.1)))
    refine ⟨⟨name :: closed, node.deps ++ rest⟩, .take (.refl _) passed.1 passed.2 ?_ ?_⟩
    · exact fun dep member => ⟨node, found, member⟩
    · rintro dep ⟨same, again, member⟩ _ _
      cases again.symm.trans found
      exact member

end Worklist

structure AlikeAdditions (additions others : List Addition) : Prop where
  names : ∀ name, name ∈ others.map (·.name) ↔ name ∈ additions.map (·.name)
  deps : ∀ name dep, dep ∈ depsIn others name ↔ dep ∈ depsIn additions name

theorem AlikeAdditions.route {additions others : List Addition} {excluded without path : List String}
    (alike : AlikeAdditions additions others) (same : ∀ name, name ∈ without ↔ name ∈ excluded) :
    Route others without path ↔ Route additions excluded path := by
  constructor
  · intro route
    refine ⟨route.edges.imp fun a b => (alike.deps a b).mp, fun name member => ?_⟩
    obtain ⟨known, out⟩ := route.through name member
    exact ⟨(alike.names name).mp known, fun listed => out ((same name).mpr listed)⟩
  · intro route
    refine ⟨route.edges.imp fun a b => (alike.deps a b).mpr, fun name member => ?_⟩
    obtain ⟨known, out⟩ := route.through name member
    exact ⟨(alike.names name).mpr known, fun listed => out ((same name).mp listed)⟩

/-- In every graph that additions make, the closure of any roots lists once each name that a path
from a root leads to, along dependencies and through known names that are not excluded. The order
and the repetitions of the roots, of the excluded names, of the additions and of their dependencies
do not matter, nor does it in which order a loop takes what waits: no loop goes on for ever, the
closure is made by one, and every other one ends with the same names. -/
theorem closure_paths (additions : List Addition) (roots excluded : List String) :
    let graph := ofAdditions additions
    let result := graph.closure roots excluded
    (∀ name, name ∈ result ↔ ∃ path, Route additions excluded path ∧
      (∃ root ∈ roots, path.head? = some root) ∧ path.getLast? = some name) ∧
    result.Nodup ∧
    (∀ others more without, AlikeAdditions additions others → (∀ name, name ∈ more ↔ name ∈ roots) →
      (∀ name, name ∈ without ↔ name ∈ excluded) →
      ((ofAdditions others).closure more without).Perm result) ∧
    (WellFounded fun after before => Worklist.Turn graph excluded before after) ∧
    ReflTransGen (Worklist.Turn graph excluded) ⟨[], roots⟩ ⟨result, []⟩ ∧
    ∀ last, ReflTransGen (Worklist.Turn graph excluded) ⟨[], roots⟩ last →
      (∀ next, ¬ Worklist.Turn graph excluded last next) → last.closed.Perm result := by
  intro graph result
  refine ⟨fun _ => mem_closure_ofAdditions, closure_nodup _ _ _, ?_, Worklist.turn_wellFounded _ _,
    Worklist.turns_closeFrom _ _ _ _, ?_⟩
  · intro others more without alike sameRoots sameOut
    refine (List.perm_ext_iff_of_nodup (closure_nodup _ _ _) (closure_nodup _ _ _)).mpr fun name => ?_
    rw [mem_closure_ofAdditions, mem_closure_ofAdditions]
    simp only [alike.route sameOut, sameRoots]
  · rintro ⟨closed, waiting⟩ turns stuck
    obtain rfl : waiting = [] := by
      by_contra nonempty
      have goes : ∃ next, Worklist.Turn graph excluded ⟨closed, waiting⟩ next :=
        Worklist.exists_turn nonempty
      exact not_exists.mpr stuck goes
    have underway := (Worklist.underway_start graph excluded roots).run turns
    refine (List.perm_ext_iff_of_nodup underway.distinct (closure_nodup _ _ _)).mpr fun name => ?_
    rw [underway.mem_closed, mem_closure]

end TypedClient.NameGraph
