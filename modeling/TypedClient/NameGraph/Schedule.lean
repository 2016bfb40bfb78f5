import TypedClient.NameGraph
import TypedClient.Queue

/-! An order in which every name comes after those that it depends on. Names are listed one by one:
those that wait for nothing stand in a queue, and where it is empty a cycle is broken. -/
namespace TypedClient

namespace NameGraph

/-- The names of a selection with the dependencies inside it. -/
def select (graph : NameGraph) (names : List String) : NameGraph :=
  ⟨names.eraseDups.map fun name => ⟨name, graph.place name,
    (graph.deps name).filter fun dep => names.contains dep && dep != name⟩⟩

/-- The names that depend on each name. -/
def reversed (graph : NameGraph) : NameGraph :=
  ⟨graph.nodes.map fun node =>
    { node with deps := (graph.nodes.filter (·.deps.contains node.name)).map (·.name) }⟩

/-- Takes a name out of what another one depends on. -/
def discard (graph : NameGraph) (name dep : String) : NameGraph :=
  ⟨graph.nodes.map fun n =>
    if n.name == name then { n with deps := n.deps.filter (· != dep) } else n⟩

theorem workLeft_discard_le (nodes : List NameNode) (name dep : String) :
    workLeft [] (discard ⟨nodes⟩ name dep).nodes ≤ workLeft [] nodes := by
  induction nodes with
  | nil => exact Nat.le_refl _
  | cons node rest ih =>
    have fewer := List.length_filter_le (· != dep) node.deps
    simp only [discard, workLeft, List.map_cons, List.not_mem_nil, if_false] at ih ⊢
    split
    · dsimp only
      omega
    · omega

theorem workLeft_discard {graph : NameGraph} {name dep : String} (depends : dep ∈ graph.deps name) :
    workLeft [] (graph.discard name dep).nodes < workLeft [] graph.nodes := by
  obtain ⟨nodes⟩ := graph
  induction nodes with
  | nil => cases depends
  | cons node rest ih =>
    simp only [discard, workLeft, List.map_cons, List.not_mem_nil, if_false] at ih ⊢
    by_cases same : node.name == name
    · have found : dep ∈ node.deps := by simpa [deps, find?, same] using depends
      have fewer : (node.deps.filter (· != dep)).length < node.deps.length :=
        List.length_filter_lt_length_iff_exists.mpr ⟨dep, found, by simp⟩
      have others := workLeft_discard_le rest name dep
      simp only [discard] at others
      simp only [same, if_true]
      omega
    · have later := ih (by simpa [deps, find?, same] using depends)
      simp only [same, if_false, Bool.false_eq_true]
      omega

def entryOf (graph : NameGraph) (name : String) : QueueEntry :=
  ⟨graph.place name, name⟩

/-- Looks for a name behind those on the stack. -/
def reachesFrom (graph : NameGraph) (target : String) (seen : List String) : List String → Bool
  | [] => false
  | name :: stack =>
    if name = target then true
    else if _seen : name ∈ seen then reachesFrom graph target seen stack
    else reachesFrom graph target (name :: seen) (graph.deps name ++ stack)
termination_by stack => workLeft seen graph.nodes + stack.length
decreasing_by
  · simp
  · have left := workLeft_deps graph _seen
    simp only [List.length_append, List.length_cons]
    omega

/-- A path of at least one dependency leads from the first name to the second. -/
def reaches (graph : NameGraph) (start target : String) : Bool :=
  reachesFrom graph target [] (graph.deps start)

end NameGraph

/-- How far an order of names has come. -/
structure Schedule where
  /-- What each name still waits for. -/
  pending : NameGraph
  /-- The names that wait for nothing. -/
  ready : Queue
  /-- The names that are not listed yet. -/
  remaining : List String

namespace Schedule

def start (graph : NameGraph) : Schedule where
  pending := graph
  ready := .ofList ((graph.nodes.filter (·.deps.isEmpty)).map fun n => ⟨n.order, n.name⟩)
  remaining := graph.names

/-- A name waits no longer for one that is listed. -/
def release (listed : String) (state : Schedule) (waiting : String) : Schedule :=
  if (state.pending.deps waiting).contains listed then
    let pending := state.pending.discard waiting listed
    let free := (pending.deps waiting).isEmpty && state.remaining.contains waiting
    { state with
      pending
      ready := if free then state.ready.push (pending.entryOf waiting) else state.ready }
  else state

/-- Lists a name, which releases those that depend on it. -/
def complete (dependents : NameGraph) (state : Schedule) (name : String) : Schedule :=
  (dependents.deps name).foldl (release name)
    { state with remaining := state.remaining.filter (· != name) }

/-- The names that are left, the first one first. -/
def candidates (state : Schedule) : List String :=
  (Queue.ofList (state.remaining.map state.pending.entryOf)).drain.map (·.name)

/-- The first name that waits for itself, or else the first that is left. -/
def cycleBreaker? (state : Schedule) : Option String :=
  (state.candidates.find? fun name => state.pending.reaches name name).or state.candidates.head?

theorem remaining_release (listed : String) (state : Schedule) (waiting : String) :
    (release listed state waiting).remaining = state.remaining := by
  unfold release
  split <;> rfl

theorem remaining_complete (dependents : NameGraph) (state : Schedule) (name : String) :
    (state.complete dependents name).remaining = state.remaining.filter (· != name) := by
  have kept (names : List String) (state : Schedule) :
      (names.foldl (release name) state).remaining = state.remaining := by
    induction names generalizing state with
    | nil => rfl
    | cons waiting rest ih => rw [List.foldl_cons, ih, remaining_release]
  exact kept _ _

theorem mem_candidates {state : Schedule} {name : String} :
    name ∈ state.candidates ↔ name ∈ state.remaining := by
  simp only [candidates, List.mem_map, (Queue.perm_drain _).mem_iff, Queue.mem_ofList]
  constructor
  · rintro ⟨_, ⟨_, left, rfl⟩, rfl⟩
    exact left
  · exact fun left => ⟨_, ⟨name, left, rfl⟩, rfl⟩

theorem mem_of_cycleBreaker? {state : Schedule} {name : String}
    (chosen : state.cycleBreaker? = some name) : name ∈ state.remaining := by
  refine mem_candidates.mp ?_
  unfold cycleBreaker? at chosen
  rcases Option.or_eq_some_iff.mp chosen with cyclic | ⟨_, first⟩
  · exact List.mem_of_find?_eq_some cyclic
  · exact List.mem_of_mem_head? first

/-- A bound of the steps that are left. Each entry of the queue takes one, and each dependency that
is pending may still lead to an entry. -/
def work (state : Schedule) : Nat :=
  NameGraph.workLeft [] state.pending.nodes + state.ready.size + state.remaining.length

theorem work_release_le (listed : String) (state : Schedule) (waiting : String) :
    (release listed state waiting).work ≤ state.work := by
  unfold release
  split
  · rename_i waits
    have fewer := NameGraph.workLeft_discard (List.contains_iff_mem.mp waits)
    unfold work
    dsimp only
    split
    · rw [Queue.size_push]
      omega
    · omega
  · exact Nat.le_refl _

theorem work_complete (dependents : NameGraph) (state : Schedule) {name : String}
    (left : name ∈ state.remaining) : (state.complete dependents name).work < state.work := by
  have released (names : List String) (state : Schedule) :
      (names.foldl (release name) state).work ≤ state.work := by
    induction names generalizing state with
    | nil => exact Nat.le_refl _
    | cons waiting rest ih => exact Nat.le_trans (ih _) (work_release_le name state waiting)
  have fewer : (state.remaining.filter (· != name)).length < state.remaining.length :=
    List.length_filter_lt_length_iff_exists.mpr ⟨name, left, by simp⟩
  refine Nat.lt_of_le_of_lt (released _ _) ?_
  simp only [work]
  omega

theorem work_of_pop? (state : Schedule) {entry : QueueEntry} {ready : Queue}
    (popped : state.ready.pop? = some (entry, ready)) : { state with ready }.work < state.work := by
  have fewer := Queue.size_of_pop? popped
  simp only [work]
  omega

/-- Lists the names that are left. An entry of a name that is listed already is passed over. -/
def listFrom (dependents : NameGraph) (state : Schedule) : List String :=
  if state.remaining.isEmpty then []
  else match _popped : state.ready.pop? with
    | some (entry, ready) =>
      if _left : entry.name ∈ state.remaining then
        entry.name :: listFrom dependents ({ state with ready }.complete dependents entry.name)
      else listFrom dependents { state with ready }
    | none =>
      match _chosen : state.cycleBreaker? with
      | some name => name :: listFrom dependents (state.complete dependents name)
      | none => []
termination_by state.work
decreasing_by
  · exact Nat.lt_trans (work_complete dependents { state with ready } _left)
      (work_of_pop? state _popped)
  · exact work_of_pop? state _popped
  · exact work_complete dependents state (mem_of_cycleBreaker? _chosen)

end Schedule

/-- Orders names so that each comes after the names that it depends on. Where that is impossible
the first name on a cycle comes next. -/
def NameGraph.topologicalOrder (graph : NameGraph) (names : List String) : List String :=
  let selected := graph.select names
  Schedule.listFrom selected.reversed (.start selected)

end TypedClient
