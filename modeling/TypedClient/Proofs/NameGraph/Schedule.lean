import TypedClient.NameGraph.Schedule
import TypedClient.Proofs.NameGraph.Closure
import TypedClient.Proofs.NameGraph.Greedy

/-! The loop behind an order of names. Its queue holds the names that are ready, among entries that
are passed over, and what it keeps of dependencies is what is still waited for. That is all it needs
to follow the greedy rule. -/
namespace TypedClient

namespace NameGraph

open Relation

variable {graph : NameGraph} {names : List String} {name dep other target : String}

theorem edge_iff_mem_deps : graph.Edge name dep ↔ dep ∈ graph.deps name := by
  unfold Edge deps
  cases graph.find? name <;> simp

section Paths

variable {seen stack : List String}

theorem path_of_reachesFrom (found : reachesFrom graph target seen stack = true) :
    ∃ name ∈ stack, ReflTransGen graph.Edge name target := by
  fun_induction reachesFrom graph target seen stack with
  | case1 seen => cases found
  | case2 seen stack => exact ⟨target, List.mem_cons_self, .refl⟩
  | case3 seen name stack other known ih =>
    obtain ⟨start, waits, path⟩ := ih found
    exact ⟨start, List.mem_cons_of_mem _ waits, path⟩
  | case4 seen name stack other fresh ih =>
    obtain ⟨start, waits, path⟩ := ih found
    rcases List.mem_append.mp waits with dep | waits
    · exact ⟨name, List.mem_cons_self, .head (edge_iff_mem_deps.mpr dep) path⟩
    · exact ⟨start, List.mem_cons_of_mem _ waits, path⟩

/-- What has been seen is not the target, and what it depends on has been seen or waits. So where
the search fails, no path leads on from there to the target. -/
theorem no_path_of_reachesFrom (failed : reachesFrom graph target seen stack = false)
    (passed : target ∉ seen)
    (whole : ∀ name ∈ seen, ∀ dep ∈ graph.deps name, dep ∈ seen ∨ dep ∈ stack)
    (start : name ∈ seen ∨ name ∈ stack) : ¬ ReflTransGen graph.Edge name target := by
  fun_induction reachesFrom graph target seen stack with
  | case1 seen =>
    intro path
    refine passed ?_
    clear passed failed
    induction path with
    | refl => simpa using start
    | tail _ edge ih => simpa using whole _ ih _ (edge_iff_mem_deps.mp edge)
  | case2 seen stack => cases failed
  | case3 seen first stack other known ih =>
    refine ih failed passed (fun name member dep waits => ?_) ?_
    · have := whole name member dep waits
      grind
    · grind
  | case4 seen first stack other fresh ih =>
    refine ih failed (by grind) (fun name member dep waits => ?_) ?_
    · rcases List.mem_cons.mp member with rfl | member
      · exact .inr (List.mem_append_left _ waits)
      · have := whole name member dep waits
        grind
    · grind

theorem reaches_iff : graph.reaches name target = true ↔ TransGen graph.Edge name target := by
  rw [TransGen.head'_iff]
  constructor
  · intro found
    obtain ⟨dep, waits, path⟩ := path_of_reachesFrom found
    exact ⟨dep, edge_iff_mem_deps.mpr waits, path⟩
  · rintro ⟨dep, edge, path⟩
    by_contra failed
    exact no_path_of_reachesFrom (Bool.not_eq_true _ ▸ failed) (by simp) (by simp)
      (.inr (edge_iff_mem_deps.mp edge)) path

end Paths

section Changes

theorem find?_discard (graph : NameGraph) (name dep other : String) :
    (graph.discard name dep).find? other = (graph.find? other).map fun node =>
      if node.name == name then { node with deps := node.deps.filter (· != dep) } else node := by
  have named (node : NameNode) :
      (if node.name == name then { node with deps := node.deps.filter (· != dep) }
        else node).name = node.name := by
    split <;> rfl
  unfold find? discard
  simp only [List.find?_map, Function.comp_def, named]

theorem deps_discard (graph : NameGraph) (name dep other : String) :
    (graph.discard name dep).deps other =
      if other = name then (graph.deps other).filter (· != dep) else graph.deps other := by
  unfold deps
  rw [find?_discard]
  cases found : graph.find? other with
  | none => simp
  | some node =>
    obtain rfl := name_of_find? found
    by_cases own : node.name = name <;> simp [own]

theorem place_discard (graph : NameGraph) (name dep other : String) :
    (graph.discard name dep).place other = graph.place other := by
  unfold place
  rw [find?_discard]
  cases graph.find? other with
  | none => rfl
  | some node =>
    simp only [Option.map_some, Option.getD_some]
    split <;> rfl

theorem find?_select (graph : NameGraph) (names : List String) (name : String) :
    (graph.select names).find? name = if name ∈ names then some ⟨name, graph.place name,
      (graph.deps name).filter fun dep => names.contains dep && dep != name⟩ else none := by
  unfold find? select
  rw [List.find?_map]
  simp only [Function.comp_def]
  split
  · rename_i asked
    have found : (names.eraseDups.find? (· == name)) = some name := by
      cases searched : names.eraseDups.find? (· == name) with
      | none => simpa [asked] using List.find?_eq_none.mp searched name (by simpa using asked)
      | some other => simpa using List.find?_some searched
    rw [found]
    rfl
  · rename_i unasked
    rw [Option.map_eq_none_iff, List.find?_eq_none]
    intro other asked same
    exact unasked (by simpa [eq_of_beq same] using asked)

theorem mem_deps_select : dep ∈ (graph.select names).deps name ↔
    name ∈ names ∧ dep ∈ names ∧ dep ≠ name ∧ graph.Edge name dep := by
  rw [edge_iff_mem_deps, deps, find?_select]
  split
  · simp only [Option.map_some, Option.getD_some, List.mem_filter, Bool.and_eq_true,
      List.contains_iff_mem, bne_iff_ne]
    tauto
  · simp_all

theorem place_select (asked : name ∈ names) : (graph.select names).place name = graph.place name := by
  simp [place, find?_select, asked]

theorem nodup_eraseDups (names : List String) : names.eraseDups.Nodup := by
  induction hn : names.length using Nat.strong_induction_on generalizing names with
  | _ n ih =>
    cases names with
    | nil => simp
    | cons name rest =>
      have shorter : (rest.filter fun b => !b == name).length < n := by
        have := List.length_filter_le (fun b => !b == name) rest
        rw [← hn, List.length_cons]
        omega
      rw [List.eraseDups_cons]
      refine List.nodup_cons.mpr ⟨?_, ih _ shorter _ rfl⟩
      simp [List.mem_eraseDups]

theorem names_select (graph : NameGraph) (names : List String) :
    (graph.select names).names = names.eraseDups := by
  simp [select, NameGraph.names, Function.comp_def]

theorem select_nodup (graph : NameGraph) (names : List String) : (graph.select names).names.Nodup :=
  names_select graph names ▸ nodup_eraseDups names

theorem find?_reversed (graph : NameGraph) (name : String) :
    graph.reversed.find? name = (graph.find? name).map fun node =>
      { node with deps := (graph.nodes.filter (·.deps.contains node.name)).map (·.name) } := by
  unfold find? reversed
  rw [List.find?_map]
  rfl

theorem mem_deps_reversed (distinct : graph.names.Nodup) (known : name ∈ graph.names) :
    other ∈ graph.reversed.deps name ↔ graph.Edge other name := by
  cases found : graph.find? name with
  | none => exact absurd known (find?_eq_none.mp found)
  | some node =>
    obtain rfl := name_of_find? found
    simp only [deps, find?_reversed, found, Option.map_some, Option.getD_some, List.mem_map,
      List.mem_filter, List.contains_iff_mem]
    constructor
    · rintro ⟨waiting, ⟨member, waits⟩, rfl⟩
      exact edge_of_mem distinct member rfl waits
    · intro edge
      obtain ⟨waiting, member, rfl, waits⟩ := edge.exists_node
      exact ⟨waiting, ⟨member, waits⟩, rfl⟩

end Changes

def agenda (graph : NameGraph) (names : List String) : Agenda where
  names := { name | name ∈ names }
  depends := graph.Edge
  place := graph.place

end NameGraph

namespace Schedule

open NameGraph Relation

variable {state : Schedule} {agenda : Agenda} {listed : List String}
  {name waiting finished : String}

section Release

structure Frees (state : Schedule) (finished waiting : String) : Prop where
  waits : finished ∈ state.pending.deps waiting
  alone : ∀ dep ∈ state.pending.deps waiting, dep = finished
  left : waiting ∈ state.remaining

theorem deps_release (finished : String) (state : Schedule) (waiting name : String) :
    (release finished state waiting).pending.deps name =
      if name = waiting then (state.pending.deps name).filter (· != finished)
      else state.pending.deps name := by
  unfold release
  split
  · exact deps_discard _ _ _ _
  · rename_i free
    split
    · rename_i own
      subst own
      refine (List.filter_eq_self.mpr fun dep member => ?_).symm
      simp only [bne_iff_ne]
      rintro rfl
      exact free (List.contains_iff_mem.mpr member)
    · rfl

theorem place_release (finished : String) (state : Schedule) (waiting name : String) :
    (release finished state waiting).pending.place name = state.pending.place name := by
  unfold release
  split
  · exact place_discard _ _ _ _
  · rfl

theorem entryOf_release (finished : String) (state : Schedule) (waiting name : String) :
    (release finished state waiting).pending.entryOf name = state.pending.entryOf name := by
  rw [entryOf, entryOf, place_release]

/-- A name is put into the queue if it is freed. -/
theorem mem_ready_release {e : QueueEntry} :
    e ∈ (release finished state waiting).ready.toList ↔ e ∈ state.ready.toList ∨
      state.Frees finished waiting ∧ e = state.pending.entryOf waiting := by
  have alone : ((state.pending.discard waiting finished).deps waiting).isEmpty = true ↔
      ∀ dep ∈ state.pending.deps waiting, dep = finished := by
    rw [deps_discard, if_pos rfl, List.isEmpty_iff, List.filter_eq_nil_iff]
    simp
  have same : (state.pending.discard waiting finished).entryOf waiting =
      state.pending.entryOf waiting := by
    rw [entryOf, entryOf, place_discard]
  unfold release
  split
  · rename_i waits
    rw [List.contains_iff_mem] at waits
    dsimp only
    split
    · rename_i free
      rw [Bool.and_eq_true, alone, List.contains_iff_mem] at free
      have frees : state.Frees finished waiting := ⟨waits, free.1, free.2⟩
      rw [Queue.mem_push, same, and_iff_right frees]
    · rename_i busy
      rw [Bool.and_eq_true, alone, List.contains_iff_mem] at busy
      refine (or_iff_left fun frees => busy ?_).symm
      exact ⟨frees.1.alone, frees.1.left⟩
  · rename_i free
    rw [List.contains_iff_mem] at free
    exact (or_iff_left fun frees => free frees.1.waits).symm

/-- A name that waits no longer is not freed again. -/
theorem frees_release {other : String} : (release finished state waiting).Frees finished other ↔
    state.Frees finished other ∧ other ≠ waiting := by
  by_cases own : other = waiting
  · refine iff_of_false (fun frees => ?_) (fun frees => frees.2 own)
    have waits := frees.waits
    simp [deps_release, own] at waits
  · constructor
    · rintro ⟨waits, alone, left⟩
      rw [deps_release, if_neg own] at waits alone
      exact ⟨⟨waits, alone, remaining_release finished state waiting ▸ left⟩, own⟩
    · rintro ⟨⟨waits, alone, left⟩, _⟩
      refine ⟨?_, ?_, (remaining_release finished state waiting).symm ▸ left⟩
      · rwa [deps_release, if_neg own]
      · rwa [deps_release, if_neg own]

variable {names : List String}

theorem deps_releases (names : List String) (finished : String) (state : Schedule) (name : String) :
    (names.foldl (release finished) state).pending.deps name =
      if name ∈ names then (state.pending.deps name).filter (· != finished)
      else state.pending.deps name := by
  induction names generalizing state with
  | nil => simp
  | cons waiting rest ih =>
    rw [List.foldl_cons, ih, deps_release]
    by_cases own : name = waiting
    · simp [own, List.filter_filter]
    · simp [own]

theorem place_releases (names : List String) (finished : String) (state : Schedule) (name : String) :
    (names.foldl (release finished) state).pending.place name = state.pending.place name := by
  induction names generalizing state with
  | nil => rfl
  | cons waiting rest ih => rw [List.foldl_cons, ih, place_release]

theorem mem_ready_releases {e : QueueEntry} :
    e ∈ (names.foldl (release finished) state).ready.toList ↔ e ∈ state.ready.toList ∨
      ∃ waiting ∈ names, state.Frees finished waiting ∧ e = state.pending.entryOf waiting := by
  induction names generalizing state with
  | nil => simp
  | cons first rest ih =>
    simp only [List.foldl_cons, ih, mem_ready_release, or_assoc, List.exists_mem_cons_iff,
      frees_release, entryOf_release]
    refine or_congr_right ⟨?_, ?_⟩
    · rintro (own | ⟨other, member, frees, same⟩)
      · exact .inl own
      · exact .inr ⟨other, member, frees.1, same⟩
    · rintro (own | ⟨other, member, frees, same⟩)
      · exact .inl own
      · by_cases again : other = first
        · exact .inl (again ▸ ⟨frees, same⟩)
        · exact .inr ⟨other, member, ⟨frees, again⟩, same⟩

end Release

/-- What is kept of an agenda while names are listed: those that are left, and what each name still
waits for. All names that are ready stand in the queue, and no others but listed ones. -/
structure Tracks (agenda : Agenda) (listed : List String) (state : Schedule) : Prop where
  left : ∀ name, name ∈ state.remaining ↔ name ∈ agenda.names ∧ name ∉ listed
  waits : ∀ name dep, dep ∈ state.pending.deps name ↔ agenda.Inner name dep ∧ dep ∉ listed
  placed : ∀ name ∈ agenda.names, state.pending.place name = agenda.place name
  queued : ∀ name, agenda.Ready listed name → ⟨agenda.place name, name⟩ ∈ state.ready.toList
  entries : ∀ e ∈ state.ready.toList,
    e.place = agenda.place e.name ∧ (e.name ∈ listed ∨ agenda.Ready listed e.name)

def Reverses (agenda : Agenda) (dependents : NameGraph) : Prop :=
  ∀ name waiting, waiting ∈ dependents.deps name ↔ agenda.Inner waiting name

theorem before_of_not_before {a b : String} (apart : b ≠ a)
    (later : ¬ (⟨agenda.place b, b⟩ : QueueEntry).before ⟨agenda.place a, a⟩) : agenda.Before a b := by
  simp only [QueueEntry.before, Bool.or_eq_true, decide_eq_true_eq, Bool.and_eq_true, beq_iff_eq, not_or,
    not_and] at later
  rcases lt_or_eq_of_le (not_lt.mp later.1) with lower | same
  · exact .inl lower
  · exact .inr ⟨same, lt_of_le_of_ne (not_lt.mp (later.2 same.symm)) apart.symm⟩

theorem mem_ready_start {graph : NameGraph} (distinct : graph.names.Nodup) {e : QueueEntry} :
    e ∈ (Schedule.start graph).ready.toList ↔
      e.name ∈ graph.names ∧ graph.deps e.name = [] ∧ e = graph.entryOf e.name := by
  unfold Schedule.start
  simp only [Queue.mem_ofList, List.mem_map, List.mem_filter, List.isEmpty_iff]
  constructor
  · rintro ⟨node, ⟨member, free⟩, rfl⟩
    have found := find?_of_mem distinct member
    exact ⟨List.mem_map_of_mem member, by simp [deps, found, free],
      by simp [entryOf, place, found]⟩
  · rintro ⟨known, free, same⟩
    obtain ⟨node, member, named⟩ := List.mem_map.mp known
    have found := find?_of_mem distinct member
    rw [named] at found
    refine ⟨node, ⟨member, by simpa [deps, found] using free⟩, ?_⟩
    rw [same, named]
    simp [entryOf, place, found]

theorem candidates_sorted (state : Schedule) : state.candidates.Pairwise fun a b =>
    ¬ (state.pending.entryOf b).before (state.pending.entryOf a) := by
  refine List.pairwise_map.mpr ?_
  refine (Queue.drain_sorted _).imp_of_mem fun first second order => ?_
  have same {e : QueueEntry}
      (member : e ∈ (Queue.ofList (state.remaining.map state.pending.entryOf)).drain) :
      state.pending.entryOf e.name = e := by
    rw [(Queue.perm_drain _).mem_iff, Queue.mem_ofList] at member
    obtain ⟨other, _, rfl⟩ := List.mem_map.mp member
    rfl
  rwa [same first, same second]

namespace Tracks

variable {dependents : NameGraph} {entry : QueueEntry} {rest : Queue}

theorem start (graph : NameGraph) (names : List String) :
    Tracks (graph.agenda names) [] (.start (graph.select names)) := by
  have waits (name dep : String) : dep ∈ (graph.select names).deps name ↔
      (graph.agenda names).Inner name dep :=
    mem_deps_select
  have asked (name : String) : name ∈ (graph.select names).names ↔ name ∈ (graph.agenda names).names := by
    simp [names_select, NameGraph.agenda]
  have free (name : String) : (graph.select names).deps name = [] ↔
      ∀ dep, ¬ (graph.agenda names).Inner name dep := by
    simp only [List.eq_nil_iff_forall_not_mem, waits]
  refine ⟨by simpa [Schedule.start] using asked, by simpa [Schedule.start] using waits,
    fun name => place_select, fun name ready => ?_, fun e member => ?_⟩
  · rw [mem_ready_start (select_nodup graph names), asked, free]
    refine ⟨ready.1, fun dep inner => by simpa using ready.2.2 dep inner, ?_⟩
    rw [entryOf, place_select ready.1]
    rfl
  · rw [mem_ready_start (select_nodup graph names), asked, free] at member
    obtain ⟨known, free, same⟩ := member
    refine ⟨?_, .inr ⟨known, by simp, fun dep inner => absurd inner (free dep)⟩⟩
    rw [same]
    exact place_select known

/-- After a name is listed, what waits for no other one is ready. -/
theorem ready_append (tracks : Tracks agenda listed state) {other : String} :
    agenda.Ready (listed ++ [name]) other ↔
      (other ∈ state.remaining ∧ other ≠ name) ∧ ∀ dep ∈ state.pending.deps other, dep = name := by
  have met : (∀ dep, agenda.Inner other dep → dep ∈ listed ++ [name]) ↔
      ∀ dep ∈ state.pending.deps other, dep = name := by
    refine forall_congr' fun dep => ?_
    rw [tracks.waits, List.mem_append, List.mem_singleton]
    tauto
  rw [Agenda.Ready, met, tracks.left]
  simp [and_assoc]

/-- A name is listed, and nothing but an entry of it is taken from the queue. -/
theorem complete (tracks : Tracks agenda listed state) (reverses : Reverses agenda dependents)
    (name : String) (ready : Queue) (kept : ∀ e ∈ ready.toList, e ∈ state.ready.toList)
    (others : ∀ e ∈ state.ready.toList, e.name ≠ name → e ∈ ready.toList) :
    Tracks agenda (listed ++ [name]) ({ state with ready }.complete dependents name) := by
  refine ⟨fun other => ?_, fun other dep => ?_, fun other asked => ?_, fun other free => ?_,
    fun e member => ?_⟩
  · rw [remaining_complete]
    simp [tracks.left, and_assoc]
  · unfold Schedule.complete
    rw [deps_releases]
    have waits := tracks.waits other dep
    split
    · simp [waits, and_assoc]
    · rename_i free
      have different (inner : agenda.Inner other dep) : dep ≠ name := by
        rintro rfl
        exact free ((reverses dep other).mpr inner)
      rw [waits, List.mem_append, List.mem_singleton]
      tauto
  · unfold Schedule.complete
    rw [place_releases]
    exact tracks.placed other asked
  · unfold Schedule.complete
    rw [mem_ready_releases]
    have asked := free.1
    obtain ⟨⟨left, different⟩, alone⟩ := tracks.ready_append.mp free
    by_cases waits : name ∈ state.pending.deps other
    · refine .inr ⟨other, (reverses name other).mpr ((tracks.waits other name).mp waits).1,
        ⟨waits, alone, ?_⟩, ?_⟩
      · simp [left, different]
      · rw [entryOf, tracks.placed other asked]
    · -- what waited for nothing before has been in the queue before
      refine .inl (others _ (tracks.queued other ⟨asked, ?_, fun dep inner => ?_⟩) different)
      · exact ((tracks.left other).mp left).2
      · by_contra unlisted
        have held := (tracks.waits other dep).mpr ⟨inner, unlisted⟩
        exact waits (alone dep held ▸ held)
  · unfold Schedule.complete at member
    rw [mem_ready_releases] at member
    rcases member with old | ⟨waiting, -, frees, rfl⟩
    · obtain ⟨placed, origin⟩ := tracks.entries e (kept e old)
      refine ⟨placed, ?_⟩
      rcases origin with gone | ready
      · exact .inl (List.mem_append_left _ gone)
      · by_cases own : e.name = name
        · exact .inl (by simp [own])
        · exact .inr ⟨ready.1, by simp [ready.2.1, own],
            fun dep inner => List.mem_append_left _ (ready.2.2 dep inner)⟩
    · obtain ⟨left, different⟩ : waiting ∈ state.remaining ∧ waiting ≠ name := by
        simpa using frees.left
      refine ⟨tracks.placed waiting ((tracks.left waiting).mp left).1,
        .inr (tracks.ready_append.mpr ⟨⟨left, different⟩, frees.alone⟩)⟩

theorem next_of_pop? (tracks : Tracks agenda listed state)
    (popped : state.ready.pop? = some (entry, rest)) (left : entry.name ∈ state.remaining) :
    agenda.Next listed entry.name := by
  have member : entry ∈ state.ready.toList := (Queue.mem_of_pop? popped).mpr (.inl rfl)
  obtain ⟨placed, origin⟩ := tracks.entries entry member
  refine .inl ⟨origin.resolve_left ((tracks.left _).mp left).2, fun other ready apart => ?_⟩
  refine before_of_not_before apart ?_
  rw [← placed]
  exact Queue.pop?_first popped (tracks.queued other ready)

/-- An entry of a name that is listed already may go. -/
theorem pass (tracks : Tracks agenda listed state)
    (popped : state.ready.pop? = some (entry, rest)) (gone : entry.name ∉ state.remaining) :
    Tracks agenda listed { state with ready := rest } := by
  refine ⟨tracks.left, tracks.waits, tracks.placed, fun name ready => ?_, fun e member => ?_⟩
  · refine ((Queue.mem_of_pop? popped).mp (tracks.queued name ready)).resolve_left ?_
    rintro rfl
    exact gone ((tracks.left name).mpr ⟨ready.1, ready.2.1⟩)
  · exact tracks.entries e ((Queue.mem_of_pop? popped).mpr (.inr member))

theorem not_ready (tracks : Tracks agenda listed state) (empty : state.ready.pop? = none)
    (name : String) : ¬ agenda.Ready listed name := by
  intro ready
  have queued := tracks.queued name ready
  rw [Queue.pop?_eq_none empty] at queued
  cases queued

/-- What listed names still wait for does not matter: a path back to a name that is left leads
through names that are left. -/
theorem reaches_iff (tracks : Tracks agenda listed state) :
    state.pending.reaches name name = true ↔ agenda.Cyclic listed name := by
  have edge (a b : String) : state.pending.Edge a b ↔ agenda.Inner a b ∧ b ∉ listed :=
    edge_iff_mem_deps.trans (tracks.waits a b)
  rw [NameGraph.reaches_iff]
  constructor
  · intro path
    have left : name ∉ listed := by
      obtain ⟨last, _, step⟩ := TransGen.tail'_iff.mp path
      exact ((edge _ _).mp step).2
    have along {b : String} (path : TransGen state.pending.Edge name b) :
        b ∉ listed ∧ TransGen (fun a b => agenda.Inner a b ∧ a ∉ listed ∧ b ∉ listed) name b := by
      induction path with
      | single step =>
        obtain ⟨inner, unlisted⟩ := (edge _ _).mp step
        exact ⟨unlisted, .single ⟨inner, left, unlisted⟩⟩
      | tail _ step ih =>
        obtain ⟨inner, unlisted⟩ := (edge _ _).mp step
        exact ⟨unlisted, ih.2.tail ⟨inner, ih.1, unlisted⟩⟩
    exact (along path).2
  · exact TransGen.mono (fun a b step => (edge a b).mpr ⟨step.1, step.2.2⟩) _ _

/-- The cycle breaker is the first name on a cycle: it never has to fall back on a name that lies on
none. -/
theorem next_of_cycleBreaker? (tracks : Tracks agenda listed state)
    (finite : agenda.names.Finite) (empty : state.ready.pop? = none)
    (chosen : state.cycleBreaker? = some name) : agenda.Next listed name := by
  have busy := tracks.not_ready empty
  have left := (tracks.left name).mp (mem_of_cycleBreaker? chosen)
  have inside {other : String} (cyclic : agenda.Cyclic listed other) : other ∈ state.candidates :=
    mem_candidates.mpr ((tracks.left other).mpr cyclic.left)
  rcases Option.or_eq_some_iff.mp chosen with found | ⟨missed, _⟩
  · obtain ⟨reaches, earlier, later, split, skipped⟩ := List.find?_eq_some_iff_append.mp found
    refine .inr ⟨busy, tracks.reaches_iff.mp reaches, fun other cyclic apart => ?_⟩
    have member := inside cyclic
    have sorted := candidates_sorted state
    rw [split] at sorted member
    have after : other ∈ later := by
      rcases List.mem_append.mp member with early | late
      · have passed := skipped other early
        simp [tracks.reaches_iff.mpr cyclic] at passed
      · exact (List.mem_cons.mp late).resolve_left apart
    have order := (List.pairwise_cons.mp (List.pairwise_append.mp sorted).2.1).1 other after
    rw [entryOf, entryOf, tracks.placed name left.1, tracks.placed other cyclic.left.1] at order
    exact before_of_not_before apart order
  · obtain ⟨other, cyclic⟩ := Agenda.exists_cyclic finite left.1 left.2 busy
    have passed := List.find?_eq_none.mp missed other (inside cyclic)
    exact absurd (tracks.reaches_iff.mpr cyclic) passed

theorem turns (tracks : Tracks agenda listed state) (finite : agenda.names.Finite)
    (reverses : Reverses agenda dependents) : agenda.Turns listed (listFrom dependents state) := by
  fun_induction listFrom dependents state generalizing listed with
  | case1 state finished => exact Agenda.turns_nil
  | case2 state unfinished entry ready popped left ih =>
    refine .cons (tracks.next_of_pop? popped left) (ih (tracks.complete reverses _ _ ?_ ?_))
    · exact fun e member => (Queue.mem_of_pop? popped).mpr (.inr member)
    · exact fun e member apart =>
        ((Queue.mem_of_pop? popped).mp member).resolve_left fun same => apart (same ▸ rfl)
  | case3 state unfinished entry ready popped gone ih => exact ih (tracks.pass popped gone)
  | case4 state unfinished empty name chosen ih =>
    refine .cons (tracks.next_of_cycleBreaker? finite empty chosen) (ih ?_)
    exact tracks.complete reverses name state.ready (fun _ => id) fun _ member _ => member
  | case5 state unfinished empty missed => exact Agenda.turns_nil

end Tracks

theorem cycleBreaker?_eq_none (missed : state.cycleBreaker? = none) : state.remaining = [] := by
  obtain ⟨_, first⟩ := Option.or_eq_none_iff.mp missed
  refine List.eq_nil_iff_forall_not_mem.mpr fun name left => ?_
  have member := mem_candidates.mpr left
  rw [List.head?_eq_none_iff.mp first] at member
  cases member

theorem mem_remaining_iff (dependents : NameGraph) (state : Schedule) {first : String}
    (left : first ∈ state.remaining) (name : String) :
    name ∈ state.remaining ↔ name = first ∨ name ∈ (state.complete dependents first).remaining := by
  rw [remaining_complete]
  by_cases own : name = first <;> simp [own, left]

/-- All names that are left are listed, and no others. -/
theorem mem_listFrom (dependents : NameGraph) (state : Schedule) (name : String) :
    name ∈ listFrom dependents state ↔ name ∈ state.remaining := by
  fun_induction listFrom dependents state with
  | case1 state finished => simp [List.isEmpty_iff.mp finished]
  | case2 state unfinished entry ready popped left ih =>
    have listed := mem_remaining_iff dependents { state with ready } left name
    exact List.mem_cons.trans ((or_congr_right ih).trans listed.symm)
  | case3 state unfinished entry ready popped gone ih => exact ih
  | case4 state unfinished empty first chosen ih =>
    have listed := mem_remaining_iff dependents state (mem_of_cycleBreaker? chosen) name
    exact List.mem_cons.trans ((or_congr_right ih).trans listed.symm)
  | case5 state unfinished empty missed => simp [cycleBreaker?_eq_none missed]

end Schedule

/-- The order of names is greedy in what the graph says of them. -/
theorem NameGraph.greedy_topologicalOrder (graph : NameGraph) (names : List String) :
    (graph.agenda names).Greedy (graph.topologicalOrder names) := by
  have reverses : Schedule.Reverses (graph.agenda names) (graph.select names).reversed := by
    intro name waiting
    change _ ↔ waiting ∈ names ∧ name ∈ names ∧ name ≠ waiting ∧ graph.Edge waiting name
    by_cases asked : name ∈ names
    · rw [mem_deps_reversed (select_nodup graph names) (by simpa [names_select] using asked),
        edge_iff_mem_deps, mem_deps_select]
    · simp [asked, deps, find?_reversed, find?_select]
  refine .of_turns (fun name => ?_) ((Schedule.Tracks.start graph names).turns ?_ reverses)
  · rw [topologicalOrder, Schedule.mem_listFrom]
    simp [Schedule.start, names_select, agenda]
  · exact List.finite_toSet names

end TypedClient
