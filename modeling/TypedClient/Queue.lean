/-! Queues of names by place. The entries stand in a tree in which none is above an earlier one, so
the first of them is at the top. -/
namespace TypedClient

/-- A name with its place. -/
structure QueueEntry where
  place : Int
  name : String
deriving Repr, DecidableEq

/-- Earlier in place, or by name at the same place. -/
def QueueEntry.before (a b : QueueEntry) : Bool :=
  a.place < b.place || (a.place == b.place && a.name < b.name)

theorem QueueEntry.before_trans {a b c : QueueEntry} (first : ¬ b.before a) (second : ¬ c.before b) :
    ¬ c.before a := by
  simp only [before, Bool.or_eq_true, decide_eq_true_eq, Bool.and_eq_true, beq_iff_eq, not_or,
    not_and, String.not_lt] at *
  refine ⟨by omega, fun same => ?_⟩
  exact String.le_trans (first.2 (by omega)) (second.2 (by omega))

theorem QueueEntry.before_asymm {a b : QueueEntry} (earlier : a.before b) : ¬ b.before a := by
  simp only [before, Bool.or_eq_true, decide_eq_true_eq, Bool.and_eq_true, beq_iff_eq, not_or,
    not_and, String.not_lt] at *
  refine ⟨by omega, fun same => ?_⟩
  rcases earlier with lower | ⟨_, lower⟩
  · omega
  · exact String.not_lt.mp fun later => String.lt_irrefl _ (String.lt_trans lower later)

inductive Heap where
  | empty
  | node (top : QueueEntry) (left right : Heap)
deriving Repr

namespace Heap

def toList : Heap → List QueueEntry
  | .empty => []
  | .node top left right => top :: (left.toList ++ right.toList)

def size : Heap → Nat
  | .empty => 0
  | .node _ left right => left.size + right.size + 1

/-- No entry is above an earlier one. -/
def Ordered : Heap → Prop
  | .empty => True
  | .node top left right =>
    (∀ e ∈ left.toList ++ right.toList, ¬ e.before top) ∧ left.Ordered ∧ right.Ordered

/-- The entries of two heaps in one. The side that has grown goes to the left. -/
def merge : Heap → Heap → Heap
  | .empty, second => second
  | first, .empty => first
  | .node a left right, .node b left' right' =>
    if b.before a then .node b (merge (.node a left right) right') left'
    else .node a (merge right (.node b left' right')) left
termination_by first second => first.size + second.size
decreasing_by all_goals (simp only [size]; omega)

theorem length_toList (heap : Heap) : heap.toList.length = heap.size := by
  induction heap with
  | empty => rfl
  | node top left right first second => simp [toList, size, first, second]

theorem toList_merge (first second : Heap) :
    (merge first second).toList.Perm (first.toList ++ second.toList) := by
  fun_induction merge first second with
  | case1 second => exact .refl _
  | case2 first => simp [toList]
  | case3 a left right b left' right' earlier ih =>
    simp only [toList] at ih ⊢
    refine (List.Perm.cons b (ih.append_right left'.toList)).trans ?_
    simp only [List.append_assoc]
    refine List.Perm.trans (.cons b (.append_left _ List.perm_append_comm)) ?_
    exact List.perm_middle.symm
  | case4 a left right b left' right' later ih =>
    simp only [toList] at ih ⊢
    refine .cons a ?_
    refine (ih.append_right left.toList).trans ?_
    refine List.perm_append_comm.trans ?_
    simp

theorem mem_merge {first second : Heap} {e : QueueEntry} :
    e ∈ (merge first second).toList ↔ e ∈ first.toList ∨ e ∈ second.toList :=
  (toList_merge first second).mem_iff.trans List.mem_append

theorem Ordered.top_le {top e : QueueEntry} {left right : Heap}
    (ordered : (node top left right).Ordered)
    (member : e ∈ (node top left right).toList) : ¬ e.before top := by
  rcases List.mem_cons.mp member with rfl | below
  · exact fun self => QueueEntry.before_asymm self self
  · exact ordered.1 e below

theorem Ordered.merge {first second : Heap} (ordered : first.Ordered)
    (ordered' : second.Ordered) : (merge first second).Ordered := by
  fun_induction Heap.merge first second with
  | case1 second => exact ordered'
  | case2 first => exact ordered
  | case3 a left right b left' right' earlier ih =>
    refine ⟨fun e member => ?_, ih ordered ordered'.2.2, ordered'.2.1⟩
    rw [List.mem_append, mem_merge] at member
    rcases member with (above | below) | below
    · exact QueueEntry.before_trans (QueueEntry.before_asymm earlier) (ordered.top_le above)
    · exact ordered'.1 e (List.mem_append_right _ below)
    · exact ordered'.1 e (List.mem_append_left _ below)
  | case4 a left right b left' right' later ih =>
    refine ⟨fun e member => ?_, ih ordered.2.2 ordered', ordered.2.1⟩
    rw [List.mem_append, mem_merge] at member
    rcases member with (below | above) | below
    · exact ordered.1 e (List.mem_append_right _ below)
    · exact QueueEntry.before_trans later (ordered'.top_le above)
    · exact ordered.1 e (List.mem_append_left _ below)

end Heap

structure Queue where
  heap : Heap
  ordered : heap.Ordered

namespace Queue

variable {queue rest : Queue} {top e : QueueEntry}

def toList (queue : Queue) : List QueueEntry :=
  queue.heap.toList

def size (queue : Queue) : Nat :=
  queue.heap.size

def empty : Queue :=
  ⟨.empty, trivial⟩

def push (queue : Queue) (entry : QueueEntry) : Queue :=
  ⟨queue.heap.merge (.node entry .empty .empty),
    queue.ordered.merge ⟨by simp [Heap.toList], trivial, trivial⟩⟩

/-- The first entry and the others. -/
def pop? : Queue → Option (QueueEntry × Queue)
  | ⟨.empty, _⟩ => none
  | ⟨.node top left right, ordered⟩ => some (top, ⟨left.merge right, ordered.2.1.merge ordered.2.2⟩)

def ofList (entries : List QueueEntry) : Queue :=
  entries.foldl push empty

theorem mem_push {entry : QueueEntry} :
    e ∈ (queue.push entry).toList ↔ e ∈ queue.toList ∨ e = entry := by
  unfold toList push
  rw [Heap.mem_merge]
  simp [Heap.toList]

theorem size_push (entry : QueueEntry) : (queue.push entry).size = queue.size + 1 := by
  have length := (Heap.toList_merge queue.heap (.node entry .empty .empty)).length_eq
  simpa [Heap.length_toList, Heap.toList, push, size] using length

theorem mem_ofList {entries : List QueueEntry} : e ∈ (ofList entries).toList ↔ e ∈ entries := by
  have pushed (queue : Queue) :
      e ∈ (entries.foldl push queue).toList ↔ e ∈ queue.toList ∨ e ∈ entries := by
    induction entries generalizing queue with
    | nil => simp
    | cons entry rest ih => rw [List.foldl_cons, ih, mem_push, List.mem_cons, or_assoc]
  exact (pushed empty).trans (or_iff_right (by simp [empty, toList, Heap.toList]))

theorem pop?_eq_none (last : queue.pop? = none) : queue.toList = [] := by
  unfold pop? at last
  split at last
  · rfl
  · cases last

theorem perm_of_pop? (popped : queue.pop? = some (top, rest)) :
    queue.toList.Perm (top :: rest.toList) := by
  unfold pop? at popped
  split at popped
  · cases popped
  · cases popped
    exact .cons _ (Heap.toList_merge _ _).symm

theorem mem_of_pop? (popped : queue.pop? = some (top, rest)) :
    e ∈ queue.toList ↔ e = top ∨ e ∈ rest.toList :=
  (perm_of_pop? popped).mem_iff.trans List.mem_cons

theorem pop?_first (popped : queue.pop? = some (top, rest)) (member : e ∈ queue.toList) :
    ¬ e.before top := by
  unfold pop? at popped
  split at popped
  · cases popped
  · rename_i first left right ordered
    cases popped
    exact ordered.top_le member

theorem size_of_pop? (popped : queue.pop? = some (top, rest)) : rest.size < queue.size := by
  have length := (perm_of_pop? popped).length_eq
  simp only [toList, Heap.length_toList, List.length_cons] at length
  unfold size
  omega

/-- All entries, the first one first. -/
def drain (queue : Queue) : List QueueEntry :=
  match _popped : queue.pop? with
  | none => []
  | some (top, rest) => top :: rest.drain
termination_by queue.size
decreasing_by exact size_of_pop? _popped

theorem perm_drain (queue : Queue) : queue.drain.Perm queue.toList := by
  fun_induction drain queue with
  | case1 queue last => rw [pop?_eq_none last]
  | case2 queue top rest popped ih => exact (ih.cons top).trans (perm_of_pop? popped).symm

theorem drain_sorted (queue : Queue) : queue.drain.Pairwise fun a b => ¬ b.before a := by
  fun_induction drain queue with
  | case1 queue last => exact .nil
  | case2 queue top rest popped ih =>
    refine List.pairwise_cons.mpr ⟨fun e member => ?_, ih⟩
    have later := (perm_drain rest).mem_iff.mp member
    exact pop?_first popped ((mem_of_pop? popped).mpr (.inr later))

end Queue

end TypedClient
