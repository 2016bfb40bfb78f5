import Mathlib

/-! The greedy rule of an order of names. What is listed next depends only on the names, on what
depends on what and on the places: it is the first name that is ready or, where none is, the first
on a cycle of the names that are left. The rule leaves no choice, so at most one list follows it. -/
namespace TypedClient.NameGraph

open Relation

/-- The names that are asked for, what depends on what, and the places of names. -/
structure Agenda where
  names : Set String
  depends : String → String → Prop
  place : String → Int

namespace Agenda

variable {agenda other : Agenda} {listed result : List String} {name next : String}

def Inner (agenda : Agenda) (name dep : String) : Prop :=
  name ∈ agenda.names ∧ dep ∈ agenda.names ∧ dep ≠ name ∧ agenda.depends name dep

def Ready (agenda : Agenda) (listed : List String) (name : String) : Prop :=
  name ∈ agenda.names ∧ name ∉ listed ∧ ∀ dep, agenda.Inner name dep → dep ∈ listed

def Cyclic (agenda : Agenda) (listed : List String) (name : String) : Prop :=
  TransGen (fun a b => agenda.Inner a b ∧ a ∉ listed ∧ b ∉ listed) name name

def Before (agenda : Agenda) (a b : String) : Prop :=
  agenda.place a < agenda.place b ∨ agenda.place a = agenda.place b ∧ a < b

def Least (agenda : Agenda) (P : String → Prop) (name : String) : Prop :=
  P name ∧ ∀ other, P other → other ≠ name → agenda.Before name other

/-- The name to list next: the first that is ready, or else the first on a cycle. -/
def Next (agenda : Agenda) (listed : List String) (name : String) : Prop :=
  agenda.Least (agenda.Ready listed) name ∨
    (∀ other, ¬ agenda.Ready listed other) ∧ agenda.Least (agenda.Cyclic listed) name

/-- Every name that is asked for is listed once, and each in its turn. -/
structure Greedy (agenda : Agenda) (result : List String) : Prop where
  distinct : result.Nodup
  whole : ∀ name, name ∈ result ↔ name ∈ agenda.names
  turns : ∀ listed next rest, result = listed ++ next :: rest → agenda.Next listed next

def Turns (agenda : Agenda) (listed result : List String) : Prop :=
  ∀ more next rest, result = more ++ next :: rest → agenda.Next (listed ++ more) next

theorem Before.asymm {a b : String} (before : agenda.Before a b) : ¬ agenda.Before b a := by
  rintro (later | ⟨same, later⟩)
  · rcases before with earlier | ⟨equal, _⟩ <;> omega
  · rcases before with earlier | ⟨_, earlier⟩
    · omega
    · exact lt_asymm earlier later

theorem Least.unique {P : String → Prop} (first : agenda.Least P name)
    (second : agenda.Least P next) : name = next := by
  by_contra different
  exact (first.2 next second.1 (Ne.symm different)).asymm (second.2 name first.1 different)

theorem Next.unique (first : agenda.Next listed name) (second : agenda.Next listed next) :
    name = next := by
  rcases first with ready | ⟨busy, cyclic⟩
  · rcases second with other | ⟨busy, _⟩
    · exact ready.unique other
    · exact absurd ready.1 (busy name)
  · rcases second with ready | ⟨_, other⟩
    · exact absurd ready.1 (busy next)
    · exact cyclic.unique other

theorem Cyclic.left (cyclic : agenda.Cyclic listed name) : name ∈ agenda.names ∧ name ∉ listed := by
  obtain ⟨dep, step, _⟩ := TransGen.head'_iff.mp cyclic
  exact ⟨step.1.1, step.2.1⟩

theorem Next.left (turn : agenda.Next listed name) : name ∈ agenda.names ∧ name ∉ listed := by
  rcases turn with ready | ⟨_, cyclic⟩
  · exact ⟨ready.1.1, ready.1.2.1⟩
  · exact cyclic.1.left

/-- While finitely many names are left and none of them is ready, one lies on a cycle. -/
theorem exists_cyclic (finite : agenda.names.Finite) (asked : name ∈ agenda.names)
    (left : name ∉ listed) (busy : ∀ other, ¬ agenda.Ready listed other) :
    ∃ other, agenda.Cyclic listed other := by
  by_contra! acyclic
  let Path (a b : agenda.names) : Prop :=
    TransGen (fun a b => agenda.Inner a b ∧ a ∉ listed ∧ b ∉ listed) b.1 a.1
  have trans : IsTrans _ Path := ⟨fun a b c first second => second.trans first⟩
  have irrefl : Std.Irrefl Path := ⟨fun a => acyclic a.1⟩
  have : Finite agenda.names := finite
  have wellFounded := Finite.wellFounded_of_trans_of_irrefl Path
  -- a name from which no path leads on waits for another one all the same
  obtain ⟨⟨last, lastAsked⟩, lastLeft, stuck⟩ := wellFounded.has_min { a | a.1 ∉ listed }
    ⟨⟨name, asked⟩, left⟩
  have waits : ∃ dep, agenda.Inner last dep ∧ dep ∉ listed := by
    by_contra! all
    exact busy last ⟨lastAsked, lastLeft, all⟩
  obtain ⟨dep, inner, depLeft⟩ := waits
  exact stuck ⟨dep, inner.2.1⟩ depLeft (.single ⟨inner, lastLeft, depLeft⟩)

theorem turns_nil : agenda.Turns listed [] := by
  simp [Turns]

theorem Turns.cons (first : agenda.Next listed name) (later : agenda.Turns (listed ++ [name]) result) :
    agenda.Turns listed (name :: result) := by
  intro more next rest split
  cases more with
  | nil =>
    obtain ⟨rfl, _⟩ := List.cons.inj split
    simpa using first
  | cons _ more =>
    obtain ⟨rfl, tail⟩ := List.cons.inj split
    simpa using later more next rest tail

/-- Where each name comes in its turn none comes twice. -/
theorem Greedy.of_turns (whole : ∀ name, name ∈ result ↔ name ∈ agenda.names)
    (turns : agenda.Turns [] result) : agenda.Greedy result := by
  refine ⟨?_, whole, turns⟩
  clear whole
  induction result using List.reverseRecOn with
  | nil => exact .nil
  | append_singleton listed last ih =>
    have distinct := ih fun before next rest split => turns before next (rest ++ [last]) (by simp [split])
    rw [← List.concat_eq_append]
    exact distinct.concat (turns listed last [] rfl).left.2

/-- Where all names are listed nothing follows. -/
theorem Greedy.rest_eq_nil {rest : List String} (greedy : agenda.Greedy result)
    (split : result = listed ++ rest) (all : ∀ name ∈ agenda.names, name ∈ listed) : rest = [] := by
  have distinct := greedy.distinct
  rw [split] at distinct
  refine List.eq_nil_iff_forall_not_mem.mpr fun name member => ?_
  have early := all name ((greedy.whole name).mp (by simp [split, member]))
  exact (List.nodup_append.mp distinct).2.2 name early name member rfl

/-- The rule leaves no choice: lists that agree so far go on in the same way. -/
theorem Greedy.rest_unique {others rest more : List String} (greedy : agenda.Greedy result)
    (again : agenda.Greedy others) (listed : List String) (split : result = listed ++ rest)
    (otherSplit : others = listed ++ more) : rest = more := by
  induction rest generalizing listed more with
  | nil =>
    refine (again.rest_eq_nil otherSplit fun name asked => ?_).symm
    have member := (greedy.whole name).mpr asked
    rwa [split, List.append_nil] at member
  | cons name rest ih =>
    cases more with
    | nil =>
      refine greedy.rest_eq_nil split fun name asked => ?_
      have member := (again.whole name).mpr asked
      rwa [otherSplit, List.append_nil] at member
    | cons next more =>
      obtain rfl := (greedy.turns _ _ _ split).unique (again.turns _ _ _ otherSplit)
      have same : rest = more :=
        ih (listed ++ [name]) (by simp [split]) (by simp [otherSplit])
      rw [same]

theorem Greedy.unique {others : List String} (greedy : agenda.Greedy result)
    (again : agenda.Greedy others) : result = others :=
  greedy.rest_unique again [] rfl rfl

/-- A name that is listed before one that it depends on lies on a cycle. -/
theorem Greedy.cyclic {rest : List String} {dep : String} (greedy : agenda.Greedy result)
    (split : result = listed ++ name :: rest) (inner : agenda.Inner name dep) (after : dep ∈ rest) :
    TransGen agenda.Inner name name := by
  have distinct := greedy.distinct
  rw [split] at distinct
  rcases greedy.turns _ _ _ split with ready | ⟨_, cyclic⟩
  · have early := ready.1.2.2 dep inner
    exact absurd rfl ((List.nodup_append.mp distinct).2.2 dep early dep (by simp [after]))
  · exact TransGen.mono (fun _ _ step => step.1) _ _ cyclic.1

structure Alike (agenda other : Agenda) : Prop where
  names : other.names = agenda.names
  depends : ∀ a ∈ agenda.names, ∀ b ∈ agenda.names, other.depends a b ↔ agenda.depends a b
  place : ∀ a ∈ agenda.names, other.place a = agenda.place a

namespace Alike

theorem inner (alike : Alike agenda other) : other.Inner = agenda.Inner := by
  funext a b
  unfold Inner
  rw [alike.names, eq_iff_iff]
  constructor
  · rintro ⟨left, right, apart, depends⟩
    exact ⟨left, right, apart, (alike.depends a left b right).mp depends⟩
  · rintro ⟨left, right, apart, depends⟩
    exact ⟨left, right, apart, (alike.depends a left b right).mpr depends⟩

theorem least {P : String → Prop} (alike : Alike agenda other) (inside : ∀ a, P a → a ∈ agenda.names)
    (least : agenda.Least P name) : other.Least P name := by
  refine ⟨least.1, fun b holds apart => ?_⟩
  have before := least.2 b holds apart
  unfold Before at before ⊢
  rwa [alike.place name (inside name least.1), alike.place b (inside b holds)]

theorem greedy (alike : Alike agenda other) (greedy : agenda.Greedy result) :
    other.Greedy result := by
  refine ⟨greedy.distinct, alike.names ▸ greedy.whole, fun listed next rest split => ?_⟩
  have ready : other.Ready listed = agenda.Ready listed := by
    funext name
    rw [Ready, Ready, alike.inner, alike.names]
  have cyclic : other.Cyclic listed = agenda.Cyclic listed := by
    funext name
    rw [Cyclic, Cyclic, alike.inner]
  unfold Next
  rw [ready, cyclic]
  rcases greedy.turns listed next rest split with first | ⟨busy, first⟩
  · exact .inl (alike.least (fun name ready => ready.1) first)
  · exact .inr ⟨busy, alike.least (fun name cyclic => cyclic.left.1) first⟩

end Alike

end Agenda

end TypedClient.NameGraph
