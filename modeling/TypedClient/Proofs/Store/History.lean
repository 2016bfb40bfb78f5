import TypedClient.Proofs.Store.Errors

/-! Histories of a generator: schemas are added, with success or not, and names are made errors, in
any order. What one call keeps every history keeps. -/
namespace TypedClient

inductive Call where
  | add (name : String) (fragment document : Json) (preferStruct : Bool)
  | markAsError (name : String)

/-- Where a generator has come, with the names that it has returned. -/
structure History where
  session : Session := {}
  returned : List String := []

namespace History

/-- A fault is met with the state that it leaves. -/
def call (brandIds : Bool) (history : History) : Call → History
  | .add name fragment document preferStruct =>
    match Builder.addSchema brandIds name fragment document preferStruct history.session with
    | .ok declared session => ⟨session, history.returned ++ [declared]⟩
    | .error _ session => { history with session }
  | .markAsError name =>
    match Generator.markAsError name history.session with
    | .ok _ session => { history with session }
    | .error _ session => { history with session }

def run (brandIds : Bool) (calls : List Call) : History :=
  calls.foldl (call brandIds) {}

def store (history : History) : Store :=
  history.session.store

variable {history : History}

structure Sound (history : History) : Prop where
  store : history.store.Sound
  returned : ∀ name ∈ history.returned, name ∈ history.store.names

theorem store_markAsError (brandIds : Bool) (history : History) (name : String) :
    (history.call brandIds (.markAsError name)).store = history.store.marked name ∧
      (history.call brandIds (.markAsError name)).returned = history.returned := by
  obtain ⟨s', step, marked⟩ := Store.markAsError_ok name history.session
  simp only [call, step]
  exact ⟨marked, trivial⟩

/-- An addition grows the store; a name that it returns is new or has been referred to. -/
theorem store_add (brandIds : Bool) (name : String) (fragment document : Json)
    (preferStruct : Bool) (sound : history.store.Sound) :
    let after := history.call brandIds (.add name fragment document preferStruct)
    Store.Grows history.store after.store ∧
      (after.returned = history.returned ∨ ∃ declared,
        after.returned = history.returned ++ [declared] ∧ declared ∈ after.store.names ∧
          (declared ∈ after.store.refNames.map (·.2) ∨ declared ∉ history.store.names)) := by
  have ends := Builder.addSchema_grows brandIds name fragment document preferStruct sound
  simp only [call]
  split
  · rename_i declared session done
    obtain ⟨grows, value⟩ := ends.of_ok done
    exact ⟨grows, .inr ⟨declared, rfl, value⟩⟩
  · rename_i fault session failed
    exact ⟨ends.of_error failed, .inl rfl⟩

theorem call_evolves (brandIds : Bool) (sound : history.store.Sound) (c : Call) :
    Store.Evolves history.store (history.call brandIds c).store := by
  cases c with
  | add name fragment document preferStruct =>
    exact (store_add brandIds name fragment document preferStruct sound).1.evolves
  | markAsError name =>
    rw [(store_markAsError brandIds history name).1]
    exact Store.marked_evolves sound name

theorem call_sound (brandIds : Bool) (sound : history.Sound) (c : Call) :
    (history.call brandIds c).Sound := by
  have evolves := call_evolves brandIds sound.store c
  have kept : ∀ name ∈ history.returned, name ∈ (history.call brandIds c).store.names :=
    fun name member => evolves.names.subset (sound.returned name member)
  refine ⟨evolves.sound, ?_⟩
  cases c with
  | add name fragment document preferStruct =>
    obtain ⟨_, returned | ⟨declared, returned, member, _⟩⟩ :=
      store_add brandIds name fragment document preferStruct sound.store
    · rw [returned]
      exact kept
    · rw [returned]
      exact List.forall_mem_append.mpr ⟨kept, by simpa using member⟩
  | markAsError name =>
    rw [(store_markAsError brandIds history name).2]
    exact kept

theorem calls_sound (brandIds : Bool) (sound : history.Sound) (calls : List Call) :
    (calls.foldl (call brandIds) history).Sound := by
  induction calls generalizing history with
  | nil => exact sound
  | cons c rest ih => exact ih (call_sound brandIds sound c)

theorem calls_evolve (brandIds : Bool) (sound : history.Sound) (calls : List Call) :
    Store.Evolves history.store (calls.foldl (call brandIds) history).store := by
  induction calls generalizing history with
  | nil => exact .refl sound.store
  | cons c rest ih =>
    exact (call_evolves brandIds sound.store c).trans (ih (call_sound brandIds sound c))

theorem run_sound (brandIds : Bool) (calls : List Call) : (run brandIds calls).Sound := by
  have fresh : Sound {} := ⟨Store.sound_empty, by simp⟩
  exact calls_sound brandIds fresh calls

/-- The store of every history. The counter goes up with every registration, so that it equals the
number of declarations says that no registration has replaced one; later calls leave the names in
their places. -/
theorem run_store (brandIds : Bool) (calls : List Call) :
    let store := (run brandIds calls).store
    store.counter = store.declarations.length ∧
      (∀ more, store.names <+: (run brandIds (calls ++ more)).store.names) ∧
      (∀ d ∈ store.declarations, store.find? d.name = some d) ∧
      (∀ (i : Nat) (d : Declaration), store.declarations[i]? = some d → d.order = i) ∧
      (∀ name, name ∈ store.brands.names ↔
        ∃ d ∈ store.declarations, d.kind = .brand ∧ d.name = name) ∧
      store.brands.names.Nodup ∧
      (∀ pointer other name, store.refNames.lookup pointer = some name →
        store.refNames.lookup other = some name → pointer = other) ∧
      ∀ name ∈ (run brandIds calls).returned, name ∈ store.names := by
  have history := run_sound brandIds calls
  have sound := history.store
  refine ⟨sound.counted, ?_, ?_, ?_, ?_, ?_, ?_, history.returned⟩
  · intro more
    have split : run brandIds (calls ++ more) =
        more.foldl (call brandIds) (run brandIds calls) := List.foldl_append
    rw [split]
    exact (calls_evolve brandIds history more).names
  · exact fun d member => Store.find?_of_mem sound.distinct member
  · intro i d found
    obtain ⟨bound, listed⟩ := List.getElem?_eq_some_iff.mp found
    have place := congrArg (·[i]?) sound.ordered
    simpa [bound, listed] using place
  · exact fun name => sound.mem_brands
  · rw [← sound.branded]
    exact sound.distinct.sublist (List.filter_sublist.map _)
  · intro pointer other name found otherFound
    have same := List.inj_on_of_nodup_map sound.targets (mem_of_lookup found)
      (mem_of_lookup otherFound) rfl
    exact congrArg (·.1) same

end History

end TypedClient
