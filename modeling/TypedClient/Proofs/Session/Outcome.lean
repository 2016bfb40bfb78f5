import Mathlib
import TypedClient.Session

/-! Outcomes of steps. A fault leaves the state that a step reached, so what is said about the
store where a step ends covers both outcomes; only the value needs success. -/
namespace TypedClient

/-- Pure steps that succeed together succeed one by one. -/
theorem except_bind_eq_ok {result : Except Fault α} {next : α → Except Fault β} {b : β} :
    result >>= next = .ok b ↔ ∃ a, result = .ok a ∧ next a = .ok b := by
  constructor
  · intro done
    cases result with
    | ok a => exact ⟨a, rfl, done⟩
    | error fault => cases done
  · rintro ⟨a, rfl, done⟩
    exact done

theorem except_map_eq_ok {result : Except Fault α} {f : α → β} {b : β} :
    f <$> result = .ok b ↔ ∃ a, result = .ok a ∧ f a = b := by
  cases result with
  | ok a => simp [Functor.map, Except.map]
  | error fault => simp [Functor.map, Except.map]

theorem except_map_eq_error {result : Except Fault α} {f : α → β} {fault : Fault} :
    f <$> result = .error fault ↔ result = .error fault := by
  cases result with
  | ok a => simp [Functor.map, Except.map]
  | error fault => simp [Functor.map, Except.map]

theorem except_bind_eq_error {result : Except Fault α} {next : α → Except Fault β} {fault : Fault} :
    result >>= next = .error fault ↔
      result = .error fault ∨ ∃ a, result = .ok a ∧ next a = .error fault := by
  cases result with
  | ok a => simp [bind, Except.bind]
  | error fault => simp [bind, Except.bind]

theorem except_mapM_eq_ok {f : α → Except Fault β} {items : List α} {results : List β} :
    items.mapM f = .ok results ↔
      List.Forall₂ (fun item result => f item = .ok result) items results := by
  induction items generalizing results with
  | nil =>
    rw [List.mapM_nil, List.forall₂_nil_left_iff]
    exact ⟨fun done => by cases done; rfl, fun empty => by rw [empty]; rfl⟩
  | cons item rest ih =>
    rw [List.mapM_cons, except_bind_eq_ok]
    constructor
    · rintro ⟨first, found, done⟩
      obtain ⟨others, foundOthers, same⟩ := except_bind_eq_ok.mp done
      cases same
      exact .cons found (ih.mp foundOthers)
    · rintro (_ | ⟨found, others⟩)
      exact ⟨_, found, except_bind_eq_ok.mpr ⟨_, ih.mpr others, rfl⟩⟩

theorem exists_of_forall₂ {R : α → β → Prop} {xs : List α} {ys : List β} {b : β}
    (pairs : List.Forall₂ R xs ys) (member : b ∈ ys) : ∃ a ∈ xs, R a b := by
  obtain ⟨i, bound, rfl⟩ := List.mem_iff_getElem.mp member
  obtain ⟨length, related⟩ := List.forall₂_iff_get.mp pairs
  exact ⟨_, List.get_mem _ ⟨i, length ▸ bound⟩, related i _ bound⟩

theorem exists_of_mapM_eq_ok {f : α → Except Fault β} {items : List α} {results : List β} {b : β}
    (done : items.mapM f = .ok results) (member : b ∈ results) : ∃ a ∈ items, f a = .ok b := by
  obtain ⟨a, held, step⟩ := exists_of_forall₂ (except_mapM_eq_ok.mp done) member
  exact ⟨a, held, step⟩

theorem exists_of_mapM_eq_error {f : α → Except Fault β} {items : List α} {fault : Fault}
    (failed : items.mapM f = .error fault) : ∃ a ∈ items, f a = .error fault := by
  induction items with
  | nil => cases failed
  | cons item rest ih =>
    rw [List.mapM_cons] at failed
    rcases except_bind_eq_error.mp failed with first | ⟨_, _, failed⟩
    · exact ⟨item, List.mem_cons_self, first⟩
    · rcases except_bind_eq_error.mp failed with others | ⟨_, _, done⟩
      · obtain ⟨a, member, step⟩ := ih others
        exact ⟨a, List.mem_cons_of_mem _ member, step⟩
      · cases done

/-- What every step of a pure fold keeps holds of its result. -/
theorem except_foldlM_keeps {f : β → α → Except Fault β} {P : β → Prop} {items : List α}
    {init result : β} (step : ∀ item ∈ items, ∀ before after, P before →
      f before item = .ok after → P after)
    (start : P init) (done : items.foldlM f init = .ok result) : P result := by
  induction items generalizing init with
  | nil =>
    cases done
    exact start
  | cons item rest ih =>
    rw [List.foldlM_cons] at done
    obtain ⟨middle, first, done⟩ := except_bind_eq_ok.mp done
    exact ih (fun other member => step other (List.mem_cons_of_mem _ member))
      (step item List.mem_cons_self init middle start first) done

/-- A later step of a pure fold may use what the steps before it have read. -/
theorem except_foldlM_along {f : β → α → Except Fault β} {P : List α → β → Prop}
    {items : List α} {init result : β}
    (step : ∀ done item before after, P done before → f before item = .ok after →
      P (done ++ [item]) after)
    (start : P [] init) (run : items.foldlM f init = .ok result) : P items result := by
  suffices general : ∀ done init, P done init → items.foldlM f init = .ok result →
      P (done ++ items) result from general [] init start run
  clear start run init
  induction items with
  | nil =>
    intro done init start run
    cases run
    rwa [List.append_nil]
  | cons item rest ih =>
    intro done init start run
    rw [List.foldlM_cons] at run
    obtain ⟨middle, first, run⟩ := except_bind_eq_ok.mp run
    have further := ih (done ++ [item]) middle (step done item init middle start first) run
    rwa [List.append_assoc] at further

namespace Build

theorem bind_eq_ok {step : Build α} {next : α → Build β} {b : β} {s s' : Session} :
    (step >>= next) s = .ok b s' ↔ ∃ a t, step s = .ok a t ∧ next a t = .ok b s' := by
  change EStateM.bind step next s = .ok b s' ↔ _
  unfold EStateM.bind
  cases outcome : step s with
  | ok a t => simp
  | error fault t => simp

theorem lift_eq_ok {result : Except Fault α} {a : α} {s s' : Session} :
    Build.lift result s = .ok a s' ↔ result = .ok a ∧ s' = s := by
  constructor
  · intro done
    cases result with
    | ok b =>
      cases done
      exact ⟨rfl, rfl⟩
    | error fault => cases done
  · rintro ⟨rfl, rfl⟩
    rfl

/-- A later step of a fold may use what the steps before it have read. -/
theorem foldlM_along {f : β → α → Build β} {P : List α → β → Prop} {items : List α}
    {init result : β} {s t : Session}
    (step : ∀ done item before after s t, P done before → f before item s = .ok after t →
      P (done ++ [item]) after)
    (start : P [] init) (run : items.foldlM f init s = .ok result t) : P items result := by
  suffices general : ∀ done init s, P done init → items.foldlM f init s = .ok result t →
      P (done ++ items) result from general [] init s start run
  clear start run init s
  induction items with
  | nil =>
    intro done init s start run
    cases run
    rwa [List.append_nil]
  | cons item rest ih =>
    intro done init s start run
    rw [List.foldlM_cons] at run
    obtain ⟨middle, u, first, run⟩ := bind_eq_ok.mp run
    have further := ih (done ++ [item]) middle u (step done item init middle s u start first) run
    rwa [List.append_assoc] at further

def succeeds (step : Build α) (s : Session) (test : α → Session → Bool) : Bool :=
  match step s with
  | .ok a t => test a t
  | .error _ _ => false

theorem exists_of_succeeds {step : Build α} {s : Session} {test : α → Session → Bool}
    (passed : succeeds step s test = true) : ∃ a t, step s = .ok a t ∧ test a t = true := by
  unfold succeeds at passed
  cases outcome : step s with
  | ok a t => exact ⟨a, t, rfl, by simpa only [outcome] using passed⟩
  | error fault t => simp [outcome] at passed

theorem exists_of_not_succeeds {step : Build α} {s : Session}
    (failed : succeeds step s (fun _ _ => true) = false) : ∃ fault t, step s = .error fault t := by
  unfold succeeds at failed
  cases outcome : step s with
  | ok a t => simp [outcome] at failed
  | error fault t => exact ⟨fault, t, rfl⟩

/-- A step ends in a store of `P`, also when it fails; what it returns satisfies `Q`. -/
def Ends (P : Store → Prop) (Q : α → Store → Prop) (step : Build α) (s : Session) : Prop :=
  match step s with
  | .ok a s' => P s'.store ∧ Q a s'.store
  | .error _ s' => P s'.store

namespace Ends

variable {P P' : Store → Prop} {Q : α → Store → Prop} {Q' : β → Store → Prop} {s : Session}

theorem of_ok {step : Build α} {a : α} {s' : Session} (h : Ends P Q step s)
    (done : step s = .ok a s') : P s'.store ∧ Q a s'.store := by
  unfold Ends at h
  rwa [done] at h

theorem of_error {step : Build α} {fault : Fault} {s' : Session} (h : Ends P Q step s)
    (failed : step s = .error fault s') : P s'.store := by
  unfold Ends at h
  rwa [failed] at h

theorem mono {R : α → Store → Prop} {step : Build α} (h : Ends P Q step s)
    (state : ∀ t, P t → P' t) (value : ∀ a t, P t → Q a t → R a t) : Ends P' R step s := by
  unfold Ends at h ⊢
  cases outcome : step s with
  | ok a s' =>
    rw [outcome] at h
    exact ⟨state _ h.1, value _ _ h.1 h.2⟩
  | error fault s' =>
    rw [outcome] at h
    exact state _ h

theorem pure {a : α} (state : P s.store) (value : Q a s.store) : Ends P Q (Pure.pure a) s :=
  ⟨state, value⟩

theorem throw {fault : Fault} (state : P s.store) :
    Ends P Q (MonadExcept.throw fault : Build α) s :=
  state

/-- What follows a step may use that the step has succeeded. -/
theorem bind_of_ok {step : Build α} {next : α → Build β} (first : Ends P Q step s)
    (second : ∀ a s', step s = .ok a s' → P s'.store → Ends P Q' (next a) s') :
    Ends P Q' (step >>= next) s := by
  unfold Ends at first ⊢
  change match EStateM.bind step next s with | .ok b s' => _ | .error _ s' => _
  unfold EStateM.bind
  cases outcome : step s with
  | ok a s' =>
    rw [outcome] at first
    exact second a s' outcome first.1
  | error fault s' =>
    rw [outcome] at first
    exact first

theorem bind {step : Build α} {next : α → Build β} (first : Ends P Q step s)
    (second : ∀ a s', P s'.store → Q a s'.store → Ends P Q' (next a) s') :
    Ends P Q' (step >>= next) s :=
  bind_of_ok first fun a s' done reached => second a s' reached (first.of_ok done).2

theorem lift {result : Except Fault α} (state : P s.store)
    (value : ∀ a, result = .ok a → Q a s.store) : Ends P Q (Build.lift result) s := by
  cases result with
  | ok a => exact pure state (value a rfl)
  | error fault => exact throw state

/-- A step that does what another does elsewhere. -/
theorem moved {step rest : Build α} {t : Session} (same : step s = rest t) (ends : Ends P Q rest t) :
    Ends P Q step s := by
  unfold Ends at ends ⊢
  rwa [same]

/-- Reading the store changes nothing, so the rest may use the store as it is. -/
theorem store {next : Store → Build β} (rest : Ends P Q' (next s.store) s) :
    Ends P Q' (Build.store >>= next) s :=
  rest

theorem modifyStore {f : Store → Store} {next : Unit → Build β}
    (rest : Ends P Q' (next ()) { s with store := f s.store }) :
    Ends P Q' (Build.modifyStore f >>= next) s :=
  rest

/-- A change of the store at the end of a step. -/
theorem modified {Q : Unit → Store → Prop} {f : Store → Store} (state : P (f s.store))
    (value : Q () (f s.store)) : Ends P Q (Build.modifyStore f) s :=
  ⟨state, value⟩

theorem report {level : Level} {text : String} {next : Unit → Build β}
    (rest : Ends P Q' (next ()) { s with log := s.log.push ⟨level, text⟩ }) :
    Ends P Q' (Build.report level text >>= next) s :=
  rest

/-- A pure step in front of others. -/
theorem lift_bind {result : Except Fault α} {next : α → Build β} (state : P s.store)
    (rest : ∀ a, result = .ok a → Ends P Q' (next a) s) :
    Ends P Q' (Build.lift result >>= next) s := by
  cases result with
  | ok a => exact rest a rfl
  | error fault => exact state

end Ends

def reached (step : Build α) (s : Session) : Session :=
  match step s with
  | .ok _ t | .error _ t => t

theorem Ends.reached {P : Store → Prop} {Q : α → Store → Prop} {step : Build α} {s : Session}
    (ends : Ends P Q step s) : P (step.reached s).store := by
  unfold Ends at ends
  unfold Build.reached
  cases outcome : step s with
  | ok a t =>
    rw [outcome] at ends
    exact ends.1
  | error fault t =>
    rw [outcome] at ends
    exact ends

/-- A step that starts in a store of `P` ends in one, also when it fails. -/
def Keeps (P : Store → Prop) (step : Build α) : Prop :=
  ∀ s : Session, P s.store → Ends P (fun _ _ => True) step s

namespace Keeps

variable {P : Store → Prop}

theorem pure (a : α) : Keeps P (Pure.pure a : Build α) :=
  fun _ holds => .pure holds trivial

theorem throw (fault : Fault) : Keeps P (MonadExcept.throw fault : Build α) :=
  fun _ holds => holds

theorem lift (result : Except Fault α) : Keeps P (Build.lift result) :=
  fun _ holds => .lift holds fun _ _ => trivial

theorem store : Keeps P Build.store :=
  fun _ holds => ⟨holds, trivial⟩

theorem report (level : Level) (text : String) : Keeps P (Build.report level text) :=
  fun _ holds => ⟨holds, trivial⟩

theorem noteFill (name : String) : Keeps P (Build.noteFill name) :=
  fun _ holds => ⟨holds, trivial⟩

theorem modifyStore {f : Store → Store} (keeps : ∀ store, P store → P (f store)) :
    Keeps P (Build.modifyStore f) :=
  fun s holds => ⟨keeps s.store holds, trivial⟩

theorem bind {step : Build α} {next : α → Build β} (first : Keeps P step)
    (second : ∀ a, Keeps P (next a)) : Keeps P (step >>= next) :=
  fun s holds => Ends.bind (first s holds) fun a t reached _ => second a t reached

theorem mapM {f : α → Build β} (items : List α) (each : ∀ item ∈ items, Keeps P (f item)) :
    Keeps P (items.mapM f) := by
  induction items with
  | nil => exact pure []
  | cons item rest ih =>
    rw [List.forall_mem_cons] at each
    rw [List.mapM_cons]
    exact bind each.1 fun b => bind (ih each.2) fun bs => pure (b :: bs)

theorem foldlM {f : β → α → Build β} {items : List α}
    (each : ∀ item ∈ items, ∀ b, Keeps P (f b item)) (init : β) : Keeps P (items.foldlM f init) := by
  induction items generalizing init with
  | nil => exact pure init
  | cons item rest ih =>
    rw [List.forall_mem_cons] at each
    rw [List.foldlM_cons]
    exact bind (each.1 init) fun b => ih each.2 b

end Keeps

/-- A relation between stores that steps can be chained along: it holds of every valid store with
itself, it is transitive, and it leads to valid stores only. -/
structure Chain (valid : Store → Prop) (R : Store → Store → Prop) : Prop where
  refl : ∀ {t}, valid t → R t t
  trans : ∀ {a b c}, R a b → R b c → R a c
  valid : ∀ {a b}, R a b → valid b

namespace Chain

variable {valid : Store → Prop} {R : Store → Store → Prop} {Q : α → Store → Prop}
  {Q' : β → Store → Prop} {s : Session}

theorem bind (chain : Chain valid R) {step : Build α} {next : α → Build β}
    (first : Ends (R s.store) Q step s)
    (second : ∀ a s', R s.store s'.store → Q a s'.store → Ends (R s'.store) Q' (next a) s') :
    Ends (R s.store) Q' (step >>= next) s := by
  apply Ends.bind first
  intro a s' reached value
  exact (second a s' reached value).mono (fun _ => chain.trans reached) (fun _ _ _ => id)

/-- One step for each item. What the steps return has to outlast the steps that follow. -/
theorem mapM (chain : Chain valid R) {f : α → Build β} {items : List α}
    (stable : ∀ b t t', R t t' → Q' b t → Q' b t')
    (step : ∀ item ∈ items, ∀ s : Session, valid s.store → Ends (R s.store) Q' (f item) s)
    (start : valid s.store) :
    Ends (R s.store) (fun bs t => ∀ b ∈ bs, Q' b t) (items.mapM f) s := by
  induction items generalizing s with
  | nil => exact .pure (chain.refl start) (by simp)
  | cons item rest ih =>
    rw [List.mapM_cons]
    apply chain.bind (step item (by simp) s start)
    intro b s' reached value
    have others := ih (fun item member => step item (by simp [member])) (chain.valid reached)
    apply chain.bind (Q := fun bs t => ∀ b' ∈ b :: bs, Q' b' t)
    · apply others.mono (fun _ => id)
      intro bs t grown values
      exact List.forall_mem_cons.mpr ⟨stable b _ t grown value, values⟩
    · intro bs s'' reached values
      exact .pure (chain.refl (chain.valid reached)) values

/-- A fold whose accumulator keeps a property along the way. -/
theorem foldlM (chain : Chain valid R) {f : β → α → Build β} {items : List α} {init : β}
    (step : ∀ item ∈ items, ∀ b (s : Session), valid s.store → Q' b s.store →
      Ends (R s.store) Q' (f b item) s)
    (start : valid s.store) (value : Q' init s.store) :
    Ends (R s.store) Q' (items.foldlM f init) s := by
  induction items generalizing s init with
  | nil => exact .pure (chain.refl start) value
  | cons item rest ih =>
    rw [List.foldlM_cons]
    apply chain.bind (step item (by simp) init s start value)
    intro b s' reached value
    exact ih (fun item member => step item (by simp [member])) (chain.valid reached) value

end Chain

/-- Where a step succeeds, it leads from store to store along `R`, and what it returns satisfies
`Q`. -/
def Yields (R : Store → Store → Prop) (Q : α → Store → Prop) (step : Build α) (s : Session) : Prop :=
  ∀ a t, step s = .ok a t → R s.store t.store ∧ Q a t.store

namespace Yields

variable {valid : Store → Prop} {R : Store → Store → Prop} {Q : α → Store → Prop}
  {Q' : β → Store → Prop} {s : Session}

theorem pure {a : α} (related : R s.store s.store) (value : Q a s.store) :
    Yields R Q (Pure.pure a) s := by
  rintro _ _ done
  cases done
  exact ⟨related, value⟩

theorem throw {fault : Fault} : Yields R Q (MonadExcept.throw fault : Build α) s := by
  rintro _ _ done
  cases done

theorem lift_bind {result : Except Fault α} {next : α → Build β}
    (rest : ∀ a, result = .ok a → Yields R Q' (next a) s) :
    Yields R Q' (Build.lift result >>= next) s := by
  cases result with
  | ok a => exact rest a rfl
  | error fault =>
    rintro _ _ done
    cases done

theorem store {next : Store → Build β} (rest : Yields R Q' (next s.store) s) :
    Yields R Q' (Build.store >>= next) s :=
  rest

theorem report {level : Level} {text : String} {next : Unit → Build β}
    (rest : Yields R Q' (next ()) { s with log := s.log.push ⟨level, text⟩ }) :
    Yields R Q' (Build.report level text >>= next) s :=
  rest

theorem modifyStore {f : Store → Store} {next : Unit → Build β}
    (related : ∀ t, R (f s.store) t → R s.store t)
    (rest : Yields R Q' (next ()) { s with store := f s.store }) :
    Yields R Q' (Build.modifyStore f >>= next) s := by
  intro b t done
  obtain ⟨reached, value⟩ := rest b t done
  exact ⟨related _ reached, value⟩

theorem bind (chain : Chain valid R) {step : Build α} {next : α → Build β} (first : Yields R Q step s)
    (second : ∀ a t, R s.store t.store → Q a t.store → Yields R Q' (next a) t) :
    Yields R Q' (step >>= next) s := by
  intro b u done
  obtain ⟨a, t, stepped, rest⟩ := bind_eq_ok.mp done
  obtain ⟨reached, value⟩ := first a t stepped
  obtain ⟨further, result⟩ := second a t reached value b u rest
  exact ⟨chain.trans reached further, result⟩

/-- One step for each item, each with a result of its own, which outlasts the steps that follow. -/
theorem mapM (chain : Chain valid R) {Q : α → β → Store → Prop} {f : α → Build β} {items : List α}
    (stable : ∀ a b t t', R t t' → Q a b t → Q a b t')
    (step : ∀ item ∈ items, ∀ s : Session, valid s.store → Yields R (Q item) (f item) s)
    (start : valid s.store) :
    Yields R (fun bs t => List.Forall₂ (Q · · t) items bs) (items.mapM f) s := by
  induction items generalizing s with
  | nil => exact pure (chain.refl start) .nil
  | cons item rest ih =>
    rw [List.mapM_cons]
    apply bind chain (step item List.mem_cons_self s start)
    intro b t reached value
    have others := ih (fun other member => step other (List.mem_cons_of_mem _ member))
      (chain.valid reached)
    intro bs u done
    obtain ⟨tail, v, mapped, same⟩ := bind_eq_ok.mp done
    cases same
    obtain ⟨further, values⟩ := others tail u mapped
    exact ⟨further, .cons (stable item b _ _ further value) values⟩

/-- Every item has had its step, and what it led to is related to what is reached in the end. -/
theorem exists_of_mapM (chain : Chain valid R) {f : α → Build β} {items : List α} {item : α}
    {results : List β} {t : Session}
    (step : ∀ item ∈ items, ∀ s : Session, valid s.store → Yields R (fun _ _ => True) (f item) s)
    (start : valid s.store) (done : items.mapM f s = .ok results t) (member : item ∈ items) :
    ∃ u v b, valid u.store ∧ f item u = .ok b v ∧ R v.store t.store := by
  induction items generalizing s results with
  | nil => cases member
  | cons first rest ih =>
    rw [List.mapM_cons] at done
    obtain ⟨b, u, stepped, later⟩ := bind_eq_ok.mp done
    have valid := chain.valid (step first List.mem_cons_self s start b u stepped).1
    obtain ⟨bs, v, mapped, same⟩ := bind_eq_ok.mp later
    cases same
    rcases List.mem_cons.mp member with rfl | member
    · have others := mapM chain (fun _ _ _ _ _ => id)
        (fun item member => step item (List.mem_cons_of_mem _ member)) valid
      exact ⟨s, u, b, start, stepped, (others bs t mapped).1⟩
    · exact ih (fun item member => step item (List.mem_cons_of_mem _ member)) valid mapped member

theorem foldlM (chain : Chain valid R) {f : β → α → Build β} {items : List α}
    (step : ∀ item ∈ items, ∀ b (s : Session), valid s.store →
      Yields R (fun _ _ => True) (f b item) s) (start : valid s.store)
    (init : β) : Yields R (fun _ _ => True) (items.foldlM f init) s := by
  induction items generalizing s init with
  | nil => exact pure (chain.refl start) trivial
  | cons item rest ih =>
    rw [List.foldlM_cons]
    refine bind chain (step item List.mem_cons_self init s start) fun b t reached _ => ?_
    exact ih (fun item member => step item (List.mem_cons_of_mem _ member)) (chain.valid reached) b

theorem exists_of_foldlM (chain : Chain valid R) {f : β → α → Build β} {items : List α} {item : α}
    {init last : β} {t : Session}
    (step : ∀ item ∈ items, ∀ b (s : Session), valid s.store →
      Yields R (fun _ _ => True) (f b item) s)
    (start : valid s.store) (done : items.foldlM f init s = .ok last t) (member : item ∈ items) :
    ∃ u v b b', valid u.store ∧ f b item u = .ok b' v ∧ R v.store t.store := by
  induction items generalizing s init with
  | nil => cases member
  | cons first rest ih =>
    rw [List.foldlM_cons] at done
    obtain ⟨b, u, stepped, later⟩ := bind_eq_ok.mp done
    have valid := chain.valid (step first List.mem_cons_self init s start b u stepped).1
    rcases List.mem_cons.mp member with rfl | member
    · have others := foldlM chain
        (fun item member => step item (List.mem_cons_of_mem _ member)) valid b
      exact ⟨s, u, init, b, start, stepped, (others last t later).1⟩
    · exact ih (fun item member => step item (List.mem_cons_of_mem _ member)) valid later member

end Yields

/-- Where a step succeeds, what it returns does not depend on the session. -/
def Steady (step : Build α) : Prop :=
  ∀ a s t, step s = .ok a t → ∀ u, ∃ v, step u = .ok a v

namespace Steady

theorem pure (a : α) : Steady (Pure.pure a : Build α) := by
  rintro _ _ _ done u
  cases done
  exact ⟨u, rfl⟩

theorem throw (fault : Fault) : Steady (MonadExcept.throw fault : Build α) := by
  rintro _ _ _ done
  cases done

theorem lift (result : Except Fault α) : Steady (Build.lift result) := by
  intro a s t done u
  exact ⟨u, lift_eq_ok.mpr ⟨(lift_eq_ok.mp done).1, rfl⟩⟩

theorem report (level : Level) (text : String) : Steady (Build.report level text) :=
  fun _ _ _ _ _ => ⟨_, rfl⟩

theorem bind {step : Build α} {next : α → Build β} (first : Steady step)
    (second : ∀ a, Steady (next a)) : Steady (step >>= next) := by
  intro b s t done u
  obtain ⟨a, s', stepped, rest⟩ := bind_eq_ok.mp done
  obtain ⟨u', again⟩ := first a s s' stepped u
  obtain ⟨v, ended⟩ := second a b s' t rest u'
  exact ⟨v, bind_eq_ok.mpr ⟨a, u', again, ended⟩⟩

end Steady

end Build

end TypedClient
