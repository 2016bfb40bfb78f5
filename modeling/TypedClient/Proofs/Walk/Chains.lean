import TypedClient.Proofs.Builder.Unfolding
import TypedClient.Proofs.Schema.Nullable
import TypedClient.Walk

/-! Chains of references. Following a value from reference to reference ends: at a value that is no
reference, at a reference that leads nowhere or cannot be read, or at one that has been met before.
Every reference on the way is one of the document or of the value that is followed, so there are
only so many to be met. -/
namespace TypedClient

namespace Json

def pointer? : Json → Option Json
  | .obj members => Members.get? members "$ref"
  | _ => none

theorem exists_of_pointer? {value pointer : Json} (refers : value.pointer? = some pointer) :
    ∃ members, value = .obj members ∧ Members.get? members "$ref" = some pointer := by
  cases value with
  | obj members => exact ⟨members, rfl, refers⟩
  | null | bool | int | float | str | arr => cases refers

theorem mem_references_of_pointer? {value : Json} {text : String}
    (refers : value.pointer? = some (.str text)) : text ∈ value.references := by
  obtain ⟨members, rfl, found⟩ := exists_of_pointer? refers
  obtain ⟨m, member, own, same⟩ := Members.exists_of_get? found
  rw [references]
  exact mem_referencesOfMembers.mpr ⟨m, member, .inl ⟨own, same⟩⟩

end Json

theorem Build.lift_ok_bind {a : α} {next : α → Build β} :
    (Build.lift (.ok a) >>= next) = next a :=
  rfl

namespace Walk

variable {document value last last' : Json} {text : String} {met met' : List String} {s : Session}

/-- Only a text leads anywhere. -/
theorem exists_of_resolve {pointer : Json} {target : Pointer.Target}
    (resolved : Pointer.resolve pointer document = .ok (some target)) :
    ∃ text, pointer = .str text := by
  cases pointer with
  | str text => exact ⟨text, rfl⟩
  | null | bool | int | float | arr | obj => cases resolved

theorem resolve_ne_null {pointer : Json} {target : Pointer.Target}
    (resolved : Pointer.resolve pointer document = .ok (some target)) : target.fragment ≠ .null := by
  unfold Pointer.resolve at resolved
  split at resolved
  · cases resolved
  · obtain ⟨found, _, resolved⟩ := except_bind_eq_ok.mp resolved
    split at resolved
    all_goals cases resolved
    all_goals simp

/-- A chain of references: from a value to the last one, over the texts that are met in between. -/
inductive Trail (document : Json) : List String → Json → Json → Prop
  | here (value : Json) : Trail document [] value value
  | next {value last : Json} {text : String} {met : List String} {target : Pointer.Target}
      (refers : value.pointer? = some (.str text))
      (resolved : Pointer.resolve (.str text) document = .ok (some target))
      (rest : Trail document met target.fragment last) :
    Trail document (text :: met) value last

namespace Trail

/-- A value has one chain only, so of two chains one goes on where the other stops. -/
theorem comparable (trail : Trail document met value last)
    (other : Trail document met' value last') :
    (∃ more, met' = met ++ more ∧ Trail document more last last') ∨
      ∃ more, met = met' ++ more ∧ Trail document more last' last := by
  induction trail generalizing met' with
  | here => exact .inl ⟨met', rfl, other⟩
  | next refers resolved rest ih =>
    cases other with
    | here => exact .inr ⟨_, rfl, .next refers resolved rest⟩
    | next refers' resolved' rest' =>
      cases refers.symm.trans refers'
      cases resolved.symm.trans resolved'
      rcases ih rest' with ⟨more, rfl, beyond⟩ | ⟨more, rfl, beyond⟩
      · exact .inl ⟨more, rfl, beyond⟩
      · exact .inr ⟨more, rfl, beyond⟩

/-- A value that is no reference is the end of its chain. -/
theorem of_plain (trail : Trail document met value last) (plain : value.pointer? = none) :
    met = [] ∧ last = value := by
  cases trail with
  | here => exact ⟨rfl, rfl⟩
  | next refers => cases plain.symm.trans refers

/-- Where a chain has an end, every other chain goes on to it. -/
theorem continues (trail : Trail document met value last) (plain : last.pointer? = none)
    (other : Trail document met' value last') :
    ∃ more, met = met' ++ more ∧ Trail document more last' last := by
  rcases trail.comparable other with ⟨more, rfl, beyond⟩ | further
  · obtain ⟨rfl, rfl⟩ := beyond.of_plain plain
    exact ⟨[], by simp, .here _⟩
  · exact further

theorem unique (trail : Trail document met value last) (plain : last.pointer? = none)
    (other : Trail document met' value last') (plain' : last'.pointer? = none) :
    met = met' ∧ last = last' := by
  obtain ⟨more, rfl, beyond⟩ := trail.continues plain other
  obtain ⟨rfl, rfl⟩ := beyond.of_plain plain'
  exact ⟨by simp, rfl⟩

/-- What follows a reference on a chain is the chain of its target. -/
theorem exists_of_append {before after : List String}
    (trail : Trail document (before ++ text :: after) value last) :
    ∃ target, Pointer.resolve (.str text) document = .ok (some target) ∧
      Trail document after target.fragment last := by
  induction before generalizing value with
  | nil =>
    cases trail with
    | next _ resolved rest => exact ⟨_, resolved, rest⟩
  | cons first before ih =>
    cases trail with
    | next _ _ rest => exact ih rest

/-- A chain that has an end meets no reference twice: after the second time it would have to be as
long as after the first. -/
theorem nodup (trail : Trail document met value last) (plain : last.pointer? = none) :
    met.Nodup := by
  induction trail with
  | here => exact List.nodup_nil
  | @next value last text met target _ resolved rest ih =>
    refine List.nodup_cons.mpr ⟨fun again => ?_, ih plain⟩
    obtain ⟨before, after, rfl⟩ := List.append_of_mem again
    obtain ⟨target', resolved', later⟩ := rest.exists_of_append
    cases resolved.symm.trans resolved'
    have lengths := congrArg List.length (rest.unique plain later plain).1
    simp only [List.length_append, List.length_cons] at lengths
    omega

/-- A reference leads to an object or to a truth value, never to null. -/
theorem ne_null (trail : Trail document met value last) (given : value ≠ .null) :
    last ≠ .null := by
  induction trail with
  | here => exact given
  | next _ resolved _ ih => exact ih (resolve_ne_null resolved)

end Trail

/-- A chain goes no further: its last reference leads nowhere, or it has been met before. -/
def Blocked (document : Json) (met : List String) (last : Json) : Prop :=
  ∃ pointer, last.pointer? = some pointer ∧
    (Pointer.resolve pointer document = .ok none ∨ ∃ text ∈ met, pointer = .str text)

/-- A chain that has an end is blocked nowhere. -/
theorem Trail.not_blocked (trail : Trail document met value last) (plain : last.pointer? = none)
    (other : Trail document met' value last') : ¬ Blocked document met' last' := by
  rintro ⟨pointer, refers, cause⟩
  obtain ⟨more, rfl, beyond⟩ := trail.continues plain other
  cases beyond with
  | here => cases plain.symm.trans refers
  | next refers' resolved _ =>
    cases refers.symm.trans refers'
    rcases cause with nowhere | ⟨text, visited, same⟩
    · cases nowhere.symm.trans resolved
    · cases same
      have fresh := List.nodup_middle.mp (trail.nodup plain)
      exact (List.nodup_cons.mp fresh).1 (List.mem_append_left _ visited)

def warned (s : Session) (pointer : Json) : Session :=
  let shown := pointer.display
  { s with log := s.log.push ⟨.warning, s!"Unresolvable reference {shown}"⟩ }

inductive Halts (document : Json) (met : List String) (s : Session) (last : Json) :
    EStateM.Result Fault Session Json → Prop
  | plain (ends : last.pointer? = none) : Halts document met s last (.ok last s)
  | again {text : String} (refers : last.pointer? = some (.str text)) (visited : text ∈ met) :
    Halts document met s last (.ok .null s)
  | dangling {pointer : Json} {key : Key} (refers : last.pointer? = some pointer)
      (keyed : pointer.toKey = .ok key) (fresh : ∀ text ∈ met, pointer ≠ .str text)
      (nowhere : Pointer.resolve pointer document = .ok none) :
    Halts document met s last (.ok .null (warned s pointer))
  | unkeyed {pointer : Json} {fault : Fault} (refers : last.pointer? = some pointer)
      (failed : pointer.toKey = .error fault) : Halts document met s last (.error fault s)
  | unread {pointer : Json} {key : Key} {fault : Fault} (refers : last.pointer? = some pointer)
      (keyed : pointer.toKey = .ok key) (fresh : ∀ text ∈ met, pointer ≠ .str text)
      (failed : Pointer.resolve pointer document = .error fault) :
    Halts document met s last (.error fault s)

namespace Halts

variable {outcome outcome' : EStateM.Result Fault Session Json}

/-- Where following stops, the chain goes on to a target that is not new, or not at all. -/
theorem visited {target : Pointer.Target} (halts : Halts document met s last outcome)
    (refers : last.pointer? = some (.str text))
    (resolved : Pointer.resolve (.str text) document = .ok (some target)) : text ∈ met := by
  cases halts with
  | plain ends => cases ends.symm.trans refers
  | again refers' visited =>
    cases refers.symm.trans refers'
    exact visited
  | dangling refers' _ _ nowhere =>
    cases refers.symm.trans refers'
    cases nowhere.symm.trans resolved
  | unkeyed refers' failed =>
    cases refers.symm.trans refers'
    cases failed
  | unread refers' _ _ failed =>
    cases refers.symm.trans refers'
    cases failed.symm.trans resolved

theorem stops {more : List String} (halts : Halts document met s last outcome)
    (beyond : Trail document more last last') (fresh : (met ++ more).Nodup) :
    more = [] ∧ last' = last := by
  cases beyond with
  | here => exact ⟨rfl, rfl⟩
  | next refers resolved _ =>
    have apart := (List.nodup_cons.mp (List.nodup_middle.mp fresh)).1
    exact absurd (List.mem_append_left _ (halts.visited refers resolved)) apart

theorem unique (halts : Halts document met s last outcome)
    (halts' : Halts document met s last outcome') : outcome = outcome' := by
  -- the causes exclude each other; in particular a text can always be a key
  cases halts <;> cases halts' <;> grind [Json.toKey, Json.key?]

end Halts

/-- What following a value comes to: its chain is gone along, each reference once, as far as that
is possible. -/
def Follows (document value : Json) (s : Session) (outcome : EStateM.Result Fault Session Json) :
    Prop :=
  ∃ met last, Trail document met value last ∧ met.Nodup ∧ Halts document met s last outcome

theorem Follows.unique {outcome outcome' : EStateM.Result Fault Session Json}
    (follows : Follows document value s outcome) (follows' : Follows document value s outcome') :
    outcome = outcome' := by
  obtain ⟨met, last, trail, fresh, halts⟩ := follows
  obtain ⟨met', last', trail', fresh', halts'⟩ := follows'
  rcases trail.comparable trail' with ⟨more, rfl, beyond⟩ | ⟨more, rfl, beyond⟩
  · obtain ⟨rfl, rfl⟩ := halts.stops beyond fresh'
    rw [List.append_nil] at halts'
    exact halts.unique halts'
  · obtain ⟨rfl, rfl⟩ := halts'.stops beyond fresh
    rw [List.append_nil] at halts
    exact halts.unique halts'

def marks (met : List String) : List Key :=
  (met.map Key.text).reverse

theorem marks_append (met : List String) (text : String) :
    marks (met ++ [text]) = .text text :: marks met := by
  simp [marks]

theorem any_marks {pointer : Json} {key : Key} (keyed : pointer.toKey = .ok key) :
    (marks met).any (·.same key) = true ↔ ∃ text ∈ met, pointer = .str text := by
  cases pointer with
  | str text =>
    cases keyed
    simp [marks, Key.same_text]
  | null | bool | int | float =>
    cases keyed
    simp [marks, Key.same, Key.quantity?]
  | arr | obj => cases keyed

/-- One turn: it stops, or it goes on to the target of a reference that is new. -/
theorem followFrom_turn (document : Json) (fuel : Nat) (met : List String) (value : Json)
    (s : Session) :
    Halts document met s value (followFrom document (fuel + 1) (marks met) value s) ∨
      ∃ text target, value.pointer? = some (.str text) ∧ text ∉ met ∧
        Pointer.resolve (.str text) document = .ok (some target) ∧
        followFrom document (fuel + 1) (marks met) value s =
          followFrom document fuel (marks (met ++ [text])) target.fragment s := by
  cases refers : value.pointer? with
  | none =>
    have stays : followFrom document (fuel + 1) (marks met) value s = .ok value s := by
      cases value with
      | obj members =>
        rw [Json.pointer?] at refers
        simp only [followFrom, refers]
        rfl
      | null | bool | int | float | str | arr => rfl
    rw [stays]
    exact .inl (.plain refers)
  | some pointer =>
    obtain ⟨members, rfl, found⟩ := Json.exists_of_pointer? refers
    simp only [followFrom, found]
    cases keyed : pointer.toKey with
    | error fault => exact .inl (.unkeyed refers keyed)
    | ok key =>
      rw [Build.lift_ok_bind]
      by_cases visited : ∃ text ∈ met, pointer = .str text
      · rw [if_pos ((any_marks keyed).mpr visited)]
        obtain ⟨text, visited, rfl⟩ := visited
        exact .inl (.again refers visited)
      · rw [if_neg (visited ∘ (any_marks keyed).mp)]
        have fresh : ∀ text ∈ met, pointer ≠ .str text := fun text member same =>
          visited ⟨text, member, same⟩
        cases resolved : Pointer.resolve pointer document with
        | error fault => exact .inl (.unread refers keyed fresh resolved)
        | ok result =>
          cases result with
          | none => exact .inl (.dangling refers keyed fresh resolved)
          | some target =>
            obtain ⟨text, rfl⟩ := exists_of_resolve resolved
            cases keyed
            refine .inr ⟨text, target, rfl, fun member => fresh text member rfl, resolved, ?_⟩
            rw [marks_append]
            rfl

/-- A run stops on the way of the chain, as long as the fuel is more than the references that are
left to be met. -/
theorem followFrom_halts {texts : List String} {fuel : Nat} (met : List String)
    (known : document.references ⊆ texts) (refers : value.references ⊆ texts)
    (enough : Schema.unseen texts (marks met) < fuel) (fresh : met.Nodup) :
    ∃ more last, Trail document more value last ∧ (met ++ more).Nodup ∧
      Halts document (met ++ more) s last (followFrom document fuel (marks met) value s) := by
  induction fuel generalizing met value with
  | zero => omega
  | succ fuel ih =>
    rcases followFrom_turn document fuel met value s with
      halts | ⟨text, target, refers', new, resolved, onward⟩
    · refine ⟨[], value, .here value, ?_⟩
      rw [List.append_nil]
      exact ⟨fresh, halts⟩
    · have listed := refers (Json.mem_references_of_pointer? refers')
      have keyed : (Json.str text).toKey = .ok (.text text) := rfl
      have unmarked : (marks met).any (·.same (.text text)) = false := by
        rw [Bool.eq_false_iff, ne_eq, any_marks keyed]
        simpa using new
      have fewer := Schema.unseen_cons_lt listed unmarked
      rw [← marks_append] at fewer
      have longer : (met ++ [text]).Nodup := by
        rw [← List.concat_eq_append]
        exact fresh.concat new
      have below := (Builder.resolve_bounds resolved).2
      obtain ⟨more, last, trail, nodup, halts⟩ := ih (met ++ [text])
        (List.Subset.trans below known) (by omega) longer
      rw [List.append_assoc, List.singleton_append] at nodup halts
      exact ⟨text :: more, last, .next refers' resolved trail, nodup, onward ▸ halts⟩

/-- Following stops before the fuel runs out: a chain meets no more references than there are in the
document and in the value. -/
theorem followFrom_follows (document value : Json) (s : Session) (more : Nat) :
    Follows document value s
      (followFrom document (Builder.refCount document + Builder.refCount value + 2 + more) [] value
        s) := by
  have few := Schema.unseen_le (document.references ++ value.references) (marks [])
  have inDocument := document.length_references_le_refCount
  have inValue := value.length_references_le_refCount
  rw [List.length_append] at few
  exact followFrom_halts [] (List.subset_append_left _ _) (List.subset_append_right _ _) (by omega)
    List.nodup_nil

theorem follow_follows (document value : Json) (s : Session) :
    Follows document value s (follow document value s) :=
  followFrom_follows document value s 0

/-- What is found is the end of the chain. It is null if the chain is blocked before its end, and
otherwise only if null is what was followed. -/
theorem Follows.of_ok {result : Json} {t : Session}
    (follows : Follows document value s (.ok result t)) :
    (result = .null ∨ result.pointer? = none ∧ ∃ met, Trail document met value result) ∧
      (result = .null ↔ value = .null ∨
        ∃ met last, Trail document met value last ∧ Blocked document met last) := by
  obtain ⟨met, last, trail, _, halts⟩ := follows
  cases halts with
  | plain ends =>
    refine ⟨.inr ⟨ends, met, trail⟩, ?_⟩
    constructor
    · intro absent
      by_contra! found
      exact trail.ne_null found.1 absent
    · rintro (rfl | ⟨met', last', other, blocked⟩)
      · exact (trail.of_plain rfl).2
      · exact absurd blocked (trail.not_blocked ends other)
  | again refers visited =>
    have blocked : Blocked document met last := ⟨_, refers, .inr ⟨_, visited, rfl⟩⟩
    exact ⟨.inl rfl, iff_of_true rfl (.inr ⟨met, last, trail, blocked⟩)⟩
  | dangling refers _ _ nowhere =>
    have blocked : Blocked document met last := ⟨_, refers, .inl nowhere⟩
    exact ⟨.inl rfl, iff_of_true rfl (.inr ⟨met, last, trail, blocked⟩)⟩

/-- A failure comes from a reference on the chain that is no key or cannot be read. -/
theorem Follows.of_error {fault : Fault} {t : Session}
    (follows : Follows document value s (.error fault t)) :
    fault ≠ .tooDeep ∧ ∃ met last pointer, Trail document met value last ∧
      last.pointer? = some pointer ∧
        (pointer.toKey = .error fault ∨ Pointer.resolve pointer document = .error fault) := by
  obtain ⟨met, last, trail, _, halts⟩ := follows
  cases halts with
  | @unkeyed pointer _ refers failed =>
    refine ⟨?_, met, last, pointer, trail, refers, .inl failed⟩
    rintro rfl
    exact Schema.toKey_ends pointer failed
  | @unread pointer _ _ refers _ _ failed =>
    exact ⟨Builder.resolve_error failed, met, last, pointer, trail, refers, .inr failed⟩

/-- Following references terminates: no fuel above the number of references changes what comes out.
It returns null where the chain meets a reference that leads nowhere or one that it has met before,
or null itself is followed; otherwise it returns the first value of the chain that is no reference.
It fails only at a reference that is no key or cannot be read. -/
theorem follow_resolves (document value : Json) (s : Session) :
    (∀ more, followFrom document
        (Builder.refCount document + Builder.refCount value + 2 + more) [] value s =
      follow document value s) ∧
    ((∃ result t, follow document value s = .ok result t ∧
        (result = .null ∨ result.pointer? = none ∧ ∃ met, Trail document met value result) ∧
        (result = .null ↔ value = .null ∨
          ∃ met last, Trail document met value last ∧ Blocked document met last)) ∨
      ∃ fault t, follow document value s = .error fault t ∧ fault ≠ .tooDeep ∧
        ∃ met last pointer, Trail document met value last ∧ last.pointer? = some pointer ∧
          (pointer.toKey = .error fault ∨ Pointer.resolve pointer document = .error fault)) := by
  have follows := follow_follows document value s
  refine ⟨fun more => (followFrom_follows document value s more).unique follows, ?_⟩
  cases ended : follow document value s with
  | ok result t =>
    rw [ended] at follows
    exact .inl ⟨result, t, rfl, follows.of_ok⟩
  | error fault t =>
    rw [ended] at follows
    exact .inr ⟨fault, t, rfl, follows.of_error⟩

end Walk

end TypedClient
