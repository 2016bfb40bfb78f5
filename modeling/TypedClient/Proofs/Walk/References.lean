import TypedClient.Proofs.Walk.Chains

/-! Where chains of references end. Following a value from reference to reference stops at a
reference that has been met before. A chain that leads to an object never meets one twice, so the
object that is found is the one at the end of the chain. -/
namespace TypedClient.Walk

variable {document value result : Json} {object other : Members} {s t : Session}

/-- A value leads over a number of references to an object that is none. -/
inductive LeadsTo (document : Json) : Nat → Json → Members → Prop
  | here {object : Members} (plain : object.get? "$ref" = none) :
    LeadsTo document 0 (.obj object) object
  | next {n : Nat} {members object : Members} {pointer : Json} {target : Pointer.Target}
      (refers : members.get? "$ref" = some pointer)
      (resolved : Pointer.resolve pointer document = .ok (some target))
      (rest : LeadsTo document n target.fragment object) :
    LeadsTo document (n + 1) (.obj members) object

def Denotes (document value : Json) (object : Members) : Prop :=
  ∃ n, LeadsTo document n value object

theorem denotes_iff : Denotes document value object ↔
    object.get? "$ref" = none ∧ ∃ met, Trail document met value (.obj object) := by
  constructor
  · rintro ⟨n, leads⟩
    induction leads with
    | here plain => exact ⟨plain, [], .here _⟩
    | next refers resolved _ ih =>
      obtain ⟨plain, met, trail⟩ := ih
      obtain ⟨text, rfl⟩ := exists_of_resolve resolved
      exact ⟨plain, text :: met, .next refers resolved trail⟩
  · rintro ⟨plain, met, trail⟩
    generalize ended : Json.obj object = last at trail
    induction trail with
    | here =>
      obtain rfl := ended
      exact ⟨0, .here plain⟩
    | next refers resolved _ ih =>
      obtain ⟨members, rfl, found⟩ := Json.exists_of_pointer? refers
      obtain ⟨n, leads⟩ := ih ended
      exact ⟨n + 1, .next found resolved leads⟩

theorem Denotes.unique (denotes : Denotes document value object)
    (again : Denotes document value other) : object = other := by
  obtain ⟨plain, met, trail⟩ := denotes_iff.mp denotes
  obtain ⟨plain', met', trail'⟩ := denotes_iff.mp again
  exact Json.obj.inj (trail.unique plain trail' plain').2

theorem follow_eq_obj_iff (done : follow document value s = .ok result t) :
    result = .obj object ↔ Denotes document value object := by
  have follows := follow_follows document value s
  rw [done] at follows
  rw [denotes_iff]
  constructor
  · rintro rfl
    exact follows.of_ok.1.resolve_left (by simp)
  · rintro ⟨plain, met, trail⟩
    have ends : Follows document value s (.ok (.obj object) s) :=
      ⟨met, _, trail, trail.nodup plain, .plain plain⟩
    cases follows.unique ends
    rfl

end TypedClient.Walk
