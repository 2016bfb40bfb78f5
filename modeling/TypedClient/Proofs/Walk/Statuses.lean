import Mathlib.Data.List.Nodup
import TypedClient.Client
import TypedClient.Proofs.Walk.Records

/-! The statuses of decode tables. Each record puts at most its own status into the table of the
operation, so that distinct statuses stay distinct, until the successes are settled: the status
that then stands for all successes may be that of a response without content. -/
namespace TypedClient

namespace Text

theorem shiftBy_ne {rows : List (Nat × Nat × Nat × Int)} {n m : Nat} (other : n ≠ m)
    (away : ∀ row ∈ rows, (m : Int) < row.1 + row.2.2.2) : shiftBy rows n ≠ m := by
  unfold shiftBy
  simp only
  split
  · next first last step shift found =>
    have covered := List.find?_some found
    have far := away _ (List.mem_of_find?_eq_some found)
    simp only [Bool.and_eq_true, decide_eq_true_eq] at covered
    simp only [Int.ofNat_eq_natCast] at far ⊢
    omega
  · exact other

theorem toNat_of_ofNat_eq {n : Nat} {c : Char} (same : Char.ofNat n = c) (printed : c ≠ '\x00') :
    n = c.toNat := by
  unfold Char.ofNat at same
  split at same
  · subst same
    rfl
  · exact absurd same.symm printed

/-- In small letters only the digit two begins with it. -/
theorem lowerChar_head {c : Char} (head : (lowerChar c).head? = some '2') : c = '2' := by
  unfold lowerChar at head
  split at head
  · next ascii =>
    have table : ∀ n < 0x80, (Char.ofNat n).toLower = '2' → Char.ofNat n = '2' := by decide
    have self := Char.ofNat_toNat c
    rw [← self]
    exact table c.toNat ascii (by rw [self]; simpa using head)
  · next wide =>
    unfold mapCase at head
    split at head
    · next expansion found =>
      have other : ∀ row ∈ lowerExpansions, (row.2.map Char.ofNat).head? ≠ some '2' := by decide
      exact absurd head (other _ (mem_of_lookup found))
    · have shifted := toNat_of_ofNat_eq (Option.some.inj head) (by decide)
      have away : ∀ row ∈ lowerRows, ((50 : Nat) : Int) < row.1 + row.2.2.2 := by decide +kernel
      refine absurd shifted (shiftBy_ne (fun same => wide ?_) away)
      rw [same]
      decide

/-- A text that begins with the digit two in small letters begins with it as it is written. -/
theorem head_of_lower {text : List Char} (head : (lower text).head? = some '2') :
    text.head? = some '2' := by
  cases text with
  | nil => cases head
  | cons c rest =>
    unfold lower lowerAfter at head
    simp only at head
    split at head
    · cases head
    · rw [List.head?_append_of_ne_nil _ (lowerChar_ne_nil c)] at head
      rw [lowerChar_head head, List.head?_cons]

end Text

namespace Walk

/-- The status that stands for all successes is none of a failure. -/
theorem Fails.lower_ne {status : String} (fails : Fails status) : Text.lowerText status ≠ "2xx" := by
  intro lowered
  have begins : (Text.lower status.toList).head? = some '2' := by
    rw [← String.toList_ofList (l := Text.lower _)]
    exact congrArg (·.toList.head?) lowered
  obtain ⟨major, digit, large⟩ := fails
  unfold statusMajor at digit
  split at digit
  · cases digit
  · next c rest text =>
    obtain rfl : c = '2' := by simpa [text] using Text.head_of_lower begins
    cases digit
    contradiction

def tableOf (op : Operation) : List String :=
  op.successes.map (·.1) ++ op.errors.map (·.1) ++ op.voidStatuses

theorem mem_tableOf {op : Operation} {status : String} : status ∈ tableOf op ↔
    status ∈ op.successes.map (·.1) ∨ status ∈ op.errors.map (·.1) ∨ status ∈ op.voidStatuses := by
  simp only [tableOf, List.mem_append, or_assoc]

theorem status_decodes (op : Operation) : (Client.decodes op).map (·.status) = tableOf op := by
  rw [Client.map_decodes op fun _ _ _ => rfl, tableOf]
  congr 1
  exact List.map_id _

variable {document : Json} {x y : Operation × Store} {labels : List String}

/-- A status that is new is put into the table once. -/
theorem Record.table_perm (step : Record document x labels y)
    (distinct : (tableOf x.1 ++ labels).Nodup) : (tableOf y.1).Perm (tableOf x.1 ++ labels) := by
  have fresh : ∀ label ∈ labels, label ∉ tableOf x.1 := fun label member known =>
    List.disjoint_of_nodup_append distinct known member
  cases step with
  | places | params | payload | default | stream | unread | void | ignored => simp [tableOf]
  | @success op _ _ name status =>
    have unknown : Text.lowerText status ∉ op.successes.map (·.1) := fun known =>
      fresh _ (List.mem_singleton_self _) (mem_tableOf.mpr (.inl known))
    simp only [tableOf, keys_assign_of_not_mem unknown, List.append_assoc]
    rw [← List.append_assoc (op.errors.map _)]
    exact List.perm_append_comm.append_left _
  | @failure op _ after name status =>
    have unknown : Text.lowerText status ∉ op.errors.map (·.1) := fun known =>
      fresh _ (List.mem_singleton_self _) (mem_tableOf.mpr (.inr (.inl known)))
    obtain ⟨_, _, same, _⟩ := failed_eq op status name (after.marked name)
    simp only [same, tableOf, keys_assign_of_not_mem unknown, List.append_assoc]
    exact (List.perm_append_comm.append_left _).append_left _

theorem Records.table_perm (run : Records document x labels y)
    (distinct : (tableOf x.1 ++ labels).Nodup) : (tableOf y.1).Perm (tableOf x.1 ++ labels) := by
  induction run with
  | refl => simp
  | next step _ ih =>
    rw [← List.append_assoc] at distinct ⊢
    have first := step.table_perm distinct.of_append_left
    exact (ih ((first.append_right _).nodup_iff.mpr distinct)).trans (first.append_right _)

/-- No failure has the status that stands for all successes. -/
theorem Record.errors_ne (step : Record document x labels y)
    (other : "2xx" ∉ x.1.errors.map (·.1)) : "2xx" ∉ y.1.errors.map (·.1) := by
  cases step with
  | @failure op _ after name status fails =>
    obtain ⟨_, _, same, _⟩ := failed_eq op status name (after.marked name)
    rw [same, mem_keys_assign]
    exact not_or.mpr ⟨other, fails.lower_ne.symm⟩
  | _ => exact other

/-- The single success that stands for all meets a response without content. -/
def Collides (op : Operation) : Prop :=
  "2xx" ∈ op.voidStatuses ∧ ∃ name, op.successes = [("2xx", name)]

/-- Nothing but the status that stands for all successes can be in a table twice. -/
theorem table_nodup_iff {op : Operation} (failures : "2xx" ∉ op.errors.map (·.1))
    (distinct : (op.errors.map (·.1) ++ op.voidStatuses).Nodup)
    (settled : (tableOf op).Nodup ∨ ∃ name, op.successes = [("2xx", name)]) :
    (∀ status ≠ "2xx", (tableOf op).count status ≤ 1) ∧ ((tableOf op).Nodup ↔ ¬ Collides op) := by
  have single : ∀ {name}, op.successes = [("2xx", name)] →
      tableOf op = "2xx" :: (op.errors.map (·.1) ++ op.voidStatuses) := by
    intro name successes
    simp [tableOf, successes]
  have twice : Collides op → ¬ (tableOf op).Nodup := by
    rintro ⟨void, name, successes⟩ nodup
    rw [single successes, List.nodup_cons] at nodup
    exact nodup.1 (List.mem_append_right _ void)
  rcases settled with nodup | ⟨name, successes⟩
  · exact ⟨fun status _ => List.nodup_iff_count_le_one.mp nodup status,
      iff_of_true nodup fun collides => twice collides nodup⟩
  · refine ⟨fun status other => ?_, fun nodup collides => twice collides nodup, fun apart => ?_⟩
    · rw [single successes, List.count_cons_of_ne other.symm]
      exact List.nodup_iff_count_le_one.mp distinct status
    · rw [single successes, List.nodup_cons, List.mem_append]
      exact ⟨not_or.mpr ⟨failures, fun void => apart ⟨void, name, successes⟩⟩, distinct⟩

/-- The table of an operation whose responses have distinct statuses. -/
theorem Parsed.table {operation : Members} {op : Operation} {before after : Store}
    (parsed : Parsed document operation before op after) (distinct : (statuses operation).Nodup) :
    (∀ status ≠ "2xx", (tableOf op).count status ≤ 1) ∧ ((tableOf op).Nodup ↔ ¬ Collides op) := by
  obtain ⟨start, recorded, labels, blank, run, few, rfl⟩ := parsed
  have empty : tableOf start = [] := by
    simp [tableOf, blank.successes, blank.errors, blank.voidStatuses]
  have labelled : (tableOf start ++ labels).Nodup := by
    simpa [empty] using distinct.sublist few
  have recordedOnce : (tableOf recorded).Nodup := (run.table_perm labelled).nodup_iff.mpr labelled
  have failures : "2xx" ∉ recorded.errors.map (·.1) :=
    run.invariant (P := fun state => "2xx" ∉ state.1.errors.map (·.1)) Record.errors_ne
      (by simp [blank.errors])
  obtain ⟨successes, classes, same, source⟩ := settled_eq recorded
  rw [same]
  refine table_nodup_iff failures ?_ ?_
  · rw [tableOf, List.append_assoc] at recordedOnce
    exact recordedOnce.of_append_right
  · rcases source with rfl | ⟨name, single, _⟩
    · exact .inl recordedOnce
    · exact .inr ⟨name, single⟩

/-- Where the statuses of an operation differ in small letters, only the status that stands for all
successes can be in its decode table twice: it is if it has no content itself and the single
success is widened to it. -/
theorem walk_decodes_nodup_iff {env : Env} {operations : List Operation} {final : Session}
    (done : walk env {} = .ok operations final) :
    List.Forall₂ (fun operation op => (statuses operation).Nodup →
      (∀ status ≠ "2xx", ((Client.decodes op).map (·.status)).count status ≤ 1) ∧
        (((Client.decodes op).map (·.status)).Nodup ↔
          ¬ ("2xx" ∈ op.voidStatuses ∧ ∃ name, op.successes = [("2xx", name)])))
      (operationObjects env.document) operations := by
  have walked := walk_walked (valid_empty env.document) done
  refine walked.forall₂ fun parsed distinct => ?_
  rw [status_decodes]
  exact parsed.table distinct

/-- Both paths have a status without content; at the second it is that of all successes. -/
def emptyAnswers : Json :=
  reading [("/pets", [("200", answer "Pet"), ("204", .obj []), ("404", answer "Problem")]),
    ("/problems", [("200", answer "Problem"), ("2XX", .obj [])])]

theorem walk_decodes_nodup_iff_emptyAnswers : ∃ operations final,
    walk ⟨emptyAnswers, true, .str "_untagged"⟩ {} = .ok operations final ∧
      (operationObjects emptyAnswers).map statuses = [["200", "204", "404"], ["200", "2xx"]] ∧
      operations.map (fun op => (Client.decodes op).map (·.status)) =
        [["2xx", "404", "204"], ["2xx", "2xx"]] ∧
      List.Forall₂ (fun operation op => (statuses operation).Nodup →
        (∀ status ≠ "2xx", ((Client.decodes op).map (·.status)).count status ≤ 1) ∧
          (((Client.decodes op).map (·.status)).Nodup ↔
            ¬ ("2xx" ∈ op.voidStatuses ∧ ∃ name, op.successes = [("2xx", name)])))
        (operationObjects emptyAnswers) operations := by
  have passed : Build.succeeds (walk { document := emptyAnswers }) {} fun operations _ =>
      operations.map (fun op => (Client.decodes op).map (·.status)) =
        [["2xx", "404", "204"], ["2xx", "2xx"]] := by
    decide +kernel
  obtain ⟨operations, final, done, tables⟩ := Build.exists_of_succeeds passed
  exact ⟨operations, final, done, by decide +kernel, of_decide_eq_true tables,
    walk_decodes_nodup_iff done⟩

/-- The statuses of an operation differ, but two entries of its table have the same. -/
theorem walk_decodes_twice : ∃ operations final,
    walk ⟨emptyAnswers, true, .str "_untagged"⟩ {} = .ok operations final ∧
      ∃ pair ∈ (operationObjects emptyAnswers).zip operations,
        (statuses pair.1).Nodup ∧ ¬ ((Client.decodes pair.2).map (·.status)).Nodup := by
  have passed : Build.succeeds (walk { document := emptyAnswers }) {} fun operations _ =>
      ∃ pair ∈ (operationObjects emptyAnswers).zip operations,
        (statuses pair.1).Nodup ∧ ¬ ((Client.decodes pair.2).map (·.status)).Nodup := by
    decide +kernel
  obtain ⟨operations, final, done, twice⟩ := Build.exists_of_succeeds passed
  exact ⟨operations, final, done, of_decide_eq_true twice⟩

end Walk

end TypedClient
