import Mathlib
import TypedClient.Declaration

/-! The characters of names. Whatever characters a key or a segment has, only ASCII letters and
digits of it become part of a name. -/
namespace TypedClient.Name

def Alphanumeric (name : String) : Prop :=
  ∀ c ∈ name.toList, c.isAlphanum = true

instance (name : String) : Decidable (Alphanumeric name) :=
  decidable_of_iff (name.toList.all Char.isAlphanum = true) List.all_eq_true

theorem Alphanumeric.append {first second : String} (before : Alphanumeric first)
    (after : Alphanumeric second) : Alphanumeric (first ++ second) := by
  unfold Alphanumeric
  rw [String.toList_append, List.forall_mem_append]
  exact ⟨before, after⟩

theorem alphanumeric_toString (n : Nat) : Alphanumeric (toString n) := by
  intro c member
  have listed : c ∈ Nat.toDigits 10 n := by
    simpa [toString, Nat.repr] using member
  have digit := Nat.isDigit_of_mem_toDigits (by decide) (by decide) listed
  simp [Char.isAlphanum, digit]

theorem isAlphanum_iff {c : Char} : c.isAlphanum = true ↔
    ((65 ≤ c.toNat ∧ c.toNat ≤ 90) ∨ (97 ≤ c.toNat ∧ c.toNat ≤ 122)) ∨
      (48 ≤ c.toNat ∧ c.toNat ≤ 57) := by
  simp only [Char.isAlphanum, Char.isAlpha, Char.isUpper, Char.isLower, Char.isDigit,
    Bool.or_eq_true, Bool.and_eq_true, decide_eq_true_eq, UInt32.le_iff_toNat_le, ge_iff_le]
  rfl

theorem roleOf_eq (c : Char) :
    roleOf c = if c.isAlpha then .letter else if c.isDigit then .digit else .symbol := by
  have letter : ('a' ≤ c ∧ c ≤ 'z') ∨ ('A' ≤ c ∧ c ≤ 'Z') ↔ c.isAlpha = true := by
    simp [Char.isAlpha, Char.isUpper, Char.isLower, Char.le_def, or_comm]
  have digit : '0' ≤ c ∧ c ≤ '9' ↔ c.isDigit = true := by
    simp [Char.isDigit, Char.le_def]
  rw [roleOf]
  simp only [letter, digit]

theorem isAlphanum_of_roleOf {c : Char} (part : roleOf c ≠ .symbol) : c.isAlphanum = true := by
  rw [roleOf_eq] at part
  rw [Char.isAlphanum, Bool.or_eq_true]
  split at part
  · left
    assumption
  · split at part
    · right
      assumption
    · exact absurd rfl part

/-- Raising an ASCII letter gives one. -/
theorem upperChar_of_isAlphanum {c : Char} (holds : c.isAlphanum = true) :
    Text.upperChar c = [c.toUpper] ∧ c.toUpper.isAlphanum = true := by
  have ascii : c.toNat < 0x80 := by
    rw [isAlphanum_iff] at holds
    omega
  have raised : ∀ n < 0x80, (Char.ofNat n).isAlphanum = true →
      (Char.ofNat n).toUpper.isAlphanum = true := by
    decide +kernel
  refine ⟨if_pos ascii, ?_⟩
  simpa [holds] using raised c.toNat ascii

/-- What is assembled comes from letters and digits. -/
theorem mem_assemble {role : α → Role} {raise keep : α → List Char} {P : Char → Prop}
    (raised : ∀ x, role x = .letter → ∀ c ∈ raise x, P c)
    (kept : ∀ x, role x ≠ .symbol → ∀ c ∈ keep x, P c) (acc : List (List Char)) (pending : Bool)
    (pieces : List α) (before : ∀ c ∈ acc.flatten, P c) :
    ∀ c ∈ assemble role raise keep acc pending pieces, P c := by
  induction pieces generalizing acc pending with
  | nil => simpa [assemble] using before
  | cons x rest ih =>
    have more {piece : List Char} (good : ∀ c ∈ piece, P c) : ∀ c ∈ (piece :: acc).flatten, P c := by
      rw [List.flatten_cons, List.forall_mem_append]
      exact ⟨good, before⟩
    unfold assemble
    split
    · rename_i letter
      apply ih
      apply more
      split
      · exact raised x letter
      · exact kept x (by simp [letter])
    · rename_i digit
      split
      · exact ih _ _ before
      · exact ih _ _ (more (kept x (by simp [digit])))
    · exact ih _ _ before

theorem alphanumeric_camelize (text : String) : Alphanumeric (camelize text) := by
  unfold Alphanumeric camelize
  rw [String.toList_ofList]
  apply mem_assemble (P := fun c => c.isAlphanum = true)
  · intro c letter d same
    obtain rfl := List.mem_singleton.mp same
    exact (upperChar_of_isAlphanum (isAlphanum_of_roleOf (by simp [letter]))).2
  · intro c part d same
    obtain rfl := List.mem_singleton.mp same
    exact isAlphanum_of_roleOf part
  · simp

theorem toList_capitalize {text : String} {c : Char} {rest : List Char}
    (shape : text.toList = c :: rest) (part : c.isAlphanum = true) :
    (capitalize text).toList = c.toUpper :: rest := by
  rw [capitalize, shape]
  simp [(upperChar_of_isAlphanum part).1]

theorem alphanumeric_capitalize {text : String} (holds : Alphanumeric text) :
    Alphanumeric (capitalize text) := by
  unfold Alphanumeric at holds ⊢
  cases shape : text.toList with
  | nil => simp [capitalize, shape]
  | cons c rest =>
    rw [shape, List.forall_mem_cons] at holds
    rw [toList_capitalize shape holds.1, List.forall_mem_cons]
    exact ⟨(upperChar_of_isAlphanum holds.1).2, holds.2⟩

theorem alphanumeric_identifier (text : String) : Alphanumeric (identifier text) :=
  alphanumeric_capitalize (alphanumeric_camelize text)

theorem alphanumeric_brandOf {owner : String} (holds : Alphanumeric owner) (key : String) :
    Alphanumeric (brandOf key owner) := by
  unfold brandOf
  split
  · rename_i bare
    refine holds.append (alphanumeric_capitalize ?_)
    rcases bare with rfl | rfl <;> decide
  · exact alphanumeric_identifier key

end TypedClient.Name
