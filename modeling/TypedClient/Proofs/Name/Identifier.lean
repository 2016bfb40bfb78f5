import TypedClient.Proofs.Builder.Naming
import TypedClient.Proofs.Name.Nonempty

/-! How names start. Camel case drops everything before the first letter, so a name that is made
from a text starts with a letter unless the text has none. A name that is put together from others
starts as the first of them does. -/
namespace TypedClient.Name

def StartsWithLetter (name : String) : Prop :=
  ∃ c rest, name.toList = c :: rest ∧ c.isAlpha = true

def Identifier (name : String) : Prop :=
  Alphanumeric name ∧ StartsWithLetter name

/-- ASCII letters and digits, after a letter or after one of the given texts. -/
def Led (leads : String → Prop) (name : String) : Prop :=
  Alphanumeric name ∧ (StartsWithLetter name ∨ ∃ lead, leads lead ∧ lead.toList <+: name.toList)

variable {leads : String → Prop} {name text : String}

theorem StartsWithLetter.append (letter : StartsWithLetter name) (more : String) :
    StartsWithLetter (name ++ more) := by
  obtain ⟨c, rest, shape, alpha⟩ := letter
  exact ⟨c, rest ++ more.toList, by simp [shape], alpha⟩

theorem Led.append {more : String} (led : Led leads name) (others : Alphanumeric more) :
    Led leads (name ++ more) := by
  refine ⟨led.1.append others, led.2.imp (·.append _) fun ⟨lead, known, start⟩ => ⟨lead, known, ?_⟩⟩
  rw [String.toList_append]
  exact start.trans (List.prefix_append _ _)

/-- What is assembled so far stays in front. -/
theorem prefix_assemble {role : α → Role} {raise keep : α → List Char} (acc : List (List Char))
    (pending : Bool) (pieces : List α) :
    acc.reverse.flatten <+: assemble role raise keep acc pending pieces := by
  induction pieces generalizing acc pending with
  | nil => exact List.prefix_rfl
  | cons x rest ih =>
    have more (piece : List Char) : acc.reverse.flatten <+: (piece :: acc).reverse.flatten := by
      simp
    unfold assemble
    split
    · exact (more _).trans (ih _ _)
    · split
      · exact ih _ _
      · exact (more _).trans (ih _ _)
    · exact ih _ _

/-- Nothing is kept before the first letter, and without one nothing at all. -/
theorem assemble_cases (role : α → Role) (raise keep : α → List Char) (pieces : List α) :
    (∃ x ∈ pieces, role x = .letter ∧ keep x <+: assemble role raise keep [] false pieces) ∨
      (∀ x ∈ pieces, role x ≠ .letter) ∧ assemble role raise keep [] false pieces = [] := by
  induction pieces with
  | nil => exact .inr ⟨by simp, rfl⟩
  | cons x rest ih =>
    by_cases letter : role x = .letter
    · refine .inl ⟨x, List.mem_cons_self, letter, ?_⟩
      rw [assemble, letter]
      have kept : keep x <+: [keep x].reverse.flatten := by simp
      exact kept.trans (prefix_assemble _ _ _)
    · have skip : assemble role raise keep [] false (x :: rest) =
          assemble role raise keep [] false rest := by
        rw [assemble]
        cases role : role x with
        | letter => exact absurd role letter
        | digit | symbol => rfl
      rw [skip]
      rcases ih with ⟨y, member, first⟩ | ⟨letterless, empty⟩
      · exact .inl ⟨y, List.mem_cons_of_mem _ member, first⟩
      · exact .inr ⟨List.forall_mem_cons.mpr ⟨letter, letterless⟩, empty⟩

theorem isAlpha_iff {c : Char} : c.isAlpha = true ↔
    (65 ≤ c.toNat ∧ c.toNat ≤ 90) ∨ (97 ≤ c.toNat ∧ c.toNat ≤ 122) := by
  simp only [Char.isAlpha, Char.isUpper, Char.isLower, Bool.or_eq_true, Bool.and_eq_true,
    decide_eq_true_eq, UInt32.le_iff_toNat_le, ge_iff_le]
  rfl

theorem isDigit_of_isAlpha {c : Char} (alpha : c.isAlpha = true) : c.isDigit = false := by
  rw [isAlpha_iff] at alpha
  simp only [Char.isDigit, Bool.and_eq_false_iff, decide_eq_false_iff_not, ge_iff_le,
    UInt32.le_iff_toNat_le]
  change ¬ 48 ≤ c.toNat ∨ ¬ c.toNat ≤ 57
  omega

theorem roleOf_eq_letter {c : Char} : roleOf c = .letter ↔ c.isAlpha = true := by
  rw [roleOf_eq]
  split
  · simpa
  · split <;> simp_all

/-- Camel case is empty, or it starts with the first letter of the text. -/
theorem camelize_cases (text : String) :
    (∃ c ∈ text.toList, c.isAlpha = true) ∧ StartsWithLetter (camelize text) ∨
      (∀ c ∈ text.toList, c.isAlpha = false) ∧ camelize text = "" := by
  unfold StartsWithLetter camelize
  rw [String.toList_ofList]
  rcases assemble_cases roleOf (fun c => [c.toUpper]) (fun c => [c]) text.toList with
    ⟨c, member, letter, rest, shape⟩ | ⟨none, empty⟩
  · have alpha := roleOf_eq_letter.mp letter
    exact .inl ⟨⟨c, member, alpha⟩, c, rest, shape.symm, alpha⟩
  · refine .inr ⟨fun c member => ?_, by rw [empty]⟩
    have other := none c member
    rwa [ne_eq, roleOf_eq_letter, Bool.not_eq_true] at other

theorem StartsWithLetter.exists_raised (letter : StartsWithLetter text) :
    ∃ c rest, text.toList = c :: rest ∧ c.isAlpha = true ∧
      (Name.capitalize text).toList = c.toUpper :: rest := by
  obtain ⟨c, rest, shape, alpha⟩ := letter
  have part : c.isAlphanum = true := by simp [Char.isAlphanum, alpha]
  exact ⟨c, rest, shape, alpha, toList_capitalize shape part⟩

theorem StartsWithLetter.capitalize (letter : StartsWithLetter text) :
    StartsWithLetter (capitalize text) := by
  obtain ⟨c, rest, _, alpha, raised⟩ := letter.exists_raised
  exact ⟨c.toUpper, rest, raised, by simp [alpha]⟩

/-- Only a text without letters gives no name; all others give one that starts with a letter. -/
theorem identifier_cases (text : String) :
    StartsWithLetter (identifier text) ∨
      (∀ c ∈ text.toList, c.isAlpha = false) ∧ identifier text = "" := by
  rcases camelize_cases text with ⟨_, letter⟩ | ⟨letterless, empty⟩
  · exact .inl letter.capitalize
  · refine .inr ⟨letterless, ?_⟩
    rw [identifier, empty]
    rfl

theorem identifier_of_letterless (letterless : ∀ c ∈ text.toList, c.isAlpha = false) :
    identifier text = "" := by
  rcases camelize_cases text with ⟨⟨c, member, alpha⟩, _⟩ | ⟨_, empty⟩
  · rw [letterless c member] at alpha
    cases alpha
  · rw [identifier, empty]
    rfl

theorem led_naming (leads : String → Prop) : Naming (Led leads) := by
  have made {text : String} (nonempty : identifier text ≠ "") : Led leads (identifier text) := by
    rcases identifier_cases text with letter | ⟨_, empty⟩
    · exact ⟨alphanumeric_identifier text, .inl letter⟩
    · exact absurd empty nonempty
  constructor
  case fallback => exact ⟨by decide, .inl ⟨'S', "chema".toList, rfl, rfl⟩⟩
  case number => exact fun name led i => Led.append led (alphanumeric_toString i)
  case identifier => exact fun text => made
  case extend => exact fun owner led key => Led.append led (alphanumeric_identifier key)
  case brand =>
    intro owner led key brand found
    have nonempty := BrandRegistry.brandFor?_ne_empty found
    unfold BrandRegistry.brandFor? at found
    split at found
    · cases found
      unfold brandOf at nonempty ⊢
      split
      · rename_i bare
        refine Led.append led (alphanumeric_capitalize ?_)
        rcases bare with rfl | rfl <;> decide
      · rename_i other
        rw [if_neg other] at nonempty
        exact made nonempty
    · cases found
  case body => exact fun name led => Led.append led (by decide)

end TypedClient.Name
