import TypedClient.Proofs.Name.Identifier

/-! The grammar of camel case. A name in camel case is empty or a letter with letters and digits
after it, where no small letter comes right after a digit. Camel case of any text is of this form,
and a text of this form is its own camel case. -/
namespace TypedClient.Name

/-- The second character may stand right after the first: a small letter not after a digit. -/
def Adjoins (first second : Char) : Prop :=
  first.isDigit = true → second.isLower = false

/-- Empty, or letters and digits, a letter first, with no small letter right after a digit. -/
def CamelCase (name : String) : Prop :=
  name = "" ∨ Identifier name ∧ name.toList.IsChain Adjoins

instance (first second : Char) : Decidable (Adjoins first second) :=
  inferInstanceAs (Decidable (first.isDigit = true → second.isLower = false))

instance (name : String) : Decidable (StartsWithLetter name) :=
  decidable_of_iff (name.toList.head?.any Char.isAlpha = true) (by
    unfold StartsWithLetter
    cases name.toList <;> simp)

instance (name : String) : Decidable (CamelCase name) :=
  inferInstanceAs (Decidable
    (name = "" ∨ (Alphanumeric name ∧ StartsWithLetter name) ∧ name.toList.IsChain Adjoins))

/-- What becomes of the characters after the first letter. A letter is raised if one is pending. -/
def camelTail : Bool → List Char → List Char
  | _, [] => []
  | pending, c :: rest =>
    match roleOf c with
    | .letter => (if pending then c.toUpper else c) :: camelTail false rest
    | .digit => c :: camelTail true rest
    | .symbol => camelTail true rest

variable {text : String} {c first : Char} {rest : List Char} {pending : Bool}

theorem roleOf_eq_digit : roleOf c = .digit ↔ c.isDigit = true := by
  rw [roleOf_eq]
  split
  · rename_i alpha
    simp [isDigit_of_isAlpha alpha]
  · split <;> simp_all

theorem isLower_of_isDigit (digit : c.isDigit = true) : c.isLower = false := by
  rw [Bool.eq_false_iff]
  intro lower
  have alpha : c.isAlpha = true := by simp [Char.isAlpha, lower]
  cases (isDigit_of_isAlpha alpha).symm.trans digit

theorem camelTail_letter (letter : c.isAlpha = true) :
    camelTail pending (c :: rest) = (if pending then c.toUpper else c) :: camelTail false rest := by
  rw [camelTail, roleOf_eq_letter.mpr letter]

theorem camelTail_digit (digit : c.isDigit = true) :
    camelTail pending (c :: rest) = c :: camelTail true rest := by
  rw [camelTail, roleOf_eq_digit.mpr digit]

/-- After a digit a letter is pending, and it is raised before it is kept. -/
theorem isChain_camelTail (flagged : first.isDigit = true → pending = true) (rest : List Char) :
    (first :: camelTail pending rest).IsChain Adjoins := by
  induction rest generalizing first pending with
  | nil => exact List.isChain_singleton first
  | cons c rest ih =>
    rw [camelTail]
    cases role : roleOf c with
    | letter =>
      have alpha := roleOf_eq_letter.mp role
      refine List.isChain_cons_cons.mpr ⟨fun digit => ?_, ih fun digit => ?_⟩
      · rw [if_pos (flagged digit), Char.isLower_toUpper_eq_false]
      · have kept : (if pending then c.toUpper else c).isAlpha = true := by
          split <;> simpa
        cases (isDigit_of_isAlpha kept).symm.trans digit
    | digit =>
      have digit := roleOf_eq_digit.mp role
      exact List.isChain_cons_cons.mpr ⟨fun _ => isLower_of_isDigit digit, ih fun _ => rfl⟩
    | symbol => exact ih fun _ => rfl

/-- On a text in camel case a letter is pending exactly after a digit, where it is no small one. -/
theorem camelTail_eq_self (parts : ∀ c ∈ rest, c.isAlphanum = true)
    (chain : (first :: rest).IsChain Adjoins) : camelTail first.isDigit rest = rest := by
  induction rest generalizing first with
  | nil => rfl
  | cons c rest ih =>
    obtain ⟨part, parts⟩ := List.forall_mem_cons.mp parts
    obtain ⟨adjoins, chain⟩ := List.isChain_cons_cons.mp chain
    have onward := ih parts chain
    rcases Bool.or_eq_true_iff.mp part with alpha | digit
    · rw [camelTail_letter alpha]
      rw [isDigit_of_isAlpha alpha] at onward
      rw [onward]
      congr 1
      split
      · rename_i digit
        exact Char.toUpper_eq_of_not_isLower (by simp [adjoins digit])
      · rfl
    · rw [camelTail_digit digit]
      rw [digit] at onward
      rw [onward]

theorem assemble_eq_camelTail {acc : List (List Char)} (kept : acc ≠ []) (pending : Bool)
    (text : List Char) :
    assemble roleOf (fun c => [c.toUpper]) (fun c => [c]) acc pending text =
      acc.reverse.flatten ++ camelTail pending text := by
  induction text generalizing acc pending with
  | nil => simp [assemble, camelTail]
  | cons c rest ih =>
    have started : acc.isEmpty = false := by simpa using kept
    unfold assemble camelTail
    cases roleOf c with
    | letter =>
      simp only
      rw [ih (List.cons_ne_nil _ _)]
      cases pending <;> simp
    | digit =>
      simp only [started]
      rw [if_neg Bool.false_ne_true, ih (List.cons_ne_nil _ _)]
      simp
    | symbol =>
      simp only [started]
      rw [if_neg Bool.false_ne_true, ih kept]

/-- Camel case starts at the first letter, if there is one. -/
theorem assemble_start (text : List Char) :
    assemble roleOf (fun c => [c.toUpper]) (fun c => [c]) [] false text = [] ∨
      ∃ c rest, c.isAlpha = true ∧
        assemble roleOf (fun c => [c.toUpper]) (fun c => [c]) [] false text =
          c :: camelTail false rest := by
  induction text with
  | nil => exact .inl rfl
  | cons c rest ih =>
    rw [assemble]
    cases role : roleOf c with
    | letter => exact .inr ⟨c, rest, roleOf_eq_letter.mp role, assemble_eq_camelTail (by simp) _ _⟩
    | digit | symbol => exact ih

/-- Whatever is in a text, its camel case is of the grammar. -/
theorem camelCase_camelize (text : String) : CamelCase (camelize text) := by
  rcases assemble_start text.toList with empty | ⟨c, rest, alpha, shape⟩
  · left
    rw [camelize, empty]
  · have kept : (camelize text).toList = c :: camelTail false rest := by
      rw [camelize, String.toList_ofList, shape]
    refine .inr ⟨⟨alphanumeric_camelize text, c, _, kept, alpha⟩, ?_⟩
    rw [kept]
    apply isChain_camelTail
    simp [isDigit_of_isAlpha alpha]

theorem CamelCase.camelize_eq_self (camel : CamelCase text) : camelize text = text := by
  rcases camel with rfl | ⟨⟨parts, c, rest, shape, alpha⟩, chain⟩
  · rfl
  · rw [shape] at chain
    unfold Alphanumeric at parts
    rw [shape] at parts
    have tail := camelTail_eq_self (List.forall_mem_cons.mp parts).2 chain
    rw [isDigit_of_isAlpha alpha] at tail
    apply String.toList_inj.mp
    rw [camelize, String.toList_ofList, shape, assemble, roleOf_eq_letter.mpr alpha]
    simp only
    rw [assemble_eq_camelTail (by simp), tail]
    rfl

def StartsWithCapital (name : String) : Prop :=
  ∃ c rest, name.toList = c :: rest ∧ c.isUpper = true

theorem StartsWithLetter.capital (letter : StartsWithLetter text) :
    StartsWithCapital (Name.capitalize text) := by
  obtain ⟨c, rest, _, alpha, raised⟩ := letter.exists_raised
  exact ⟨c.toUpper, rest, raised, by simp [alpha]⟩

theorem StartsWithCapital.capitalize_eq_self (capital : StartsWithCapital text) :
    capitalize text = text := by
  obtain ⟨c, rest, shape, upper⟩ := capital
  have part : c.isAlphanum = true := by simp [Char.isAlphanum, Char.isAlpha, upper]
  apply String.toList_inj.mp
  rw [toList_capitalize shape part, shape,
    Char.toUpper_eq_of_not_isLower (Char.not_isLower_of_isUpper upper)]

/-- A first letter is no digit, raised or not, so anything may follow it. -/
theorem CamelCase.capitalize (camel : CamelCase text) : CamelCase (capitalize text) := by
  rcases camel with rfl | ⟨⟨parts, letter⟩, chain⟩
  · exact .inl rfl
  · refine .inr ⟨⟨alphanumeric_capitalize parts, letter.capitalize⟩, ?_⟩
    obtain ⟨c, rest, shape, alpha, raised⟩ := letter.exists_raised
    rw [shape] at chain
    rw [raised]
    refine List.isChain_cons.mpr ⟨fun next _ digit => ?_, (List.isChain_cons.mp chain).2⟩
    have letter : c.toUpper.isAlpha = true := by simp [alpha]
    cases (isDigit_of_isAlpha letter).symm.trans digit

theorem camelCase_identifier (text : String) : CamelCase (identifier text) :=
  (camelCase_camelize text).capitalize

theorem identifier_empty_or_capital (text : String) :
    identifier text = "" ∨ StartsWithCapital (identifier text) := by
  rcases camelize_cases text with ⟨_, letter⟩ | ⟨_, empty⟩
  · exact .inr letter.capital
  · left
    rw [identifier, empty]
    rfl

theorem identifier_identifier (text : String) : identifier (identifier text) = identifier text := by
  rw [identifier, (camelCase_identifier text).camelize_eq_self]
  rcases identifier_empty_or_capital text with empty | capital
  · rw [empty]
    rfl
  · exact capital.capitalize_eq_self

theorem camelize_eq_empty_iff : camelize text = "" ↔ ¬ ∃ c ∈ text.toList, c.isAlpha = true := by
  rcases camelize_cases text with ⟨letter, c, rest, shape, _⟩ | ⟨letterless, empty⟩
  · refine iff_of_false (fun empty => ?_) (not_not.mpr letter)
    rw [empty] at shape
    cases shape
  · refine iff_of_true empty ?_
    rintro ⟨c, member, alpha⟩
    cases (letterless c member).symm.trans alpha

/-- Camel case is a projection onto its grammar: it gives names of the grammar and leaves exactly
those alone. Identifiers are the names in it that start with a capital, and only a text without
letters has the empty name. -/
theorem camelize_projects (text : String) :
    CamelCase (camelize text) ∧ (camelize text = text ↔ CamelCase text) ∧
      camelize (camelize text) = camelize text ∧ identifier (identifier text) = identifier text ∧
      (identifier text = "" ∨ StartsWithCapital (identifier text)) ∧
      (camelize text = "" ↔ ¬ ∃ c ∈ text.toList, c.isAlpha = true) := by
  have camel := camelCase_camelize text
  exact ⟨camel, ⟨fun same => same ▸ camel, (·.camelize_eq_self)⟩, camel.camelize_eq_self,
    identifier_identifier text, identifier_empty_or_capital text, camelize_eq_empty_iff⟩

example : camelize "2get-v2beta" = "getV2Beta" ∧ CamelCase "getV2Beta" ∧ ¬ CamelCase "v2beta" := by
  decide

end TypedClient.Name
