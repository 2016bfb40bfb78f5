import TypedClient.Proofs.Pointer.Spelling

/-! Where references lead. A path into a document is a list of keys and of indices; resolution
follows exactly the paths that the segments of a reference name, so that a path whose segments are
escaped leads to what stands at its end. -/
namespace TypedClient.Pointer

open Text

/-- A step into a value: to a member of an object or to an item of a list. -/
inductive Step where
  | key (name : String)
  | index (n : Nat)
deriving DecidableEq, Repr

namespace Step

def into? : Step → Json → Option Json
  | .key name, .obj members => Members.get? members name
  | .index n, .arr items => items[n]?
  | _, _ => none

/-- The step before it is escaped: the key itself, or the index in decimal digits. -/
def segment : Step → String
  | .key name => name
  | .index n => toString n

end Step

def valueAt? (document : Json) : List Step → Option Json
  | [] => some document
  | step :: path => (step.into? document).bind (valueAt? · path)

/-- A text of decimal digits, of whatever scripts, and the number that they denote. -/
structure Numeral (text : String) (n : Nat) : Prop where
  nonempty : text ≠ ""
  short : text.length ≤ digitLimit
  value : ∃ digits, text.toList.mapM decimalValue? = some digits ∧
    Nat.ofDigits 10 digits.reverse = n

/-- What a segment means: a key, or an index if it is a numeral. -/
def Names (segment : String) : Step → Prop
  | .key name => segment = name
  | .index n => Numeral segment n

/-- The value of a numeral is the number that its digits denote, the last one counting once. -/
theorem numeral?_eq (text : List Char) : numeral? text =
    (text.mapM decimalValue?).map fun digits => Nat.ofDigits 10 digits.reverse := by
  induction text using List.reverseRecOn with
  | nil => rfl
  | append_singleton text c ih =>
    have last : numeral? (text ++ [c]) =
        (numeral? text).bind fun n => (decimalValue? c).map (10 * n + ·) := by
      simp [numeral?, List.foldlM_append]
    rw [last, ih, List.mapM_append]
    cases text.mapM decimalValue? with
    | none => rfl
    | some digits =>
      cases digit : decimalValue? c with
      | none => simp [digit]
      | some d => simp [digit, Nat.ofDigits_cons, Nat.add_comm]

theorem numeral?_eq_some {text : List Char} {n : Nat} : numeral? text = some n ↔
    ∃ digits, text.mapM decimalValue? = some digits ∧ Nat.ofDigits 10 digits.reverse = n := by
  rw [numeral?_eq, Option.map_eq_some_iff]

/-- A numeral consists of digits. -/
theorem isDigit_of_numeral? {text : List Char} {n : Nat} (read : numeral? text = some n) :
    text.all isDigit = true := by
  have digits (start : Nat) (text : List Char)
      (read : text.foldlM (fun n c => (decimalValue? c).map (10 * n + ·)) start = some n) :
      text.all isDigit = true := by
    induction text generalizing start with
    | nil => rfl
    | cons c rest ih =>
      obtain ⟨m, first, later⟩ := Option.bind_eq_some_iff.mp read
      obtain ⟨d, digit, _⟩ := Option.map_eq_some_iff.mp first
      rw [List.all_cons, ih m later, isDigit, digit]
      rfl
  exact digits 0 text read

/-- One step into a list: the segment is the numeral of an item. -/
theorem step_arr_eq_some {items : List Json} {next : Json} {segment : String} :
    step (.arr items) segment = .ok (some next) ↔ ∃ n, Numeral segment n ∧ items[n]? = some next := by
  constructor
  · intro stepped
    rw [step] at stepped
    split at stepped
    · next digits =>
      split at stepped
      · cases stepped
      · next short =>
        cases read : numeral? segment.toList with
        | none =>
          rw [read] at stepped
          cases stepped
        | some n =>
          rw [read] at stepped
          refine ⟨n, ⟨digits.1, Nat.le_of_not_lt short, numeral?_eq_some.mp read⟩, ?_⟩
          exact Except.ok.inj stepped
    · cases stepped
  · rintro ⟨n, ⟨nonempty, short, value⟩, found⟩
    have read := numeral?_eq_some.mpr value
    rw [step, if_pos ⟨nonempty, isDigit_of_numeral? read⟩, if_neg (Nat.not_lt.mpr short), read]
    exact congrArg Except.ok found

theorem step_eq_some {value next : Json} {segment : String} :
    step value segment = .ok (some next) ↔
      ∃ s : Step, Names segment s ∧ s.into? value = some next := by
  cases value with
  | obj members =>
    constructor
    · intro stepped
      exact ⟨.key segment, rfl, Except.ok.inj stepped⟩
    · rintro ⟨s, named, into⟩
      cases s with
      | key name =>
        obtain rfl := named
        exact congrArg Except.ok into
      | index n => cases into
  | arr items =>
    rw [step_arr_eq_some]
    constructor
    · rintro ⟨n, numeral, found⟩
      exact ⟨.index n, numeral, found⟩
    · rintro ⟨s, named, into⟩
      cases s with
      | key name => cases into
      | index n => exact ⟨n, named, into⟩
  | null | bool | int | float | str =>
    refine ⟨fun stepped => (by cases stepped), ?_⟩
    rintro ⟨s, _, into⟩
    cases s <;> cases into

/-- A walk along segments is a path that the segments name. -/
theorem walk_eq_some {document v : Json} {segments : List String} :
    walk document segments = .ok (some v) ↔
      ∃ path, List.Forall₂ Names segments path ∧ valueAt? document path = some v := by
  induction segments generalizing document with
  | nil => simp [walk, valueAt?]
  | cons segment rest ih =>
    rw [walk, except_bind_eq_ok]
    constructor
    · rintro ⟨found, stepped, walked⟩
      cases found with
      | none => cases walked
      | some next =>
        obtain ⟨s, named, into⟩ := step_eq_some.mp stepped
        obtain ⟨path, names, reached⟩ := ih.mp walked
        exact ⟨s :: path, .cons named names, by rw [valueAt?, into]; exact reached⟩
    · rintro ⟨path, names, reached⟩
      cases names with
      | @cons _ s _ path named names =>
        obtain ⟨next, into, reached⟩ := Option.bind_eq_some_iff.mp reached
        exact ⟨some next, step_eq_some.mpr ⟨s, named, into⟩, ih.mpr ⟨path, names, reached⟩⟩

theorem decimalValue?_digitChar {d : Nat} (small : d < 10) : decimalValue? d.digitChar = some d := by
  interval_cases d <;> rfl

theorem numeral?_toDigits (n : Nat) : numeral? (Nat.toDigits 10 n) = some n := by
  induction n using Nat.strongRecOn with
  | ind n ih =>
    by_cases small : n < 10
    · rw [Nat.toDigits_of_lt_base small, numeral?]
      simp [decimalValue?_digitChar small]
    · rw [Nat.toDigits_of_base_le (by decide) (Nat.le_of_not_lt small), numeral?,
        List.foldlM_append]
      have before := ih (n / 10) (by omega)
      rw [numeral?] at before
      have last := decimalValue?_digitChar (Nat.mod_lt n (by decide))
      simp only [before, List.foldlM_cons, List.foldlM_nil, last, Option.bind_eq_bind,
        Option.bind_some, Option.map_some, Option.pure_def, Option.some.injEq]
      omega

/-- An index in decimal digits is its own numeral, unless it has more digits than any list needs. -/
theorem numeral_toString {n : Nat} (small : n < 10 ^ digitLimit) : Numeral (toString n) n := by
  have shown : (toString n).toList = Nat.toDigits 10 n := Nat.toList_repr
  refine ⟨?_, ?_, numeral?_eq_some.mp (by rw [shown, numeral?_toDigits])⟩
  · intro empty
    rw [empty] at shown
    exact Nat.toDigits_ne_nil shown.symm
  · rw [← String.length_toList, shown]
    exact (Nat.length_toDigits_le_iff (by decide) (by decide)).mpr small

theorem Step.names_segment {s : Step} (small : ∀ n, s = .index n → n < 10 ^ digitLimit) :
    Names s.segment s := by
  cases s with
  | key name => rfl
  | index n => exact numeral_toString (small n rfl)

/-- A path is named by its own segments. -/
theorem names_segments {path : List Step} (small : ∀ n, .index n ∈ path → n < 10 ^ digitLimit) :
    List.Forall₂ Names (path.map Step.segment) path := by
  induction path with
  | nil => exact .nil
  | cons s path ih =>
    refine .cons (Step.names_segment fun n same => small n (by simp [same])) (ih fun n member => ?_)
    exact small n (List.mem_cons_of_mem s member)

/-- Resolution undoes escaping: a reference whose segments spell the keys and indices of a path
leads to the object or truth value at its end, and is named after the last of them. No list needs
an index of more digits than a numeral may have. Conversely a reference, however it is spelled,
resolves only to the value at the end of a path that its segments name. -/
theorem resolve_spelled_path (document : Json) :
    (∀ path texts v, ∀ nonempty : path ≠ [], valueAt? document path = some v → isSchema v = true →
      (∀ n, .index n ∈ path → n < 10 ^ digitLimit) →
      List.Forall₂ Spells texts (path.map Step.segment) →
      resolve (.str ("#/" ++ "/".intercalate texts)) document = .ok (some
        ⟨"#/" ++ "/".intercalate texts, v, Name.identifier (path.getLast nonempty).segment⟩)) ∧
    (∀ pointer target, resolve pointer document = .ok (some target) ↔
      ∃ (rest : String) (path : List Step), pointer = .str ("#/" ++ rest) ∧
        List.Forall₂ Names (segments rest.toList) path ∧
        valueAt? document path = some target.fragment ∧ isSchema target.fragment = true ∧
        target = ⟨"#/" ++ rest, target.fragment, targetName (segments rest.toList)⟩) := by
  constructor
  · intro path texts v nonempty reached schema small spelled
    have decoded : segments ("/".intercalate texts).toList = path.map Step.segment := by
      rw [String.toList_intercalate]
      exact segments_of_spells spelled (by simpa using nonempty)
    refine resolve_eq_some.mpr ⟨"/".intercalate texts, rfl, ?_, schema, ?_⟩
    · rw [decoded]
      exact walk_eq_some.mpr ⟨path, names_segments small, reached⟩
    · rw [decoded, targetName, List.getLast?_map, List.getLast?_eq_some_getLast nonempty]
      rfl
  · intro pointer target
    rw [resolve_eq_some]
    constructor
    · rintro ⟨rest, same, walked, found⟩
      obtain ⟨path, names, reached⟩ := walk_eq_some.mp walked
      exact ⟨rest, path, same, names, reached, found⟩
    · rintro ⟨rest, path, same, names, reached, found⟩
      exact ⟨rest, same, walk_eq_some.mpr ⟨path, names, reached⟩, found⟩

/-- A document with an empty key and keys that look like escapes. -/
def disguised : Json :=
  .obj [("", .obj [("~1", .obj [("%2F", .arr [.null, .obj [("é/b", .bool true)]])])])]

theorem resolve_spelled_path_disguised :
    resolve (.str "#//~01/%252F/1/%C3%a9~1b") disguised =
      .ok (some ⟨"#//~01/%252F/1/%C3%a9~1b", .bool true, Name.identifier "é/b"⟩) := by
  have joined : "#//~01/%252F/1/%C3%a9~1b" =
      "#/" ++ "/".intercalate ["", "~01", "%252F", "1", "%C3%a9~1b"] := by decide
  have percent : Escapes (utf8 '%') ['%', '2', '5'] := .cons (x := 2) (y := 5) rfl rfl .nil
  have accented : Escapes (utf8 'é') ['%', 'C', '3', '%', 'a', '9'] :=
    .cons (x := 12) (y := 3) rfl rfl (.cons (x := 10) (y := 9) rfl rfl .nil)
  have tilde : Spells "~01" "~1" :=
    .plain (by decide) (.plain (by decide) (.plain (by decide) .nil))
  have slash : Spells "%252F" "%2F" :=
    .escaped percent (.plain (by decide) (.plain (by decide) .nil))
  have last : Spells "%C3%a9~1b" "é/b" :=
    .escaped accented (.plain (by decide) (.plain (by decide) (.plain (by decide) .nil)))
  rw [joined]
  refine (resolve_spelled_path disguised).1 [.key "", .key "~1", .key "%2F", .index 1, .key "é/b"]
    _ _ (by simp) rfl rfl ?_
    (.cons .nil (.cons tilde (.cons slash (.cons (.plain (by decide) .nil) (.cons last .nil)))))
  intro n listed
  obtain rfl : n = 1 := by simpa using listed
  exact Nat.one_lt_pow (by decide) (by decide)

end TypedClient.Pointer
