import TypedClient.Pointer
import TypedClient.Proofs.Session.Outcome
import TypedClient.Proofs.Text.Percent
import TypedClient.Proofs.Text.Split

/-! References written segment by segment. Whatever spellings are chosen for the segments, the
reference leads along the keys that they spell. -/
namespace TypedClient

namespace Pointer

open Text

def tilded (key : List Char) : List Char :=
  key.flatMap fun c => if c = '~' then ['~', '0'] else if c = '/' then ['~', '1'] else [c]

/-- A text that writes a key as a segment: tildes and slashes escaped, and then percent signs and
any other characters. -/
def Spells (text key : String) : Prop :=
  Encodes (tilded key.toList) text.toList

/-- The slashes of a key come back first, and its tildes from what is left. -/
theorem untilded (key : List Char) :
    replacePair '~' '0' ['~'] (replacePair '~' '1' ['/'] (tilded key)) = key := by
  have slashes : replacePair '~' '1' ['/'] (tilded key) =
      key.flatMap fun c => if c = '~' then ['~', '0'] else [c] := by
    induction key with
    | nil => rfl
    | cons c key ih =>
      unfold tilded at ih ⊢
      rw [List.flatMap_cons, List.flatMap_cons, ← ih]
      by_cases tilde : c = '~'
      · simp [tilde, replacePair, replacePair_other]
      by_cases slash : c = '/'
      · simp [slash, replacePair]
      · simp [tilde, slash, replacePair_other]
  rw [slashes]
  clear slashes
  induction key with
  | nil => rfl
  | cons c key ih =>
    rw [List.flatMap_cons]
    by_cases tilde : c = '~'
    · simp [tilde, replacePair, ih]
    · simp [tilde, replacePair_other, ih]

theorem slash_not_mem_tilded (key : List Char) : '/' ∉ tilded key := by
  unfold tilded
  simp only [List.mem_flatMap, not_exists, not_and]
  intro c _
  split
  · decide
  split
  · decide
  · rename_i slash
    simpa using Ne.symm slash

theorem Spells.unescape {text key : String} (spells : Spells text key) :
    unescape text.toList = key.toList := by
  rw [Pointer.unescape, spells.percentDecode, untilded]

theorem Spells.slash_not_mem {text key : String} (spells : Spells text key) :
    '/' ∉ text.toList :=
  Encodes.slash_not_mem spells (slash_not_mem_tilded _)

/-- Every key is spelled by some text. -/
theorem exists_spells (key : String) : ∃ text, Spells text key := by
  have encoded (text : List Char) : ∃ code, Encodes text code := by
    induction text with
    | nil => exact ⟨[], .nil⟩
    | cons c text ih =>
      obtain ⟨code, rest⟩ := ih
      by_cases percent : c = '%'
      · have octets : Escapes (utf8 '%') ['%', '2', '5'] :=
          .cons (x := 2) (y := 5) rfl rfl .nil
        exact ⟨_, .escaped (percent ▸ octets) rest⟩
      · exact ⟨_, .plain percent rest⟩
  obtain ⟨code, encodes⟩ := encoded (tilded key.toList)
  exact ⟨String.ofList code, by rwa [Spells, String.toList_ofList]⟩

/-- Plain text spells itself. -/
theorem Spells.refl {text : String}
    (plain : text.toList.all (· ∉ ['~', '/', '%']) = true) : Spells text text := by
  have own (key : List Char) (plain : key.all (· ∉ ['~', '/', '%']) = true) :
      Encodes (tilded key) key := by
    induction key with
    | nil => exact .nil
    | cons c key ih =>
      rw [List.all_cons, Bool.and_eq_true] at plain
      have other : c ≠ '~' ∧ c ≠ '/' ∧ c ≠ '%' := by simpa using plain.1
      unfold tilded at ih ⊢
      rw [List.flatMap_cons, if_neg other.1, if_neg other.2.1]
      exact .plain other.2.2 (ih plain.2)
  exact own text.toList plain

/-- The segments of spelled keys are the keys. -/
theorem segments_of_spells {texts path : List String} (spelled : List.Forall₂ Spells texts path)
    (nonempty : path ≠ []) : segments (['/'].intercalate (texts.map String.toList)) = path := by
  unfold segments
  induction spelled with
  | nil => exact absurd rfl nonempty
  | @cons text key texts path first rest ih =>
    have back : String.ofList (Pointer.unescape text.toList) = key := by
      rw [first.unescape, String.ofList_toList]
    cases rest with
    | nil => simp [splitAt_of_not_mem first.slash_not_mem, back]
    | @cons next _ texts _ second others =>
      have joined : ['/'].intercalate ((text :: next :: texts).map String.toList) =
          text.toList ++ '/' :: ['/'].intercalate ((next :: texts).map String.toList) := by
        simp [List.intercalate]
      rw [joined, splitAt_append first.slash_not_mem, List.map_cons, back, ih (by simp)]

def isSchema : Json → Bool
  | .obj _ | .bool _ => true
  | _ => false

/-- What follows the mark of a reference to the same document. -/
theorem local?_eq_some {pointer : Json} {text : String} {rest : List Char} :
    local? pointer = some (text, rest) ↔
      pointer = .str text ∧ text = "#/" ++ String.ofList rest := by
  constructor
  · intro marked
    cases pointer with
    | str own =>
      rw [local?] at marked
      split at marked
      · next start =>
        cases marked
        exact ⟨rfl, String.toList_inj.mp (by simp [start])⟩
      · cases marked
    | null | bool | int | float | arr | obj => cases marked
  · rintro ⟨rfl, rfl⟩
    simp [local?]

/-- Resolution succeeds exactly where a walk along the segments ends at a schema. -/
theorem resolve_eq_some {pointer document : Json} {target : Target} :
    resolve pointer document = .ok (some target) ↔ ∃ rest : String, pointer = .str ("#/" ++ rest) ∧
      walk document (segments rest.toList) = .ok (some target.fragment) ∧
      isSchema target.fragment = true ∧
      target = ⟨"#/" ++ rest, target.fragment, targetName (segments rest.toList)⟩ := by
  constructor
  · intro resolved
    unfold resolve at resolved
    split at resolved
    · cases resolved
    · next text rest marked =>
      obtain ⟨rfl, rfl⟩ := local?_eq_some.mp marked
      refine ⟨String.ofList rest, rfl, ?_⟩
      rw [String.toList_ofList]
      obtain ⟨found, walked, resolved⟩ := except_bind_eq_ok.mp resolved
      split at resolved <;> cases resolved
      · exact ⟨walked, rfl, rfl⟩
      · exact ⟨walked, rfl, rfl⟩
  · rintro ⟨rest, rfl, walked, schema, same⟩
    have marked : local? (.str ("#/" ++ rest)) = some ("#/" ++ rest, rest.toList) :=
      local?_eq_some.mpr ⟨rfl, by rw [String.ofList_toList]⟩
    rw [resolve, marked, same]
    refine except_bind_eq_ok.mpr ⟨_, walked, ?_⟩
    cases fragment : target.fragment with
    | obj _ | bool _ => rfl
    | null | int _ | float _ | str _ | arr _ =>
      rw [fragment] at schema
      cases schema

/-- A reference whose segments are spelled leads where a walk along the keys ends. -/
theorem resolve_of_spells {text : String} {texts path : List String} {document : Json}
    {target : Target} (spelled : List.Forall₂ Spells texts path) (nonempty : path ≠ [])
    (shape : text.toList = '#' :: '/' :: ['/'].intercalate (texts.map String.toList)) :
    resolve (.str text) document = .ok (.some target) ↔
      walk document path = .ok (.some target.fragment) ∧ isSchema target.fragment = true ∧
        target = ⟨text, target.fragment, targetName path⟩ := by
  have decoded (rest : String) (marked : text = "#/" ++ rest) : segments rest.toList = path := by
    rw [marked] at shape
    rw [← segments_of_spells spelled nonempty]
    exact congrArg segments (by simpa using shape)
  rw [resolve_eq_some]
  constructor
  · rintro ⟨rest, same, found⟩
    cases same
    rwa [decoded rest rfl] at found
  · intro found
    have marked : text = "#/" ++ String.ofList (['/'].intercalate (texts.map String.toList)) :=
      String.toList_inj.mp (by simp [shape])
    refine ⟨_, congrArg Json.str marked, ?_⟩
    rwa [decoded _ marked, ← marked]

theorem walk_obj_eq_some {members : Members} {key : String} {path : List String} {v : Json} :
    walk (.obj members) (key :: path) = .ok (some v) ↔
      ∃ next, members.get? key = some next ∧ walk next path = .ok (some v) := by
  rw [walk, step]
  cases members.get? key with
  | none => simp [bind, Except.bind, pure, Except.pure]
  | some next => simp [bind, Except.bind]

end Pointer

end TypedClient
