import TypedClient.Proofs.Comment.Closing
import TypedClient.Proofs.Json.Numerals
import TypedClient.Proofs.Name.Alphanumeric
import TypedClient.Proofs.Render.Literals

/-! Written text is balanced. Whatever a description, a key or a value holds, it stays inside of
the comment or string that it is written in, and every brace that is written as code is closed. -/
namespace TypedClient

open Braces

namespace Text

theorem trim_eq_self {drop : Char → Bool} {text : List Char}
    (start : ∀ c ∈ text.head?, drop c = false) (finish : ∀ c ∈ text.getLast?, drop c = false) :
    trim drop text = text := by
  have kept {text : List Char} (start : ∀ c ∈ text.head?, drop c = false) :
      text.dropWhile drop = text := by
    cases text with
    | nil => rfl
    | cons c rest => simp [start c rfl]
  unfold trim
  rw [kept start, kept (by rwa [List.head?_reverse]), List.reverse_reverse]

/-- A text in which something can be seen is not blank. -/
theorem stripped_ne {text : String} {c : Char} (inside : c ∈ text.toList)
    (visible : isBlank c = false) : stripped text ≠ "" := by
  intro empty
  have gone : trim isBlank text.toList = [] := by
    simpa [stripped] using empty
  have blank : ∀ d ∈ text.toList.dropWhile isBlank, isBlank d = true := by
    simpa [trim, List.dropWhile_eq_nil_iff] using gone
  rw [← List.takeWhile_append_dropWhile (p := isBlank) (l := text.toList), List.mem_append] at inside
  have : isBlank c = true := by
    rcases inside with before | after
    · exact List.mem_takeWhile_imp before
    · exact blank c after
  exact absurd this (by simp [visible])

theorem isPlain_of_isNumeral {c : Char} (numeral : isNumeral c = true) : isPlain c = true := by
  have special : ['"', '\x27', '\x60', '/', '\x7b', '\x7d', '\n'].all (!isNumeral ·) = true := rfl
  have other : ∀ d ∈ ['"', '\x27', '\x60', '/', '\x7b', '\x7d', '\n'], c ≠ d := by
    rintro d member rfl
    simpa [numeral] using List.all_eq_true.mp special c member
  simpa [isPlain, isQuote, and_assoc] using other

theorem Numeral.inline {text : String} (numeral : Numeral text.toList) : Inline text :=
  .of_plain fun c member => isPlain_of_isNumeral (numeral c member)

end Text

namespace Json

/-- What a character is written as stays inside of the string. -/
theorem reads_escapeChar (c : Char) :
    Reads (.string '"') (escapeChar c) (.string '"') 0 ∧ '\n' ∉ escapeChar c := by
  have control : ∀ n < 0x20, Reads (.string '"') ('\\' :: 'u' :: hexDigits 4 n) (.string '"') 0 ∧
      '\n' ∉ '\\' :: 'u' :: hexDigits 4 n := by
    decide
  unfold escapeChar
  split
  · decide
  split
  · decide
  split
  · decide
  split
  · decide
  split
  · decide
  split
  · decide
  split
  · decide
  split
  · exact control _ ‹_›
  · refine ⟨reads_inside ?_, ?_⟩
    · simp [*]
    · simp [eq_comm, *]

theorem inline_quoted (text : String) : Inline (quoted text) := by
  have inner : Reads (.string '"') (text.toList.flatMap escapeChar) (.string '"') 0 := by
    refine Reads.flatten fun piece member => ?_
    obtain ⟨c, -, rfl⟩ := List.mem_map.mp member
    exact (reads_escapeChar c).1
  have opened : Reads .code ['"'] (.string '"') 0 := by decide
  have closed : Reads (.string '"') ['"'] .code 0 := by decide
  constructor
  · rw [Whole, quoted, String.toList_ofList]
    exact opened.append (inner.append closed)
  · rw [quoted, String.toList_ofList]
    simp only [List.mem_cons, List.mem_append, List.mem_flatMap, List.not_mem_nil, or_false]
    rintro (same | ⟨c, -, inside⟩ | same)
    · cases same
    · exact (reads_escapeChar c).2 inside
    · cases same

theorem inline_braced {text : String} (inner : Inline text) : Inline ("\x7b" ++ text ++ "\x7d") :=
  inner.braced (by decide) (by decide)

mutual

theorem inline_print (value : Json) : Inline value.print := by
  match value with
  | .null => decide
  | .bool b => cases b <;> decide
  | .int n => exact (Text.Numeral.int n).inline
  | .float x => exact (Text.Numeral.floatText x).inline
  | .str s => exact inline_quoted s
  | .arr items =>
    have inner := Inline.intercalate (by decide : Inline ", ") (inline_printItems items)
    exact (Inline.append (by decide : Inline "[") inner).append (by decide)
  | .obj members =>
    exact inline_braced (.intercalate (by decide) (inline_printMembers members))

theorem inline_printItems (items : List Json) : ∀ text ∈ printItems items, Inline text := by
  match items with
  | [] => simp [printItems]
  | v :: rest =>
    rw [printItems, List.forall_mem_cons]
    exact ⟨inline_print v, inline_printItems rest⟩

theorem inline_printMembers (members : List (Key × Json)) :
    ∀ text ∈ printMembers members, Inline text := by
  match members with
  | [] => simp [printMembers]
  | (k, v) :: rest =>
    rw [printMembers, List.forall_mem_cons]
    exact ⟨((inline_quoted _).append (by decide)).append (inline_print v), inline_printMembers rest⟩

end

end Json

namespace Render

open TypeExpr

variable {scope : Scope} {names : List String}

def InlineText (result : Except Fault String) : Prop :=
  ∀ text, result = .ok text → Inline text

section Schema

namespace SchemaCode

theorem texts_eq_mapM (codes : List SchemaCode) : texts codes = codes.mapM text := by
  induction codes with
  | nil => rfl
  | cons code rest ih => rw [texts, ih, List.mapM_cons]

theorem inline_texts {codes : List SchemaCode} {written : List String}
    (each : ∀ code ∈ codes, InlineText code.text) (done : texts codes = .ok written) :
    Inline (", ".intercalate written) := by
  rw [texts_eq_mapM, except_mapM_eq_ok] at done
  refine .intercalate (by decide) fun text member => ?_
  obtain ⟨code, listed, same⟩ := exists_of_forall₂ done member
  exact each code listed text same

theorem inline_memberTexts {members : List (String × SchemaCode)} {written : List String}
    (each : ∀ member ∈ members, InlineText member.2.text) (done : memberTexts members = .ok written) :
    ∀ text ∈ written, Inline text := by
  induction members generalizing written with
  | nil =>
    cases done
    simp
  | cons member rest ih =>
    rw [List.forall_mem_cons] at each
    rw [memberTexts] at done
    obtain ⟨code, first, done⟩ := except_bind_eq_ok.mp done
    obtain ⟨others, later, same⟩ := except_bind_eq_ok.mp done
    cases same
    rw [List.forall_mem_cons]
    exact ⟨((Json.inline_quoted _).append (by decide)).append (each.1 code first), ih each.2 later⟩

theorem inline_object {members : List (String × SchemaCode)}
    (each : ∀ member ∈ members, InlineText member.2.text) : InlineText (object members).text := by
  intro text done
  cases members with
  | nil =>
    cases done
    decide
  | cons member rest =>
    obtain ⟨written, listed, same⟩ := except_bind_eq_ok.mp done
    cases same
    exact (Inline.intercalate (by decide) (inline_memberTexts each listed)).braced (by decide)
      (by decide)

theorem inline_referenceCode {name : String} (named : Inline (scope.target name)) :
    InlineText (referenceCode scope name).text := by
  unfold referenceCode
  intro text done
  dsimp only at done
  split at done
  · cases done
    exact (Inline.append (by decide : Inline "Schema.suspend(() => ") named).append (by decide)
  · cases done
    exact named

/-- Expressions over names that may stand in code are text of one line. -/
theorem inline_keeps (named : ∀ name ∈ names, Inline (scope.target name)) :
    Keeps scope names fun code => InlineText code.text where
  word text listed _ done := by
    have words : ∀ text ∈ words, Inline text := by decide
    cases done
    exact words text listed
  reference name declared := inline_referenceCode (named name declared)
  literal value text done := (Json.literalText_eq_ok.mp done).2 ▸ Json.inline_print value
  call function listed args each text done := by
    have functions : ∀ function ∈ functions, Inline function := by decide
    obtain ⟨written, inner, same⟩ := except_bind_eq_ok.mp done
    cases same
    exact (((functions function listed).append (by decide)).append (inline_texts each inner)).append
      (by decide)
  list items each text done := by
    obtain ⟨written, inner, same⟩ := except_bind_eq_ok.mp done
    cases same
    exact (Inline.append (by decide : Inline "[") (inline_texts each inner)).append (by decide)
  object _ each := inline_object each
  thunk body holds text done := by
    obtain ⟨written, inner, same⟩ := except_bind_eq_ok.mp done
    cases same
    exact Inline.append (by decide : Inline "() => ") (holds written inner)
  pipe receiver steps holds each text done := by
    obtain ⟨first, inner, done⟩ := except_bind_eq_ok.mp done
    obtain ⟨written, further, same⟩ := except_bind_eq_ok.mp done
    cases same
    exact (((holds first inner).append (by decide)).append (inline_texts each further)).append
      (by decide)

end SchemaCode

end Schema

section Plain

namespace PlainType

theorem texts_eq_mapM (types : List PlainType) : texts types = types.mapM text := by
  induction types with
  | nil => rfl
  | cons type rest ih => rw [texts, ih, List.mapM_cons]

theorem inline_texts {types : List PlainType} {written : List String}
    (each : ∀ type ∈ types, InlineText type.text) (done : texts types = .ok written) :
    Inline (", ".intercalate written) ∧ Inline (" | ".intercalate written) := by
  rw [texts_eq_mapM, except_mapM_eq_ok] at done
  have inner : ∀ text ∈ written, Inline text := by
    intro text member
    obtain ⟨type, listed, same⟩ := exists_of_forall₂ done member
    exact each type listed text same
  exact ⟨.intercalate (by decide) inner, .intercalate (by decide) inner⟩

theorem inline_memberText (name : String) (optional : Bool) {type : String} (inner : Inline type) :
    Inline (memberText name optional type) := by
  have mark : Inline (if optional then "?" else "") := by
    cases optional <;> decide
  have key : Inline ("readonly " ++ Json.quoted name) :=
    Inline.append (by decide) (Json.inline_quoted name)
  exact ((key.append mark).append (by decide)).append inner

theorem inline_memberTexts {members : List (String × Bool × PlainType)} {written : List String}
    (each : ∀ member ∈ members, InlineText member.2.2.text)
    (done : memberTexts members = .ok written) : ∀ text ∈ written, Inline text := by
  induction members generalizing written with
  | nil =>
    cases done
    simp
  | cons member rest ih =>
    rw [List.forall_mem_cons] at each
    rw [memberTexts] at done
    obtain ⟨type, first, done⟩ := except_bind_eq_ok.mp done
    obtain ⟨others, later, same⟩ := except_bind_eq_ok.mp done
    cases same
    rw [List.forall_mem_cons]
    exact ⟨inline_memberText _ _ (each.1 type first), ih each.2 later⟩

theorem inline_object {members : List (String × Bool × PlainType)}
    (each : ∀ member ∈ members, InlineText member.2.2.text) : InlineText (object members).text := by
  intro text done
  cases members with
  | nil =>
    cases done
    decide
  | cons member rest =>
    obtain ⟨written, listed, same⟩ := except_bind_eq_ok.mp done
    cases same
    exact (Inline.intercalate (by decide) (inline_memberTexts each listed)).braced (by decide)
      (by decide)

theorem inline_keeps (named : ∀ name ∈ names, Inline (scope.target name)) :
    Keeps scope names fun type => InlineText type.text where
  word text listed _ done := by
    have words : ∀ text ∈ words, Inline text := by decide
    cases done
    exact words text listed
  reference name declared _ done := by
    cases done
    exact named name declared
  literal value text done := (Json.literalText_eq_ok.mp done).2 ▸ Json.inline_print value
  union _ each text done := by
    obtain ⟨written, inner, same⟩ := except_bind_eq_ok.mp done
    cases same
    exact (inline_texts each inner).2
  group _ holds text done := by
    obtain ⟨written, inner, same⟩ := except_bind_eq_ok.mp done
    cases same
    exact (Inline.append (by decide : Inline "(") (holds written inner)).append (by decide)
  tuple _ each text done := by
    obtain ⟨written, inner, same⟩ := except_bind_eq_ok.mp done
    cases same
    exact (Inline.append (by decide : Inline "readonly [") (inline_texts each inner).1).append
      (by decide)
  spread _ holds text done := by
    obtain ⟨written, inner, same⟩ := except_bind_eq_ok.mp done
    cases same
    exact (Inline.append (by decide : Inline "...Array<") (holds written inner)).append (by decide)
  generic name listed args each text done := by
    have constructors : ∀ name ∈ constructors, Inline name := by decide
    obtain ⟨written, inner, same⟩ := except_bind_eq_ok.mp done
    cases same
    exact (((constructors name listed).append (by decide)).append (inline_texts each inner).1).append
      (by decide)
  object _ each := inline_object each

end PlainType

end Plain

section Items

structure Nameable (name : String) : Prop where
  code : Reads .code name.toList .code 0
  string : Reads (.string '"') name.toList (.string '"') 0
  line : '\n' ∉ name.toList

theorem Nameable.inline {name : String} (named : Nameable name) : Inline name :=
  ⟨named.code, named.line⟩

theorem Nameable.of_alphanumeric {name : String} (all : Name.Alphanumeric name) :
    Nameable name := by
  have other {c : Char} (member : c ∈ name.toList) {d : Char} (strange : d.isAlphanum = false) :
      c ≠ d := by
    rintro rfl
    exact absurd (all c member) (by simp [strange])
  constructor
  · refine reads_plain fun c member => Text.isPlain_of_isNumeral ?_
    simp [Text.isNumeral, all c member]
  · exact reads_inside fun c member => ⟨other member rfl, other member rfl⟩
  · exact fun member => other member rfl rfl

theorem whole_documented (description : Option String) {line : String} (inner : Inline line) :
    Whole (documented description line) := by
  have comment : Whole (commentLines description) := by
    cases description with
    | none => decide
    | some text => exact Comment.whole_indented text
  exact ((comment.append (by decide)).append inner.1).append (by decide)

theorem whole_join {texts : List String} (each : ∀ text ∈ texts, Whole text) :
    Whole (String.join texts) := by
  rw [Whole, String.toList_join]
  refine Reads.flatten fun piece member => ?_
  obtain ⟨text, listed, rfl⟩ := List.mem_map.mp member
  exact each text listed

theorem inline_getD {text : α → Except Fault String} {item : Option α} {written : Option String}
    (each : ∀ x ∈ item.toList, InlineText (text x)) (done : item.mapM text = .ok written) :
    Inline (written.getD "") := by
  cases item with
  | none =>
    cases done
    exact (by decide : Inline "")
  | some x =>
    obtain ⟨inner, first, same⟩ := except_bind_eq_ok.mp done
    cases same
    exact each x (by simp) inner first

structure Begun (text : String) (after : Mode) (depth : Int) : Prop where
  reads : Reads .code text.toList after depth
  start : text.toList.head? = some 'e'

theorem Begun.append {first second : String} {middle after : Mode} {depth further : Int}
    (begun : Begun first middle depth) (rest : Reads middle second.toList after further) :
    Begun (first ++ second) after (depth + further) := by
  refine ⟨begun.reads.append_string rest, ?_⟩
  rw [String.toList_append, List.head?_append, begun.start]
  rfl

theorem getLast?_append (first : String) {second : String} {c : Char}
    (last : second.toList.getLast? = some c) : (first ++ second).toList.getLast? = some c := by
  rw [String.toList_append, List.getLast?_append, last]
  rfl

theorem exists_getLast? {first second : String} {c : Char} (last : first.toList.getLast? = some c)
    (other : c ≠ '\n') (line : '\n' ∉ second.toList) :
    ∃ c, (first ++ second).toList.getLast? = some c ∧ c ≠ '\n' := by
  rw [String.toList_append, List.getLast?_append, last]
  cases ends : second.toList.getLast? with
  | none => exact ⟨c, rfl, other⟩
  | some d =>
    refine ⟨d, rfl, ?_⟩
    rintro rfl
    exact line (List.mem_of_getLast? ends)

/-- A whole declaration, without a line feed at its end. -/
def Complete (text : String) : Prop :=
  Begun text .code 0 ∧ ∃ c, text.toList.getLast? = some c ∧ c ≠ '\n'

/-- Members are written one by one, each with a whole text. -/
theorem whole_members {members : List α} {text : α → Except Fault String} {written : List String}
    (each : ∀ member ∈ members, ∀ text', text member = .ok text' → Whole text')
    (done : members.mapM text = .ok written) : Whole (String.join written) := by
  refine whole_join fun line listed => ?_
  obtain ⟨member, inside, same⟩ := exists_of_mapM_eq_ok done listed
  exact each member inside line same

theorem SchemaMember.whole_text {member : SchemaMember} {text : String}
    (code : InlineText member.code.text) (done : member.text = .ok text) : Whole text := by
  obtain ⟨inner, first, same⟩ := except_bind_eq_ok.mp done
  cases same
  have key := (Json.inline_quoted member.name).append (by decide : Inline ": ")
  exact whole_documented _ ((key.append (code inner first)).append (by decide))

theorem PlainMember.whole_text {member : PlainMember} {text : String}
    (type : InlineText member.type.text) (done : member.text = .ok text) : Whole text := by
  obtain ⟨inner, first, same⟩ := except_bind_eq_ok.mp done
  cases same
  exact whole_documented _ (PlainType.inline_memberText _ _ (type inner first))

/-- What a declaration says as a schema. -/
theorem SchemaItem.complete_text {name text : String} (named : Nameable name) {item : SchemaItem}
    (each : ∀ code ∈ item.codes, InlineText code.text) (bodies : ∀ body ∈ item.body?, Nameable body)
    (done : item.text name = .ok text) : Complete text := by
  have inner {members : List SchemaMember} {written : List String}
      (each : ∀ code ∈ members.map (·.code), InlineText code.text)
      (done : members.mapM (·.text) = .ok written) : Whole (String.join written) :=
    whole_members (fun member inside _ =>
      SchemaMember.whole_text (each _ (List.mem_map_of_mem inside))) done
  have isClass : Begun "export class " .code 0 := ⟨by decide, by decide⟩
  have isConst : Begun "export const " .code 0 := ⟨by decide, by decide⟩
  have equals : Reads .code " = ".toList .code 0 := by decide
  have typeOf : Reads .code " = typeof ".toList .code 0 := by decide
  have typeEnd : Reads .code ".Type".toList .code 0 := by decide
  cases item with
  | classStruct members =>
    obtain ⟨written, listed, same⟩ := except_bind_eq_ok.mp done
    cases same
    have extend : Reads .code " extends Schema.Class<".toList .code 0 := by decide
    have quote : Reads .code ">(\"".toList (.string '"') 0 := by decide
    have opened : Reads (.string '"') "\")(\x7b\n".toList .code 1 := by decide
    have closed : Reads .code "\x7d) \x7b\x7d".toList .code (-1) := by decide
    have head := (isClass.append named.code).append extend
    have call := ((head.append named.code).append quote).append named.string
    exact ⟨((call.append opened).append (inner each listed)).append closed,
      _, getLast?_append _ rfl, by decide⟩
  | struct members =>
    obtain ⟨written, listed, same⟩ := except_bind_eq_ok.mp done
    cases same
    have opened : Reads .code " = Schema.Struct(\x7b\n".toList .code 1 := by decide
    have closed : Reads .code "\x7d)\nexport type ".toList .code (-1) := by decide
    have head := (isConst.append named.code).append opened
    have type := ((closed.append_string named.code).append_string typeOf).append_string named.code
    exact ⟨(head.append (inner each listed)).append (type.append_string typeEnd),
      _, getLast?_append _ (getLast?_append _ rfl), by decide⟩
  | taggedError body =>
    cases done
    have wrapped : Reads .code (body.getD absentName).toList .code 0 := by
      cases body with
      | none => decide
      | some body => exact (bodies body rfl).code
    have extend : Reads .code " extends Schema.TaggedError<".toList .code 0 := by decide
    have quote : Reads .code ">()(\"".toList (.string '"') 0 := by decide
    have closing : Reads (.string '"') "\", ".toList .code 0 := by decide
    have fields : Reads .code ".fields) \x7b\x7d".toList .code 0 := by decide
    have head := (isClass.append named.code).append extend
    have call := ((head.append named.code).append quote).append named.string
    exact ⟨((call.append closing).append wrapped).append fields,
      _, getLast?_append _ rfl, by decide⟩
  | brand code =>
    obtain ⟨written, inside, same⟩ := except_bind_eq_ok.mp done
    cases same
    have pipe : Reads .code ".pipe(Schema.brand(\"".toList (.string '"') 0 := by decide
    have closing : Reads (.string '"') "\"))\n".toList .code 0 := by decide
    have export_ : Reads .code "export type ".toList .code 0 := by decide
    have head := (isConst.append named.code).append equals
    have call := (head.append (inline_getD each inside).1).append pipe
    have type := ((export_.append_string named.code).append_string typeOf).append_string named.code
    exact ⟨((call.append named.string).append closing).append (type.append_string typeEnd),
      _, getLast?_append _ (getLast?_append _ rfl), by decide⟩
  | schema code =>
    obtain ⟨written, inside, same⟩ := except_bind_eq_ok.mp done
    cases same
    have next : Reads .code "\nexport type ".toList .code 0 := by decide
    have head := (isConst.append named.code).append equals
    have value := (head.append (inline_getD each inside).1).append next
    exact ⟨(((value.append named.code).append typeOf).append named.code).append typeEnd,
      _, getLast?_append _ rfl, by decide⟩

/-- What a declaration says as a plain type. -/
theorem PlainItem.complete_text {name text : String} (named : Nameable name) {item : PlainItem}
    (each : ∀ type ∈ item.types, InlineText type.text) (bodies : ∀ body ∈ item.body?, Nameable body)
    (done : item.text name = .ok text) : Complete text := by
  have isInterface : Begun "export interface " .code 0 := ⟨by decide, by decide⟩
  have isType : Begun "export type " .code 0 := ⟨by decide, by decide⟩
  have equals : Reads .code " = ".toList .code 0 := by decide
  cases item with
  | interface members =>
    obtain ⟨written, listed, same⟩ := except_bind_eq_ok.mp done
    cases same
    have inner : Whole (String.join written) :=
      whole_members (fun member inside _ =>
        PlainMember.whole_text (each _ (List.mem_map_of_mem inside))) listed
    have opened : Reads .code " \x7b\n".toList .code 1 := by decide
    have closed : Reads .code "\x7d".toList .code (-1) := by decide
    have head := (isInterface.append named.code).append opened
    exact ⟨(head.append inner).append closed, _, getLast?_append _ rfl, by decide⟩
  | taggedError body =>
    cases done
    have wrapped : Reads .code (body.getD "None").toList .code 0 := by
      cases body with
      | none => decide
      | some body => exact (bodies body rfl).code
    have extend : Reads .code " extends ".toList .code 0 := by decide
    have opened : Reads .code " \x7b\n  readonly _tag: \"".toList (.string '"') 1 := by decide
    have closed : Reads (.string '"') "\"\n\x7d".toList .code (-1) := by decide
    have head := (isInterface.append named.code).append extend
    exact ⟨(((head.append wrapped).append opened).append named.string).append closed,
      _, getLast?_append _ rfl, by decide⟩
  | brand type =>
    obtain ⟨written, inside, same⟩ := except_bind_eq_ok.mp done
    cases same
    have opened : Reads .code " & \x7b readonly __brand: \"".toList (.string '"') 1 := by decide
    have closed : Reads (.string '"') "\" \x7d".toList .code (-1) := by decide
    have head := (isType.append named.code).append equals
    have branded := (head.append (inline_getD each inside).1).append opened
    exact ⟨(branded.append named.string).append closed, _, getLast?_append _ rfl, by decide⟩
  | named type =>
    obtain ⟨written, inside, same⟩ := except_bind_eq_ok.mp done
    cases same
    have head := (isType.append named.code).append equals
    have inner := inline_getD each inside
    exact ⟨head.append inner.1, exists_getLast? (getLast?_append _ rfl) (by decide) inner.2⟩

end Items

section Blocks

structure Block (text : String) : Prop where
  whole : Whole text
  visible : ∃ c ∈ text.toList, Text.isBlank c = false

/-- Neither a comment nor a declaration has line feeds to lose at the ends of a block. -/
theorem block_chomped (description : Option String) {text : String} (complete : Complete text) :
    Block (Text.chomped (Comment.ofOption description ++ text)) := by
  obtain ⟨begun, c, last, other⟩ := complete
  have comment : Whole (Comment.ofOption description) ∧
      ∃ d, (Comment.ofOption description ++ text).toList.head? = some d ∧
        Text.isBlank d = false := by
    cases description with
    | none =>
      refine ⟨Reads.nil, 'e', ?_, by decide⟩
      rw [String.toList_append]
      exact begun.start
    | some description =>
      refine ⟨Comment.whole_block description, '/', ?_, by decide⟩
      simp [Comment.ofOption, Comment.block]
  obtain ⟨whole, d, first, visible⟩ := comment
  have same : Text.chomped (Comment.ofOption description ++ text) =
      Comment.ofOption description ++ text := by
    have start : d ≠ '\n' := by
      rintro rfl
      cases visible
    rw [Text.chomped, Text.trim_eq_self, String.ofList_toList]
    · rw [first]
      simpa using start
    · rw [getLast?_append _ last]
      simpa using other
  rw [same]
  exact ⟨whole.append begun.reads, d, List.mem_of_head? first, visible⟩

variable {declaration : Declaration} {block : String}

theorem block_schemaDeclaration (fits : ∀ type ∈ declaration.type, FitsIn names type)
    (named : Nameable declaration.name) (bodies : ∀ body ∈ declaration.body, Nameable body)
    (targets : ∀ name ∈ names, Nameable (scope.target name))
    (written : schemaDeclaration scope declaration = .ok block) : Block block := by
  obtain ⟨item, made, each, wraps⟩ := schemaItem_keeps
    (SchemaCode.inline_keeps fun name declared => (targets name declared).inline) fits
  rw [schemaDeclaration, made] at written
  change item.block declaration = .ok block at written
  obtain ⟨text, done, same⟩ := except_bind_eq_ok.mp written
  cases same
  have complete := SchemaItem.complete_text named each (fun body listed =>
    bodies body (wraps body listed)) done
  exact block_chomped _ complete

theorem block_plainDeclaration (fits : ∀ type ∈ declaration.type, FitsIn names type)
    (named : Nameable declaration.name) (bodies : ∀ body ∈ declaration.body, Nameable body)
    (targets : ∀ name ∈ names, Nameable (scope.target name))
    (written : plainDeclaration scope declaration = .ok block) : Block block := by
  obtain ⟨item, made, each, wraps⟩ := plainItem_keeps
    (PlainType.inline_keeps fun name declared => (targets name declared).inline) fits
  rw [plainDeclaration, made] at written
  change item.block declaration = .ok block at written
  obtain ⟨text, done, same⟩ := except_bind_eq_ok.mp written
  cases same
  have complete := PlainItem.complete_text named each (fun body listed =>
    bodies body (wraps body listed)) done
  exact block_chomped _ complete

theorem whole_joinBlocks {blocks : List String} (each : ∀ block ∈ blocks, Block block) :
    Whole (joinBlocks blocks) :=
  intercalate_of_append (by decide) .append (by decide) fun block member =>
    (each block member).whole

/-- Something can be seen in blocks as soon as there is one. -/
theorem stripped_joinBlocks {blocks : List String} (each : ∀ block ∈ blocks, Block block) :
    Text.stripped (joinBlocks blocks) ≠ "" ↔ blocks ≠ [] := by
  cases blocks with
  | nil => simp [joinBlocks, Text.stripped, Text.trim]
  | cons first rest =>
    obtain ⟨c, inside, visible⟩ := (each first List.mem_cons_self).visible
    have within : c ∈ (joinBlocks (first :: rest)).toList := by
      cases rest with
      | nil => simpa [joinBlocks] using inside
      | cons next others => simp [joinBlocks, String.intercalate_cons_cons, inside]
    exact iff_of_true (Text.stripped_ne within visible) (List.cons_ne_nil _ _)

end Blocks

end Render

end TypedClient
