import TypedClient.Proofs.Builder.Forms
import TypedClient.Proofs.Render.Leaves

/-! References that are written. Either kind of output names the targets of just those references
that it meets. Expressions that a generator builds hide no child, so all their references are
written, and no others are. -/
namespace TypedClient

namespace Render

open TypeExpr

variable {scope : Scope} {name : String}

abbrev OwnName (kind : OutputKind) (scope : Scope) : TypeExpr → String → Prop :=
  Own kind scope (fun target name => target = name) fun _ _ => False

theorem ownName_iff {kind : OutputKind} {type : TypeExpr} :
    OwnName kind scope type name ↔ ∃ ref, type.RefersTo ref ∧ scope.target ref = name := by
  simp [OwnName, Own]

namespace Renders

variable {write : TypeExpr → Except Fault α} {names : α → String → Prop} {type : TypeExpr}
  {result : α} {kind : OutputKind}

theorem exists_ref (renders : Renders (OwnName kind scope) write names)
    (written : write type = .ok result) (occurs : names result name) :
    ∃ ref ∈ type.refs, scope.target ref = name := by
  obtain ⟨part, shows, own⟩ := (renders.has_iff written).mp occurs
  obtain ⟨ref, refers, led⟩ := ownName_iff.mp own
  exact ⟨ref, mem_refs_iff.mpr ⟨part, shows.reaches, refers⟩, led⟩

theorem names_iff_of_tidy (renders : Renders (OwnName kind scope) write names)
    (written : write type = .ok result) (tidy : Tidy type) :
    names result name ↔ ∃ ref ∈ type.refs, scope.target ref = name := by
  refine ⟨renders.exists_ref written, ?_⟩
  rintro ⟨ref, occurs, led⟩
  obtain ⟨part, reaches, refers⟩ := mem_refs_iff.mp occurs
  exact (renders.has_iff written).mpr
    ⟨part, tidy.shows_iff.mpr reaches, ownName_iff.mpr ⟨ref, refers, led⟩⟩

end Renders

namespace SchemaCode

def Uses (code : SchemaCode) (name : String) : Prop :=
  name ∈ code.bare ∨ name ∈ code.delayed

theorem gathers_uses : Gathers Uses (fun target name => target = name) fun _ _ => False where
  word _ _ := by simp [Uses, bare, delayed]
  reference _ _ := by simp [Uses, bare, delayed, eq_comm]
  suspended _ _ := by simp [Uses, bare, delayed, eq_comm]
  literal _ _ := by simp [Uses, bare, delayed]
  call _ _ _ := by simp [Uses, bare, delayed, mem_bareAll, mem_delayedAll, and_or_left, exists_or]
  list _ _ := by simp [Uses, bare, delayed, mem_bareAll, mem_delayedAll, and_or_left, exists_or]
  object _ _ := by
    simp only [Uses, bare, delayed, mem_bareMembers, mem_delayedMembers, and_or_left, exists_or]
  thunk _ _ := by simp [Uses, bare, delayed]
  pipe _ _ _ := by
    simp only [Uses, bare, delayed, mem_bareAll, mem_delayedAll, List.mem_append, and_or_left,
      exists_or]
    exact or_or_or_comm

end SchemaCode

theorem PlainType.gathers_mentions : PlainType.Gathers (fun type name => name ∈ type.mentions)
    (fun target name => target = name) fun _ _ => False where
  word _ _ := by simp [mentions]
  reference _ _ := by simp [mentions, eq_comm]
  literal _ _ := by simp [mentions]
  union _ _ := by simp [mentions, mem_mentionsAll]
  group _ _ := by simp [mentions]
  tuple _ _ := by simp [mentions, mem_mentionsAll]
  spread _ _ := by simp [mentions]
  generic _ _ _ := by simp [mentions, mem_mentionsAll]
  object _ _ := by simp only [mentions, mem_mentionsMembers]

end Render

namespace TypeExpr

theorem tidy_leaf (head : TypeHead) : Tidy { head } :=
  tidy_iff.mpr ⟨List.nil_subset _, nofun⟩

/-- All ways to form an expression show all that is put in. -/
theorem forming_tidy : Forming Tidy where
  leaf := tidy_leaf
  struct fields typed := by
    refine tidy_iff.mpr ⟨fun _ => id, fun child member => ?_⟩
    obtain ⟨field, listed, given⟩ := List.mem_filterMap.mp member
    obtain ⟨type, same, tidy⟩ := typed field listed
    obtain rfl := Option.some.inj (same.symm.trans given)
    exact tidy
  record value tidy :=
    tidy_iff.mpr ⟨fun _ => id, List.forall_mem_singleton.mpr tidy⟩
  array head kind item tidy := by
    refine tidy_iff.mpr ⟨?_, List.forall_mem_singleton.mpr tidy⟩
    simp [shown, TypeExpr.kind, kind, children]
  tuple args rest ofArgs ofRest := by
    have same : children { head := { kind := .tuple }, args, rest } = args ++ rest.toList :=
      List.append_nil _
    refine tidy_iff.mpr ⟨fun child member => by rwa [same] at member, ?_⟩
    rw [same]
    intro child member
    rcases List.mem_append.mp member with listed | further
    · exact ofArgs child listed
    · exact ofRest child (Option.mem_toList.mp further)
  union args ofArgs := by
    have same : children { head := { kind := .union }, args } = args := by simp [children]
    refine tidy_iff.mpr ⟨fun child member => by rwa [same] at member, ?_⟩
    rw [same]
    exact ofArgs
  orNull type tidy := by
    obtain ⟨own, inner⟩ := tidy_iff.mp tidy
    exact tidy_iff.mpr ⟨own, inner⟩

end TypeExpr

namespace History

open TypeExpr Render

/-- The names of an expression are those of its references at any depth, and no name but their
targets is written. Of what is declared after any calls every part is written, both ways, and with
the targets of all its references. -/
theorem run_renders_refs (brandIds : Bool) (calls : List Call) :
    (∀ type name, name ∈ type.refs ↔ ∃ part, Reaches type part ∧ part.RefersTo name) ∧
    (∀ scope type,
      (∀ code, schemaCode scope type = .ok code → ∀ name, code.Uses name →
        ∃ ref ∈ type.refs, scope.target ref = name) ∧
      ∀ plain, plainType scope type = .ok plain → ∀ name ∈ plain.mentions,
        ∃ ref ∈ type.refs, scope.target ref = name) ∧
    ∀ d ∈ (run brandIds calls).store.declarations, ∀ type ∈ d.type, ∀ part, Reaches type part →
      ∀ scope,
        (∃ code, schemaCode scope part = .ok code ∧
          ∀ name, code.Uses name ↔ ∃ ref ∈ part.refs, scope.target ref = name) ∧
        ∃ plain, plainType scope part = .ok plain ∧
          ∀ name, name ∈ plain.mentions ↔ ∃ ref ∈ part.refs, scope.target ref = name := by
  refine ⟨fun type name => mem_refs_iff, fun scope type => ⟨?_, ?_⟩, ?_⟩
  · exact fun code written name => (SchemaCode.gathers_uses.renders scope).exists_ref written
  · exact fun plain written name => (PlainType.gathers_mentions.renders scope).exists_ref written
  · intro d declared type typed part reaches scope
    have fits : FitsIn (run brandIds calls).store.names part :=
      ((run_sound brandIds calls).store.fits d declared type typed).of_reaches reaches
    have tidy : Tidy part :=
      (run_typed forming_tidy brandIds calls d declared type typed).of_reaches reaches
    obtain ⟨code, coded, -⟩ := schemaCode_keeps (SchemaCode.cites_keeps scope _) part fits
    obtain ⟨plain, typed, -⟩ := plainType_keeps (PlainType.cites_keeps scope _) part fits
    exact ⟨⟨code, coded, fun name =>
        (SchemaCode.gathers_uses.renders scope).names_iff_of_tidy coded tidy⟩,
      plain, typed, fun name =>
        (PlainType.gathers_mentions.renders scope).names_iff_of_tidy typed tidy⟩

-- Only the first argument of an array is written.
example : let pair : TypeExpr := { head := { kind := .array }, args := [.ref "A", .ref "B"] }
    pair.refs = ["A", "B"] ∧
      (plainType ⟨[], []⟩ pair).toOption.map (·.mentions) = some ["A"] := by cbv

end History

end TypedClient
