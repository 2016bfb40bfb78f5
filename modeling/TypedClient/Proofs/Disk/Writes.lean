import TypedClient.Proofs.Disk.Entries
import TypedClient.Writer

/-! Files written whole or not at all. A write that fails has at most made directories above its
target; one that succeeds has changed its target alone. So texts that do not pass the check leave
the disk as it is, and files that are written hold what they were given. -/
namespace TypedClient

def Disk.Leads (disk : Disk) (path : Path) (place : List String) : Prop :=
  disk.tree.placeOf disk.directory path = .ok place

theorem Disk.Leads.unique {disk : Disk} {path : Path} {place other : List String}
    (first : disk.Leads path place) (second : disk.Leads path other) : place = other :=
  Except.ok.inj (first.symm.trans second)

namespace Writing

/-- Where a step succeeds, its result and the disk satisfy `Q`; where it fails, the disk satisfies
`P`. -/
def Ends (P : Disk → Prop) (Q : α → Disk → Prop) (step : Writing α) (disk : Disk) : Prop :=
  match step disk with
  | .ok a after => Q a after
  | .error _ after => P after

theorem bind_of_ok {step : Writing α} {next : α → Writing β} {disk middle : Disk} {a : α}
    (done : step disk = .ok a middle) : (step >>= next) disk = next a middle := by
  change EStateM.bind step next disk = _
  rw [EStateM.bind, done]

namespace Ends

variable {P : Disk → Prop} {Q : α → Disk → Prop} {Q' : β → Disk → Prop} {disk after : Disk}
  {step : Writing α}

theorem of_ok {a : α} (ends : Ends P Q step disk) (done : step disk = .ok a after) : Q a after := by
  unfold Ends at ends
  rwa [done] at ends

theorem of_error {fault : Fault} (ends : Ends P Q step disk) (failed : step disk = .error fault after) :
    P after := by
  unfold Ends at ends
  rwa [failed] at ends

theorem mono {P' : Disk → Prop} {R : α → Disk → Prop} (ends : Ends P Q step disk)
    (failed : ∀ after, P after → P' after) (value : ∀ a after, Q a after → R a after) :
    Ends P' R step disk := by
  unfold Ends at ends ⊢
  cases outcome : step disk with
  | ok a after =>
    rw [outcome] at ends
    exact value a after ends
  | error fault after =>
    rw [outcome] at ends
    exact failed after ends

theorem pure {a : α} (value : Q a disk) : Ends P Q (Pure.pure a) disk :=
  value

theorem throw {fault : Fault} (failed : P disk) :
    Ends P Q (MonadExcept.throw fault : Writing α) disk :=
  failed

theorem bind {next : α → Writing β} (first : Ends P Q step disk)
    (second : ∀ a after, Q a after → Ends P Q' (next a) after) : Ends P Q' (step >>= next) disk := by
  unfold Ends at first ⊢
  change match EStateM.bind step next disk with | .ok b after => _ | .error _ after => _
  unfold EStateM.bind
  cases outcome : step disk with
  | ok a after =>
    rw [outcome] at first
    exact second a after first
  | error fault after =>
    rw [outcome] at first
    exact first

/-- Reading the tree changes nothing. -/
theorem tree {next : FileTree → Writing β} (rest : Ends P Q' (next disk.tree) disk) :
    Ends P Q' (Writing.tree >>= next) disk :=
  rest

theorem modifyTree {f : FileTree → FileTree} {next : Unit → Writing β}
    (rest : Ends P Q' (next ()) { disk with tree := f disk.tree }) :
    Ends P Q' (Writing.modifyTree f >>= next) disk :=
  rest

theorem get {next : Disk → Writing β} (rest : Ends P Q' (next disk) disk) :
    Ends P Q' (MonadState.get >>= next) disk :=
  rest

/-- Looking a path up changes nothing. It gives the place that the path leads to, gives none or
fails. -/
theorem placeOf? {path : Path} {next : Option (List String) → Writing β} (failed : P disk)
    (missing : Ends P Q' (next none) disk)
    (found : ∀ place, disk.Leads path place → Ends P Q' (next (some place)) disk) :
    Ends P Q' (Writing.placeOf? path >>= next) disk := by
  refine .bind (Q := fun found after => after = disk ∧ ∀ place, found = some place →
    disk.Leads path place) ?_ ?_
  · unfold Writing.placeOf?
    refine .tree (.get ?_)
    split
    · next place leads =>
      refine .pure ⟨rfl, fun other same => ?_⟩
      cases same
      exact leads
    · exact .throw failed
    · exact .throw failed
    · exact .throw failed
    · exact .pure ⟨rfl, by simp⟩
  · rintro (_ | place) _ ⟨rfl, leads⟩
    · exact missing
    · exact found place (leads place rfl)

end Ends

def OnWay (disk : Disk) (path : Path) (place : List String) : Prop :=
  ∃ parts, parts ≠ [] ∧ parts <+: path.parts ∧ disk.Leads { path with parts } place

/-- Directories that a path leads through have been made where nothing was, and nothing else has
been done. -/
structure Paved (path : Path) (before after : Disk) : Prop where
  directory : after.directory = before.directory
  log : after.log = before.log
  entries : ∀ place, after.tree.get? place = before.tree.get? place ∨
    before.tree.get? place = none ∧ after.tree.get? place = some .directory ∧ OnWay after path place

namespace Paved

variable {path : Path} {before middle after disk : Disk}

theorem refl (path : Path) (disk : Disk) : Paved path disk disk :=
  ⟨rfl, rfl, fun _ => .inl rfl⟩

theorem within (paved : Paved path before after) : before.tree.Within after.tree := by
  intro place directory
  rcases paved.entries place with same | ⟨missing, _⟩
  · rw [same, directory]
  · rw [directory] at missing
    cases missing

theorem leads {place : List String} {other : Path} (paved : Paved path before after)
    (found : before.Leads other place) : after.Leads other place := by
  unfold Disk.Leads at found ⊢
  rw [paved.directory]
  exact FileTree.placeOf_of_within paved.within found

theorem trans (first : Paved path before middle) (second : Paved path middle after) :
    Paved path before after := by
  refine ⟨second.directory.trans first.directory, second.log.trans first.log, fun place => ?_⟩
  rcases second.entries place with same | ⟨missing, made⟩
  · rw [same]
    rcases first.entries place with kept | ⟨missing, made, parts, proper, start, found⟩
    · exact .inl kept
    · exact .inr ⟨missing, made, parts, proper, start, second.leads found⟩
  · rcases first.entries place with kept | ⟨_, directory, _⟩
    · exact .inr ⟨kept ▸ missing, made⟩
    · rw [directory] at missing
      cases missing

/-- What is made on the way of a beginning is on the way of the whole. -/
theorem longer {root : String} {start parts : List String} (paved : Paved ⟨root, start⟩ before after)
    (begins : start <+: parts) : Paved ⟨root, parts⟩ before after := by
  refine ⟨paved.directory, paved.log, fun place => (paved.entries place).imp_right ?_⟩
  rintro ⟨missing, made, inner, proper, first, found⟩
  exact ⟨missing, made, inner, proper, first.trans begins, found⟩

/-- A directory is made where the path leads. -/
theorem set {place : List String} (found : disk.Leads path place) (proper : path.parts ≠ [])
    (missing : disk.tree.get? place = none) :
    Paved path disk { disk with tree := disk.tree.set place .directory } := by
  have inside : place ≠ [] := FileTree.ne_nil_of_get? (by rw [missing]; simp)
  have within : disk.tree.Within (disk.tree.set place .directory) := by
    intro other directory
    rw [FileTree.get?_set inside]
    split
    · rfl
    · exact directory
  refine ⟨rfl, rfl, fun other => ?_⟩
  rw [FileTree.get?_set inside]
  split
  · next same =>
    refine .inr ⟨same ▸ missing, rfl, path.parts, proper, List.prefix_refl _, ?_⟩
    rw [same]
    exact FileTree.placeOf_of_within within found
  · exact .inl rfl

/-- What is made above a path is not what the path leads to, unless the path goes up again. -/
theorem target {place : List String} (paved : Paved path.parent before after)
    (found : after.Leads path place) :
    after.tree.get? place = before.tree.get? place ∨
      ".." ∈ path.parts ∧ before.tree.get? place = none ∧
        after.tree.get? place = some .directory ∧ OnWay after path.parent place := by
  refine (paved.entries place).imp_right fun made => ⟨?_, made⟩
  by_contra level
  obtain ⟨_, _, parts, proper, start, early⟩ := made
  have begins : parts <+: path.parts := start.trans (List.dropLast_prefix _)
  have same : parts = path.parts := List.append_cancel_left
    ((FileTree.eq_append_of_placeOf (fun up => level (begins.subset up)) early).symm.trans
      (FileTree.eq_append_of_placeOf level found))
  have bound : parts.length ≤ path.parts.length - 1 := by
    rw [← List.length_dropLast]
    exact start.length_le
  have inside := List.length_pos_iff.mpr proper
  rw [same] at bound inside
  omega

end Paved

/-- A text has been put where the path leads, over no directory; all else that is new are
directories. -/
structure Filed (path : Path) (content : String) (before after : Disk) : Prop where
  directory : after.directory = before.directory
  entries : ∃ place, after.Leads path place ∧ before.tree.get? place ≠ some .directory ∧
    after.tree.get? place = some (.file content) ∧
    ∀ other, other ≠ place → after.tree.get? other = before.tree.get? other ∨
      before.tree.get? other = none ∧ after.tree.get? other = some .directory

section Putting

variable {path : Path} {place : List String} {content : String} {disk before middle after : Disk}

theorem Filed.of_get? {tree : FileTree} (found : disk.Leads path place)
    (free : disk.tree.get? place ≠ some .directory)
    (given : ∀ other, tree.get? other =
      if other = place then some (.file content) else disk.tree.get? other) :
    Filed path content disk { disk with tree } := by
  have within : disk.tree.Within tree := by
    intro other directory
    have differs : other ≠ place := fun same => free (same ▸ directory)
    rw [given, if_neg differs, directory]
  refine ⟨rfl, place, FileTree.placeOf_of_within within found, free, ?_, fun other differs => .inl ?_⟩
  · rw [given, if_pos rfl]
  · rw [given, if_neg differs]

theorem Filed.within (filed : Filed path content before after) :
    before.tree.Within after.tree := by
  obtain ⟨place, _, free, _, others⟩ := filed.entries
  intro other directory
  have differs : other ≠ place := fun same => free (same ▸ directory)
  rcases others other differs with same | ⟨missing, _⟩
  · rw [same, directory]
  · rw [directory] at missing
    cases missing

end Putting

/-- What files leave on a disk. Each target holds the text of the last file that leads to the same
place, and no other file has come, gone or changed. -/
structure Stored (files : List (Path × String)) (before after : Disk) : Prop where
  directory : after.directory = before.directory
  directories : before.tree.Within after.tree
  leads : ∀ file ∈ files, ∃ place, after.Leads file.1 place
  held : ∀ first path content rest place, files = first ++ (path, content) :: rest →
    after.Leads path place → (∀ later ∈ rest, ¬ after.Leads later.1 place) →
      after.tree.get? place = some (.file content)
  others : ∀ place, (∀ file ∈ files, ¬ after.Leads file.1 place) → ∀ text,
    after.tree.get? place = some (.file text) ↔ before.tree.get? place = some (.file text)

section All

variable {path : Path} {content : String} {files : List (Path × String)}
  {before middle after disk : Disk}

theorem Stored.nil (disk : Disk) : Stored [] disk disk :=
  ⟨rfl, fun _ => id, by simp, by simp, fun _ _ _ => Iff.rfl⟩

theorem Stored.cons (filed : Filed path content before middle)
    (stored : Stored files middle after) : Stored ((path, content) :: files) before after := by
  obtain ⟨place, found, free, held, others⟩ := filed.entries
  have leads : after.Leads path place := by
    unfold Disk.Leads at found ⊢
    rw [stored.directory]
    exact FileTree.placeOf_of_within stored.directories found
  refine ⟨stored.directory.trans filed.directory,
    fun _ old => stored.directories _ (filed.within _ old), ?_, ?_, ?_⟩
  · exact List.forall_mem_cons.mpr ⟨⟨place, leads⟩, stored.leads⟩
  · intro first other text rest reached cut leading apart
    cases first with
    | nil =>
      obtain ⟨same, rfl⟩ := List.cons.inj cut
      cases same
      obtain rfl := leads.unique leading
      exact (stored.others place apart content).mpr held
    | cons _ first =>
      exact stored.held first other text rest reached (List.cons.inj cut).2 leading apart
  · intro other apart text
    rw [List.forall_mem_cons] at apart
    have differs : other ≠ place := fun same => apart.1 (same ▸ leads)
    rw [stored.others other apart.2 text]
    rcases others other differs with same | ⟨missing, made⟩
    · rw [same]
    · simp [missing, made]

end All

def passes (step : Writing α) (disk : Disk) (done : Disk → Bool) (failed : Fault → Disk → Bool) :
    Bool :=
  match step disk with
  | .ok _ after => done after
  | .error fault after => failed fault after

end Writing

end TypedClient
