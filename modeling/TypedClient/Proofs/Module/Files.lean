import TypedClient.Proofs.Json.Key
import TypedClient.Proofs.Module.Partition
import TypedClient.Proofs.Text.Split

/-! The files of modules. The module of a group is never lost, and the shared module only to a
group that has its key. Each module has a file of its own in the output directory as long as the
stems of the files differ from each other and from that of the barrel, and none of them holds a
slash; only a tag that is taken as it stands can bring in a slash. -/
namespace TypedClient

namespace Name

/-- Kebab case is made of small letters, digits and dashes. -/
theorem mem_dashRuns {c : Char} {dashed : Bool} {text : List Char} (member : c ∈ dashRuns dashed text) :
    isLower c = true ∨ isDecimal c = true ∨ c = '-' := by
  induction text generalizing dashed with
  | nil => cases member
  | cons x rest ih =>
    unfold dashRuns at member
    split at member
    · next kept =>
      rcases List.mem_cons.mp member with rfl | later
      · simpa [or_assoc] using Or.inl kept
      · exact ih later
    · split at member
      · exact ih member
      · rcases List.mem_cons.mp member with rfl | later
        · exact .inr (.inr rfl)
        · exact ih later

theorem slash_not_mem_kebab (text : String) : '/' ∉ (kebab text).toList := by
  intro member
  rw [kebab, String.toList_ofList, Text.trim, List.mem_reverse] at member
  have inside := (List.dropWhile_sublist _).subset member
  rw [List.mem_reverse] at inside
  have kept := mem_dashRuns ((List.dropWhile_sublist _).subset inside)
  exact absurd kept (by decide)

end Name

namespace Path

def child (directory : Path) (file : String) : Path :=
  ⟨directory.root, directory.parts ++ [file]⟩

theorem slash_not_mem_partsOf {text part : String} (member : part ∈ partsOf text) :
    '/' ∉ part.toList := by
  obtain ⟨listed, _⟩ := List.mem_filter.mp member
  obtain ⟨piece, cut, rfl⟩ := List.mem_map.mp listed
  rw [String.toList_ofList]
  exact Text.not_mem_splitAt cut

theorem ofText_of_plain {file : String} (plain : '/' ∉ file.toList) (filled : file ≠ "")
    (dot : file ≠ ".") : ofText file = ⟨"", [file]⟩ := by
  have root : rootOf file = "" := by
    have unrooted : file.toList.takeWhile (· == '/') = [] := by
      cases text : file.toList with
      | nil => rfl
      | cons c rest =>
        have other : c ≠ '/' := fun same => plain (by simp [text, same])
        simp [other]
    rw [rootOf, unrooted]
    rfl
  have parts : partsOf file = [file] := by
    simp [partsOf, Text.splitAt_of_not_mem plain, filled, dot]
  rw [ofText, root, parts]

/-- Whatever is joined to a directory, a file that it names there has no slash in its name. -/
theorem plain_of_join_eq_child {directory : Path} {text file : String}
    (same : directory.join (.ofText text) = directory.child file) : '/' ∉ file.toList := by
  apply @slash_not_mem_partsOf text
  unfold join child at same
  split at same
  · have parts : partsOf text = [file] := List.append_cancel_left (congrArg Path.parts same)
    simp [parts]
  · have parts : partsOf text = directory.parts ++ [file] := congrArg Path.parts same
    simp [parts]

theorem join_eq_child {directory : Path} {file : String} (plain : '/' ∉ file.toList)
    (filled : file ≠ "") (dot : file ≠ ".") :
    directory.join (.ofText file) = directory.child file := by
  rw [ofText_of_plain plain filled dot]
  rfl

theorem child_inj {directory : Path} {first second : String} :
    directory.child first = directory.child second ↔ first = second := by
  simp [child]

end Path

section Assign

variable [BEq α] [LawfulBEq α] {pairs entries : List (α × β)}

def assignAll (pairs entries : List (α × β)) : List (α × β) :=
  entries.foldl (fun pairs entry => assign pairs entry.1 entry.2) pairs

theorem mem_keys_assignAll {key : α} : key ∈ (assignAll pairs entries).map (·.1) ↔
    key ∈ pairs.map (·.1) ∨ key ∈ entries.map (·.1) := by
  induction entries generalizing pairs with
  | nil => simp [assignAll]
  | cons entry rest ih =>
    rw [List.map_cons, List.mem_cons, ← or_assoc, ← mem_keys_assign]
    exact ih

theorem assignAll_eq (distinct : ((pairs ++ entries).map (·.1)).Nodup) :
    assignAll pairs entries = pairs ++ entries := by
  induction entries generalizing pairs with
  | nil => simp [assignAll]
  | cons entry rest ih =>
    have fresh : entry.1 ∉ pairs.map (·.1) := by
      rw [List.map_append] at distinct
      exact fun known => List.disjoint_of_nodup_append distinct known (by simp)
    calc assignAll pairs (entry :: rest)
      _ = assignAll (pairs ++ [entry]) rest :=
        congrArg (assignAll · rest) (assign_of_not_mem fresh)
      _ = pairs ++ [entry] ++ rest := ih (by simpa using distinct)
      _ = pairs ++ entry :: rest := by simp

end Assign

namespace Module

variable {modules entries : List (Key × Module)} {entry : Key × Module} {key : Key}
  {module : Module}

theorem mem_put_of_apart (member : entry ∈ modules) (apart : entry.1.same key = false) :
    entry ∈ put modules key module := by
  unfold put
  split
  · exact List.mem_map.mpr ⟨entry, member, by simp [apart]⟩
  · exact List.mem_append_left _ member

theorem mem_putAll_of_apart (member : entry ∈ modules)
    (apart : ∀ e ∈ entries, entry.1.same e.1 = false) : entry ∈ putAll modules entries := by
  induction entries generalizing modules with
  | nil => exact member
  | cons first rest ih =>
    obtain ⟨head, tail⟩ := List.forall_mem_cons.mp apart
    exact ih (mem_put_of_apart member head) tail

/-- A module that is put is there, under its key or one that is the same. -/
theorem exists_mem_put : ∃ placed, (placed, module) ∈ put modules key module ∧
    (placed = key ∨ placed.same key = true) := by
  unfold put
  split
  · next found =>
    obtain ⟨old, member, same⟩ := List.any_eq_true.mp found
    exact ⟨old.1, List.mem_map.mpr ⟨old, member, by simp [same]⟩, .inr same⟩
  · exact ⟨key, by simp, .inl rfl⟩

/-- Modules with keys of their own do not replace each other. -/
theorem mem_putAll_of_mem (apart : Apart (entries.map (·.1))) (member : entry ∈ entries) :
    entry.2 ∈ (putAll modules entries).map (·.2) := by
  induction entries generalizing modules with
  | nil => cases member
  | cons first rest ih =>
    obtain ⟨head, tail⟩ := List.pairwise_cons.mp apart
    rcases List.mem_cons.mp member with rfl | later
    · obtain ⟨placed, there, under⟩ := @exists_mem_put modules entry.1 entry.2
      have stays : ∀ e ∈ rest, placed.same e.1 = false := by
        intro e listed
        have differs := head e.1 (List.mem_map_of_mem listed)
        rcases under with rfl | same
        · exact differs
        · by_contra again
          exact absurd (Key.same_of_same same (by simpa using again)) (by simp [differs])
      have kept : (placed, entry.2) ∈ putAll (put modules entry.1 entry.2) rest :=
        mem_putAll_of_apart there stays
      exact List.mem_map.mpr ⟨_, kept, rfl⟩
    · exact ih tail later

namespace Partitioned

variable {store : Store} {env : Env} {groups : List (Key × List Operation)}
  {shared : Option (Key × Module)} {tagged : List Module}

/-- The module of a group is never replaced. -/
theorem mem_modules (parts : Partitioned store env groups shared tagged)
    (apart : Apart (groups.map (·.1))) (member : module ∈ tagged) :
    module ∈ (putAll shared.toList ((groups.map (·.1)).zip tagged)).map (·.2) := by
  rw [← parts.modules_eq] at member
  obtain ⟨entry, listed, rfl⟩ := List.mem_map.mp member
  rw [← parts.keys_eq] at apart
  exact mem_putAll_of_mem apart listed

/-- All modules are listed one after the other unless a group has the key of the shared module. -/
theorem modules_listed_iff (parts : Partitioned store env groups shared tagged)
    (apart : Apart (groups.map (·.1))) :
    putAll shared.toList ((groups.map (·.1)).zip tagged) =
        shared.toList ++ (groups.map (·.1)).zip tagged ↔
      ∀ entry ∈ shared, ∀ group ∈ groups, entry.1.same group.1 = false := by
  constructor
  · intro listed entry member
    apply parts.differs_of_kept member
    exact listed ▸ List.mem_append_left _ (Option.mem_toList.mpr member)
  · exact fun differs => putAll_apart (parts.modules_apart apart differs)

end Partitioned

/-- Only texts name files. -/
theorem exists_fileName {tag : Json} :
    (∃ stem, fileName tag = .ok stem) ↔ ∃ text, tag = .str text := by
  constructor
  · rintro ⟨stem, named⟩
    unfold fileName at named
    split at named
    · exact ⟨_, rfl⟩
    · cases named
  · rintro ⟨text, rfl⟩
    unfold fileName
    simp only
    split <;> exact ⟨_, rfl⟩

/-- A slash in the stem of a file comes from a tag that is taken as it stands. -/
theorem verbatim_of_slash {tag : Json} {stem : String} (named : fileName tag = .ok stem)
    (slash : '/' ∈ stem.toList) :
    tag = .str stem ∧ (stem.toList.head? = some '_' ∨ Name.kebab stem = "") := by
  unfold fileName at named
  split at named
  · next text =>
    split at named
    · next underscore =>
      obtain rfl := Except.ok.inj named
      exact ⟨rfl, .inl underscore⟩
    · simp only at named
      split at named
      · next nothing =>
        obtain rfl := Except.ok.inj named
        exact ⟨rfl, .inr nothing⟩
      · obtain rfl := Except.ok.inj named
        exact absurd slash (Name.slash_not_mem_kebab text)
  · cases named

end Module

theorem exists_forall₂_iff {R : α → β → Prop} {items : List α} :
    (∃ results, List.Forall₂ R items results) ↔ ∀ item ∈ items, ∃ b, R item b := by
  constructor
  · rintro ⟨results, all⟩
    induction all with
    | nil => simp
    | cons first _ ih => exact List.forall_mem_cons.mpr ⟨⟨_, first⟩, ih⟩
  · intro each
    induction items with
    | nil => exact ⟨[], .nil⟩
    | cons item rest ih =>
      obtain ⟨⟨b, first⟩, others⟩ := List.forall_mem_cons.mp each
      obtain ⟨results, later⟩ := ih others
      exact ⟨b :: results, .cons first later⟩

namespace Document

def place (outdir : Path) (stem : String) : Path :=
  outdir.join (.ofText (stem ++ ".ts"))

variable {generated : Generated} {outdir : Path} {ending common : Json} {header : String}
  {written : List (Path × String)} {stem : String}

theorem place_eq_child (plain : '/' ∉ stem.toList) :
    place outdir stem = outdir.child (stem ++ ".ts") := by
  apply Path.join_eq_child
  · simpa using plain
  · intro empty
    simpa using congrArg String.toList empty
  · intro dot
    simpa using congrArg (·.toList.length) dot

theorem plain_of_place_eq_child {other : String}
    (same : place outdir other = outdir.child (stem ++ ".ts")) : '/' ∉ stem.toList := by
  have plain := Path.plain_of_join_eq_child same
  simpa using plain

/-- The modules with the stems of their files. -/
theorem named_modules {modules : List (Key × Module)} {named : List (Key × String × Module)}
    (done : modules.mapM (fun m => do return (m.1, ← Module.fileName m.2.tag, m.2)) = .ok named) :
    List.Forall₂ (fun m stem => Module.fileName m.2.tag = .ok stem) modules (named.map (·.2.1)) ∧
      named.map (·.2.2.source) = modules.map (·.2.source) := by
  have each := except_mapM_eq_ok.mp done
  clear done
  induction each with
  | nil => exact ⟨.nil, rfl⟩
  | cons first _ ih =>
    obtain ⟨stem, read, same⟩ := except_bind_eq_ok.mp first
    cases same
    exact ⟨.cons read ih.1, congrArg (_ :: ·) ih.2⟩

/-- The files of the modules and of the barrel are set in their places, one after the other. -/
theorem files_eq_ok (done : files generated outdir ending common header = .ok written) :
    ∃ stems exports entries,
      List.Forall₂ (fun m stem => Module.fileName m.2.tag = .ok stem) generated.modules stems ∧
      entries.map (·.1) = (stems ++ ["index"]).map (place outdir) ∧
      entries.map (·.2) = generated.modules.map (header ++ ·.2.source) ++
        [header ++ barrel exports ending.display] ∧
      written = assignAll [] entries := by
  unfold files at done
  obtain ⟨named, mapped, same⟩ := except_bind_eq_ok.mp done
  obtain ⟨stems, sources⟩ := named_modules mapped
  have result := Except.ok.inj same
  let exports := (named.filter fun m => !common.sameKey m.1).map (·.2.1)
  refine ⟨named.map (·.2.1), exports,
    named.map (fun m => (place outdir m.2.1, header ++ m.2.2.source)) ++
      [(place outdir "index", header ++ barrel exports ending.display)], stems, ?_, ?_, ?_⟩
  · simp [Function.comp_def]
  · have contents := congrArg (List.map (header ++ ·)) sources
    simp only [List.map_map] at contents
    simpa [Function.comp_def] using contents
  · rw [← result, assignAll, List.foldl_append, List.foldl_map]
    rfl

/-- Files can be written exactly if all tags are texts. -/
theorem exists_files : (∃ written, files generated outdir ending common header = .ok written) ↔
    ∀ m ∈ generated.modules, ∃ text, m.2.tag = .str text := by
  have read : ∀ m : Key × Module, (∃ entry : Key × String × Module,
      (do return (m.1, ← Module.fileName m.2.tag, m.2)) = Except.ok entry) ↔
        ∃ text, m.2.tag = .str text := by
    intro m
    rw [← Module.exists_fileName]
    constructor
    · rintro ⟨entry, done⟩
      obtain ⟨stem, named, _⟩ := except_bind_eq_ok.mp done
      exact ⟨stem, named⟩
    · rintro ⟨stem, named⟩
      exact ⟨_, except_bind_eq_ok.mpr ⟨stem, named, rfl⟩⟩
  simp only [← read]
  rw [← exists_forall₂_iff]
  constructor
  · rintro ⟨written, done⟩
    obtain ⟨named, mapped, _⟩ := except_bind_eq_ok.mp done
    exact ⟨named, except_mapM_eq_ok.mp mapped⟩
  · rintro ⟨named, mapped⟩
    exact ⟨_, except_bind_eq_ok.mpr ⟨named, except_mapM_eq_ok.mpr mapped, rfl⟩⟩

/-- Every module has a file of its own, which its stem names in the directory, and so has the
barrel. -/
structure OwnFiles (outdir : Path) (stems contents : List String) (written : List (Path × String)) :
    Prop where
  distinct : (written.map (·.1)).Nodup
  paths : written.map (·.1) = (stems ++ ["index"]).map fun stem => outdir.child (stem ++ ".ts")
  contents : written.map (·.2) = contents

theorem ownFiles_iff {stems contents : List String} {entries : List (Path × String)}
    (placed : entries.map (·.1) = (stems ++ ["index"]).map (place outdir))
    (filled : entries.map (·.2) = contents) :
    OwnFiles outdir stems contents (assignAll [] entries) ↔
      stems.Nodup ∧ "index" ∉ stems ∧ ∀ stem ∈ stems, '/' ∉ stem.toList := by
  constructor
  · intro own
    have named : (stems ++ ["index"]).Nodup := (own.paths ▸ own.distinct).of_map
    refine ⟨named.of_append_left, fun index => ?_, fun stem member => ?_⟩
    · exact List.disjoint_of_nodup_append named index (by simp)
    · have path : outdir.child (stem ++ ".ts") ∈ (assignAll [] entries).map (·.1) := by
        rw [own.paths]
        exact List.mem_map.mpr ⟨stem, List.mem_append_left _ member, rfl⟩
      rw [mem_keys_assignAll, placed] at path
      obtain ⟨other, _, same⟩ := List.mem_map.mp (path.resolve_left (by simp))
      exact plain_of_place_eq_child same
  · rintro ⟨distinct, index, plain⟩
    have children : entries.map (·.1) =
        (stems ++ ["index"]).map fun stem => outdir.child (stem ++ ".ts") := by
      rw [placed]
      refine List.map_congr_left fun stem member => place_eq_child ?_
      rcases List.mem_append.mp member with listed | last
      · exact plain stem listed
      · rw [List.mem_singleton.mp last]
        decide
    have once : (entries.map (·.1)).Nodup := by
      rw [children]
      refine List.Nodup.map (fun first second same => ?_) ?_
      · have texts := congrArg String.toList (Path.child_inj.mp same)
        exact String.toList_inj.mp (by simpa using texts)
      · rw [← List.concat_eq_append]
        exact distinct.concat index
    have kept : assignAll [] entries = entries := assignAll_eq (by simpa using once)
    rw [kept]
    exact ⟨once, children, filled⟩

/-- The module of every group is kept, and all modules are listed unless a group has the key of the
shared module. Files are written exactly if all tags are texts. Then each module has a file of its
own, named by its stem in the output directory, exactly if the stems differ from each other and
from that of the barrel and hold no slash; and a stem that holds a slash is a tag as it stands,
which begins with an underscore or has no letter or digit to make a name of. -/
theorem generate_own_files {config : Config} {document name ext : Json} {generated : Generated}
    {final : Session} (done : generate config document name ext {} = .ok generated final)
    (outdir : Path) (ending common : Json) (header : String) :
    (∃ groups shared tagged, Module.groupByTag generated.operations = .ok groups ∧
      Module.Partitioned final.store
        ⟨name.orElse config.name, ext.nonNull?.getD config.ext, config.commonModule⟩
        groups shared tagged ∧
      (∀ module ∈ tagged, module ∈ generated.modules.map (·.2)) ∧
      (generated.modules = shared.toList ++ (groups.map (·.1)).zip tagged ↔
        ∀ entry ∈ shared, ∀ group ∈ groups, entry.1.same group.1 = false)) ∧
    ((∃ written, files generated outdir ending common header = .ok written) ↔
      ∀ m ∈ generated.modules, ∃ text, m.2.tag = .str text) ∧
    ∀ written, files generated outdir ending common header = .ok written →
      ∃ stems exports,
        List.Forall₂ (fun m stem => Module.fileName m.2.tag = .ok stem) generated.modules stems ∧
        (OwnFiles outdir stems (generated.modules.map (header ++ ·.2.source) ++
            [header ++ barrel exports ending.display]) written ↔
          stems.Nodup ∧ "index" ∉ stems ∧ ∀ stem ∈ stems, '/' ∉ stem.toList) ∧
        ∀ m ∈ generated.modules, ∀ stem, Module.fileName m.2.tag = .ok stem →
          '/' ∈ stem.toList →
            m.2.tag = .str stem ∧ (stem.toList.head? = some '_' ∨ Name.kebab stem = "") := by
  refine ⟨?_, exists_files, fun written writes => ?_⟩
  · obtain ⟨groups, shared, tagged, grouped, parts, modules⟩ := generate_partitioned done
    have apart := (Module.groupByTag_groups grouped).apart
    rw [modules]
    exact ⟨groups, shared, tagged, grouped, parts, fun module => parts.mem_modules apart,
      parts.modules_listed_iff apart⟩
  · obtain ⟨stems, exports, entries, named, placed, filled, rfl⟩ := files_eq_ok writes
    exact ⟨stems, exports, named, ownFiles_iff placed filled,
      fun _ _ _ => Module.verbatim_of_slash⟩

def writes (document : Json) (test : Generated → List (Path × String) → Bool) : Bool :=
  Build.succeeds (generate {} document .null .null) {} fun generated _ =>
    match files generated (.ofText "out") (.str ".js") (.str "_common") "" with
    | .ok written => test generated written
    | .error _ => false

theorem exists_of_writes {document : Json} {test : Generated → List (Path × String) → Bool}
    (passed : writes document test = true) :
    ∃ generated final written, generate {} document .null .null {} = .ok generated final ∧
      files generated (.ofText "out") (.str ".js") (.str "_common") "" = .ok written ∧
      test generated written = true := by
  obtain ⟨generated, final, done, tested⟩ := Build.exists_of_succeeds passed
  split at tested
  · next written wrote => exact ⟨generated, final, written, done, wrote, tested⟩
  · cases tested

theorem generate_own_files_pets : ∃ generated final written stems exports,
    generate {} (petsAndOwners "pets" "owners") .null .null {} = .ok generated final ∧
      files generated (.ofText "out") (.str ".js") (.str "_common") "" = .ok written ∧
      written.map (·.1.text) = ["out/_common.ts", "out/pets.ts", "out/owners.ts", "out/index.ts"] ∧
      List.Forall₂ (fun m stem => Module.fileName m.2.tag = .ok stem) generated.modules stems ∧
      (OwnFiles (.ofText "out") stems (generated.modules.map ("" ++ ·.2.source) ++
          ["" ++ barrel exports ".js"]) written ↔
        stems.Nodup ∧ "index" ∉ stems ∧ ∀ stem ∈ stems, '/' ∉ stem.toList) := by
  have passed : writes (petsAndOwners "pets" "owners") fun _ written =>
      written.map (·.1.text) = ["out/_common.ts", "out/pets.ts", "out/owners.ts", "out/index.ts"] := by
    decide +kernel
  obtain ⟨generated, final, written, done, wrote, paths⟩ := exists_of_writes passed
  obtain ⟨_, _, owned⟩ := generate_own_files done (.ofText "out") (.str ".js") (.str "_common") ""
  obtain ⟨stems, exports, named, own, _⟩ := owned written wrote
  exact ⟨generated, final, written, stems, exports, done, wrote, of_decide_eq_true paths, named, own⟩

/-- Two tags that differ in a capital only have one file, so that a module is lost. -/
theorem generate_pets_overwritten : ∃ generated final written,
    generate {} (petsAndOwners "Pets" "pets") .null .null {} = .ok generated final ∧
      files generated (.ofText "out") (.str ".js") (.str "_common") "" = .ok written ∧
      generated.modules.map (·.1) = [.text "_common", .text "Pets", .text "pets"] ∧
      written.map (·.1.text) = ["out/_common.ts", "out/pets.ts", "out/index.ts"] := by
  have passed : writes (petsAndOwners "Pets" "pets") fun generated written =>
      generated.modules.map (·.1) = [.text "_common", .text "Pets", .text "pets"] ∧
        written.map (·.1.text) = ["out/_common.ts", "out/pets.ts", "out/index.ts"] := by
    decide +kernel
  obtain ⟨generated, final, written, done, wrote, lost⟩ := exists_of_writes passed
  obtain ⟨keys, paths⟩ := of_decide_eq_true lost
  exact ⟨generated, final, written, done, wrote, keys, paths⟩

end Document

end TypedClient
