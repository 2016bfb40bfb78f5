import TypedClient.Proofs.Builder.Unfolding

/-! Adding a schema ends. Between two fills of declarations the expressions go down one unfolded
tree, and the declaration of a reference is filled once. So there is a depth at which no expression
is cut off, and from there on the depth makes no difference. -/
namespace TypedClient

namespace Store

variable {store : Store} {name : String}

theorem names_subset_register (declaration : Declaration) :
    store.names ⊆ (store.register declaration).names := by
  by_cases taken : declaration.name ∈ store.names
  · have same : (store.register declaration).names = store.names := by
      simp only [register, names, contains_iff.mpr taken, if_true, List.map_map]
      apply List.map_congr_left
      intro d _
      by_cases own : d.name = declaration.name <;> simp [own]
    rw [same]
    exact List.Subset.refl _
  · rw [names_register taken]
    exact List.subset_append_left _ _

end Store

namespace Session

/-- What one session is ahead of another: the references that were registered in between, and the
declarations that were filled. No reference is registered twice and no declaration is filled twice,
nor is one that was there before. -/
structure Ahead (before after : Session) (registered : List (String × String))
    (filled : List String) : Prop where
  refNames : after.store.refNames = before.store.refNames ++ registered
  pointers : (registered.map (·.1)).Nodup
  unknown : ∀ entry ∈ registered, entry.1 ∉ before.store.refNames.map (·.1)
  fills : after.fills = before.fills ++ filled
  once : filled.Nodup
  fresh : ∀ name ∈ filled, name ∉ before.store.names
  declared : filled ⊆ after.store.names
  kept : before.store.names ⊆ after.store.names

def Fills (before after : Session) : Prop :=
  ∃ registered filled, Ahead before after registered filled

namespace Fills

variable {s t u : Session}

theorem of_refNames (store : Store) (same : store.refNames = s.store.refNames)
    (kept : s.store.names ⊆ store.names) (log : Array LogLine) : s.Fills { s with store, log } :=
  ⟨[], [], by simp [same], by simp, by simp, by simp, by simp, by simp, by simp, kept⟩

theorem refl (s : Session) : s.Fills s :=
  of_refNames s.store rfl (List.Subset.refl _) s.log

theorem trans (first : s.Fills t) (second : t.Fills u) : s.Fills u := by
  obtain ⟨registered, filled, first⟩ := first
  obtain ⟨registered', filled', second⟩ := second
  refine ⟨registered ++ registered', filled ++ filled', ?_, ?_, ?_, ?_, ?_, ?_, ?_, ?_⟩
  · rw [second.refNames, first.refNames, List.append_assoc]
  · rw [List.map_append]
    refine first.pointers.append second.pointers fun p old new => ?_
    obtain ⟨entry, listed, rfl⟩ := List.mem_map.mp new
    exact second.unknown entry listed (by simp [first.refNames, old])
  · refine List.forall_mem_append.mpr ⟨first.unknown, fun entry listed known => ?_⟩
    exact second.unknown entry listed (by simp [first.refNames, known])
  · rw [second.fills, first.fills, List.append_assoc]
  · exact first.once.append second.once fun name old new =>
      second.fresh name new (first.declared old)
  · exact List.forall_mem_append.mpr ⟨first.fresh, fun name listed there =>
      second.fresh name listed (first.kept there)⟩
  · exact List.append_subset.mpr ⟨List.Subset.trans first.declared second.kept, second.declared⟩
  · exact List.Subset.trans first.kept second.kept

/-- A new name may be filled where it is reserved. -/
theorem reserved {registered : List (String × String)} {filled : List String} {name : String}
    (store : Store) (refNames : store.refNames = s.store.refNames ++ registered)
    (pointers : (registered.map (·.1)).Nodup)
    (unknown : ∀ entry ∈ registered, entry.1 ∉ s.store.refNames.map (·.1))
    (fresh : name ∉ s.store.names) (names : store.names = s.store.names ++ [name])
    (single : filled.Sublist [name]) (log : Array LogLine) :
    s.Fills { store, log, fills := s.fills ++ filled } := by
  have own : ∀ other ∈ filled, other = name := fun other listed => by
    simpa using single.subset listed
  refine ⟨registered, filled, refNames, pointers, unknown, rfl, single.nodup (by simp), ?_, ?_, ?_⟩
  · exact fun other listed => own other listed ▸ fresh
  · exact fun other listed => by simp [names, own other listed]
  · simp [names]

theorem registered (s : Session) {filled : List String} (target : Pointer.Target)
    (unknown : target.pointer ∉ s.store.refNames.map (·.1))
    (single : filled.Sublist [s.store.uniqueName target.name]) :
    s.Fills { s.registered target with fills := s.fills ++ filled } := by
  have fresh := s.store.uniqueName_fresh target.name
  have met : ∀ entry ∈ [(target.pointer, s.store.uniqueName target.name)],
      entry.1 ∉ s.store.refNames.map (·.1) := List.forall_mem_singleton.mpr unknown
  exact reserved (s.registered target).store rfl (by simp) met fresh (Store.names_reserve fresh)
    single _

theorem own (s : Session) (name : String) :
    let declared := s.store.uniqueName name
    s.Fills { s with store := s.store.reserve declared, fills := s.fills ++ [declared] } := by
  have fresh := s.store.uniqueName_fresh name
  have same : (s.store.reserve (s.store.uniqueName name)).refNames = s.store.refNames ++ [] :=
    (List.append_nil _).symm
  exact reserved _ same (by simp) (by simp) fresh (Store.names_reserve fresh) (List.Sublist.refl _)
    s.log

end Fills

end Session

namespace Build

/-- Two steps do the same, fill no declaration twice, and do not fail for want of depth. -/
def Alike (step step' : Build α) (s : Session) : Prop :=
  step s = step' s ∧
    match step s with
    | .ok _ t => s.Fills t
    | .error fault t => s.Fills t ∧ fault ≠ .tooDeep

namespace Alike

variable {step step' : Build α} {next next' : α → Build β} {s t : Session}

theorem ends (alike : Alike step step' s) (t : Session) : step s ≠ .error .tooDeep t := by
  intro deep
  obtain ⟨_, reached⟩ := alike
  rw [deep] at reached
  exact reached.2 rfl

theorem fills (alike : Alike step step' s) : s.Fills (step.reached s) := by
  obtain ⟨_, filled⟩ := alike
  unfold reached
  cases outcome : step s with
  | ok a t =>
    rw [outcome] at filled
    exact filled
  | error fault t =>
    rw [outcome] at filled
    exact filled.1

theorem pure {a : α} : Alike (Pure.pure a) (Pure.pure a) s :=
  ⟨rfl, .refl s⟩

theorem throw {fault : Fault} (other : fault ≠ .tooDeep) :
    Alike (MonadExcept.throw fault : Build α) (MonadExcept.throw fault) s :=
  ⟨rfl, .refl s, other⟩

/-- Steps that move to one session first. -/
theorem after {rest rest' : Build α} (moved : s.Fills t) (alike : Alike rest rest' t)
    (same : step s = rest t) (same' : step' s = rest' t) : Alike step step' s := by
  obtain ⟨equal, reached⟩ := alike
  unfold Alike
  rw [same, same']
  refine ⟨equal, ?_⟩
  cases outcome : rest t with
  | ok a u =>
    rw [outcome] at reached
    exact moved.trans reached
  | error fault u =>
    rw [outcome] at reached
    exact ⟨moved.trans reached.1, reached.2⟩

theorem bind (first : Alike step step' s)
    (second : ∀ a t, s.Fills t → Alike (next a) (next' a) t) :
    Alike (step >>= next) (step' >>= next') s := by
  obtain ⟨equal, reached⟩ := first
  cases outcome : step s with
  | ok a t =>
    rw [outcome] at equal reached
    refine after reached (second a t reached) ?_ ?_
    · change EStateM.bind step next s = _
      simp [EStateM.bind, outcome]
    · change EStateM.bind step' next' s = _
      simp [EStateM.bind, ← equal]
  | error fault t =>
    rw [outcome] at equal reached
    have failed : (step >>= next) s = .error fault t := by
      change EStateM.bind step next s = _
      simp [EStateM.bind, outcome]
    have failed' : (step' >>= next') s = .error fault t := by
      change EStateM.bind step' next' s = _
      simp [EStateM.bind, ← equal]
    unfold Alike
    rw [failed, failed']
    exact ⟨rfl, reached⟩

theorem lift_bind {result result' : Except Fault α} (same : result' = result)
    (ends : result ≠ .error .tooDeep)
    (rest : ∀ a, result = .ok a → Alike (next a) (next' a) s) :
    Alike (Build.lift result >>= next) (Build.lift result' >>= next') s := by
  subst same
  cases result' with
  | ok a => exact rest a rfl
  | error fault => exact ⟨rfl, .refl s, fun deep => ends (by rw [deep])⟩

theorem store {next next' : Store → Build β} (rest : Alike (next s.store) (next' s.store) s) :
    Alike (Build.store >>= next) (Build.store >>= next') s :=
  rest

theorem modifyStore {f : Store → Store} {next next' : Unit → Build β}
    (same : (f s.store).refNames = s.store.refNames) (kept : s.store.names ⊆ (f s.store).names)
    (rest : Alike (next ()) (next' ()) { s with store := f s.store }) :
    Alike (Build.modifyStore f >>= next) (Build.modifyStore f >>= next') s :=
  after (.of_refNames _ same kept s.log) rest rfl rfl

theorem report {level : Level} {text : String} {next next' : Unit → Build β}
    (rest : ∀ t, s.Fills t → Alike (next ()) (next' ()) t) :
    Alike (Build.report level text >>= next) (Build.report level text >>= next') s :=
  have moved : s.Fills { s with log := s.log.push ⟨level, text⟩ } :=
    .of_refNames _ rfl (List.Subset.refl _) _
  after moved (rest _ moved) rfl rfl

theorem mapM {f f' : α → Build β} {items : List α}
    (each : ∀ item ∈ items, ∀ t, s.Fills t → Alike (f item) (f' item) t) :
    Alike (items.mapM f) (items.mapM f') s := by
  induction items generalizing s with
  | nil => exact pure
  | cons item rest ih =>
    rw [List.mapM_cons, List.mapM_cons]
    apply bind (each item List.mem_cons_self s (.refl s))
    intro b t reached
    apply bind
    · exact ih fun other member u later =>
        each other (List.mem_cons_of_mem _ member) u (reached.trans later)
    · exact fun _ _ _ => pure

end Alike

end Build

namespace Builder

open Schema Build

def Agree (expr expr' : Typer) (s : Session) (node : Node) : Prop :=
  ∀ scope t, s.Fills t → Alike (expr node scope) (expr' node scope) t

theorem Agree.later {expr expr' : Typer} {s t : Session} {node : Node}
    (agree : Agree expr expr' s node) (later : s.Fills t) : Agree expr expr' t node :=
  fun scope u further => agree scope u (later.trans further)

section Typers

variable {document : Json} {brandIds : Bool} {fuel fuel' : Nat} {expr expr' : Typer} {s : Session}
  {scope : String}

theorem brandExpr_alike {key owner : String} {node : Node} {type : TypeExpr} :
    Alike (brandExpr ⟨document, brandIds, fuel⟩ key node type owner)
      (brandExpr ⟨document, brandIds, fuel'⟩ key node type owner) s := by
  unfold brandExpr
  split
  · simp only []
    split
    · exact .pure
    · split
      · exact .pure
      · apply Alike.store
        split
        · exact .report fun _ _ => .pure
        · split
          · exact .modifyStore rfl (Store.names_subset_register _) .pure
          · exact .pure
  · exact .pure

theorem fieldsOf_alike {object : Fields Node} {owner : String}
    (parts : ∀ p ∈ object.properties, Agree expr expr' s p.2) :
    Alike (fieldsOf ⟨document, brandIds, fuel⟩ expr object owner)
      (fieldsOf ⟨document, brandIds, fuel'⟩ expr' object owner) s := by
  unfold fieldsOf
  refine Alike.bind (Alike.mapM ?_) fun _ _ _ => .pure
  rintro ⟨key, node⟩ member t reached
  cases key with
  | text key =>
    apply Alike.bind (parts _ member _ t reached)
    intro type u _
    cases type with
    | none => exact .report fun _ _ => .pure
    | some type => exact .bind brandExpr_alike fun _ _ _ => .pure
  | _ => exact .throw (by simp)

/-- What a declaration is built from is the same, and so are the expressions that it needs. -/
structure Ready (document : Json) (brandIds : Bool) (fuel fuel' : Nat) (expr expr' : Typer)
    (s : Session) (node : Node) : Prop where
  same : merged ⟨document, brandIds, fuel'⟩ node = merged ⟨document, brandIds, fuel⟩ node
  ends : merged ⟨document, brandIds, fuel⟩ node ≠ .error .tooDeep
  whole : ∀ {result}, merged ⟨document, brandIds, fuel⟩ node = .ok result → Agree expr expr' s result
  parts : ∀ {result}, merged ⟨document, brandIds, fuel⟩ node = .ok result →
    ∀ part ∈ result.shape.parts, Agree expr expr' s part

theorem update_kept {store : Store} {name : String} {f : Declaration → Declaration}
    (keeps : ∀ d, (f d).name = d.name) : store.names ⊆ (store.update name f).names :=
  (Store.names_update keeps).symm ▸ List.Subset.refl _

theorem fillFrom_alike {name : String} {node : Node} {preferStruct : Bool}
    (whole : Agree expr expr' s node)
    (parts : ∀ part ∈ node.shape.parts, Agree expr expr' s part) :
    Alike (fillFrom ⟨document, brandIds, fuel⟩ expr name node preferStruct)
      (fillFrom ⟨document, brandIds, fuel'⟩ expr' name node preferStruct) s := by
  have updated {f : Declaration → Declaration} (keeps : ∀ d, (f d).name = d.name) (t : Session) :
      t.Fills { t with store := t.store.update name f } :=
    .of_refNames (t.store.update name f) rfl (update_kept keeps) t.log
  have started {f g : Declaration → Declaration} (keeps : ∀ d, (f d).name = d.name)
      (keeps' : ∀ d, (g d).name = d.name) :
      s.Fills { s with store := (s.store.update name f).update name g } :=
    (updated keeps s).trans (updated keeps' _)
  have finish (type : TypeExpr) (t : Session) :
      Alike (Build.modifyStore (·.update name fun d => { d with type := some type }))
        (Build.modifyStore (·.update name fun d => { d with type := some type })) t :=
    ⟨rfl, updated (fun _ => by rfl) t⟩
  unfold fillFrom
  apply Alike.modifyStore rfl (update_kept fun _ => by rfl)
  split
  · rename_i properties required additional shape _
    apply Alike.modifyStore rfl (update_kept fun _ => by rfl)
    apply Alike.bind
    · refine fieldsOf_alike fun p member =>
        (parts p.2 ?_).later (started (fun _ => by rfl) fun _ => by rfl)
      rw [shape]
      exact List.mem_append_left _ (List.mem_map_of_mem member)
    · exact fun fields t _ => finish (.struct fields) t
  · apply Alike.modifyStore rfl (update_kept fun _ => by rfl)
    apply Alike.bind (whole name _ (started (fun _ => by rfl) fun _ => by rfl))
    intro type t _
    cases type with
    | some type => exact finish type t
    | none => exact .report fun t _ => finish .json t

/-- What a fill does once it is noted. -/
theorem filled_alike (name : String) {node : Node} (preferStruct : Bool)
    (ready : Ready document brandIds fuel fuel' expr expr' s node) :
    Alike
      (Build.lift (merged ⟨document, brandIds, fuel⟩ node) >>= fun result =>
        fillFrom ⟨document, brandIds, fuel⟩ expr name result preferStruct)
      (Build.lift (merged ⟨document, brandIds, fuel'⟩ node) >>= fun result =>
        fillFrom ⟨document, brandIds, fuel'⟩ expr' name result preferStruct) s :=
  .lift_bind ready.same ready.ends fun _ done =>
    fillFrom_alike (ready.whole done) (ready.parts done)

theorem declareTarget_alike {target : Pointer.Target}
    (unknown : target.pointer ∉ s.store.refNames.map (·.1))
    (ready : ∀ node t, normalize target.fragment target.pointer = .ok node → s.Fills t →
      target.pointer ∈ t.store.refNames.map (·.1) →
      Ready document brandIds fuel fuel' expr expr' t node) :
    Alike (declareTarget ⟨document, brandIds, fuel⟩ expr target)
      (declareTarget ⟨document, brandIds, fuel'⟩ expr' target) s := by
  cases normal : normalize target.fragment target.pointer with
  | error fault =>
    have moved : s.Fills { s.registered target with fills := s.fills ++ [] } :=
      .registered s target unknown (by simp)
    rw [List.append_nil] at moved
    have other : fault ≠ .tooDeep := by
      rintro rfl
      cases normalize_error normal
    refine .after moved (.throw other) ?_ ?_ <;>
      · rw [declareTarget_apply, normal]
        rfl
  | ok node =>
    have moved := Session.Fills.registered s target unknown (List.Sublist.refl _)
    have body := filled_alike (s.store.uniqueName target.name) false
      (ready node _ normal moved (by simp [Session.registered]))
    refine .after moved (body.bind fun _ _ _ => .pure (a := s.store.uniqueName target.name)) ?_ ?_ <;>
      · rw [declareTarget_apply, normal]
        rfl

/-- A reference is filled when it is met first; from then on it is known. -/
theorem refName_alike {pointer : Json}
    (ready : ∀ p node t, pointer = .str p → lookup document pointer = .ok (some node) →
      s.store.refNames.lookup p = none → s.Fills t → p ∈ t.store.refNames.map (·.1) →
      Ready document brandIds fuel fuel' expr expr' t node) :
    Alike (refName ⟨document, brandIds, fuel⟩ expr pointer)
      (refName ⟨document, brandIds, fuel'⟩ expr' pointer) s := by
  unfold refName
  refine .lift_bind rfl (toKey_ends pointer) fun key keyed => .store ?_
  cases known : known? s.store key with
  | some name => exact .pure
  | none =>
    refine .lift_bind rfl (fun failed => resolve_error failed rfl) fun target resolved => ?_
    cases target with
    | none => exact .pure
    | some target =>
      obtain rfl := resolve_pointer resolved
      cases keyed
      refine .bind (declareTarget_alike (lookup_eq_none known) ?_) fun _ _ _ => .pure
      intro node t normal moved met
      exact ready target.pointer node t rfl (lookup_eq_some.mpr ⟨target, resolved, normal⟩) known
        moved met

theorem itemsExpr_alike {items : Items Node} (parts : ∀ part ∈ items.parts, Agree expr expr' s part) :
    Alike (itemsExpr expr scope items) (itemsExpr expr' scope items) s := by
  cases items with
  | anything | nothing => exact .pure
  | each item => exact parts item (List.mem_singleton_self item) scope s (.refl s)

theorem unionExpr_alike {members : List Node} (parts : ∀ part ∈ members, Agree expr expr' s part) :
    Alike (unionExpr expr scope members) (unionExpr expr' scope members) s := by
  apply Alike.bind
  · exact .mapM fun member listed t reached => parts member listed scope t reached
  · intro types t _
    split <;> exact .pure

theorem recordExpr_alike {additional : Option Node}
    (parts : ∀ part ∈ additional.toList, Agree expr expr' s part) :
    Alike (recordExpr expr scope additional) (recordExpr expr' scope additional) s := by
  unfold recordExpr
  cases additional with
  | none => exact .pure
  | some item =>
    exact .bind (parts item (by simp) scope s (.refl s)) fun _ _ _ => .pure

theorem listExpr_alike {item : TypeExpr} {minItems maxItems : Option Json} :
    Alike (listExpr item minItems maxItems) (listExpr item minItems maxItems) s := by
  unfold listExpr
  cases minItems with
  | none => exact .pure
  | some bound =>
    refine .lift_bind rfl ?_ fun _ _ => .pure
    unfold atLeastOne
    split <;> simp

theorem tupleExpr_alike {lead : List Node} {rest : Items Node}
    (parts : ∀ part ∈ lead ++ rest.parts, Agree expr expr' s part) :
    Alike (tupleExpr expr scope lead rest) (tupleExpr expr' scope lead rest) s := by
  apply Alike.bind
  · refine .mapM fun item listed t reached => ?_
    exact .bind (parts item (List.mem_append_left _ listed) scope t reached) fun _ _ _ => .pure
  · intro args t reached
    split
    · exact .pure
    · refine .bind (itemsExpr_alike fun part member => ?_) fun _ _ _ => .pure
      exact (parts part (List.mem_append_right _ member)).later reached

theorem shapeExpr_alike {node : Node}
    (refs : ∀ pointer, node.shape = .ref pointer →
      Alike (refName ⟨document, brandIds, fuel⟩ expr pointer)
        (refName ⟨document, brandIds, fuel'⟩ expr' pointer) s)
    (flat : node.merges = true →
      flattenAllOf (lookup document) fuel' node = flattenAllOf (lookup document) fuel node ∧
      flattenAllOf (lookup document) fuel node ≠ .error .tooDeep ∧
      ∀ result, flattenAllOf (lookup document) fuel node = .ok result → Agree expr expr' s result)
    (parts : node.merges = false → ∀ part ∈ node.shape.parts, Agree expr expr' s part) :
    Alike (shapeExpr ⟨document, brandIds, fuel⟩ expr node scope)
      (shapeExpr ⟨document, brandIds, fuel'⟩ expr' node scope) s := by
  have plain (other : ∀ members, node.shape ≠ .allOf members) :
      ∀ part ∈ node.shape.parts, Agree expr expr' s part :=
    parts (by simp [Node.merges, isAllOf_eq_false.mpr other])
  unfold shapeExpr
  split
  case h_2 pointer shape => exact .bind (refs pointer shape) fun _ _ _ => .pure
  case h_6 members shape =>
    have isAllOf : node.isAllOf = true := isAllOf_eq_true.mpr ⟨members, shape⟩
    cases wraps : node.singleRef? with
    | some member =>
      have inner : member ∈ node.shape.parts := by
        simp [(Node.singleRef?_eq_some.mp wraps).1, Shape.parts]
      exact parts (by simp [Node.merges, wraps]) member inner scope s (.refl s)
    | none =>
      have merging : node.merges = true := by simp [Node.merges, isAllOf, wraps]
      obtain ⟨same, ends, whole⟩ := flat merging
      exact .lift_bind same ends fun result done => whole result done scope s (.refl s)
  case h_7 members shape =>
    exact unionExpr_alike fun part member => plain (by simp [shape]) part (by rwa [shape])
  case h_8 fields shape =>
    have inner := plain (by simp [shape])
    rw [shape] at inner
    split
    · refine .bind (fieldsOf_alike fun p member => ?_) fun _ _ _ => .pure
      exact inner p.2 (List.mem_append_left _ (List.mem_map_of_mem member))
    · exact recordExpr_alike fun part member => inner part (List.mem_append_right _ member)
  case h_9 items minItems maxItems shape =>
    refine .bind (itemsExpr_alike fun part member => plain (by simp [shape]) part (by rwa [shape])) ?_
    intro item t _
    cases item with
    | none => exact .pure
    | some item => exact listExpr_alike
  case h_10 lead rest shape =>
    exact tupleExpr_alike fun part member => plain (by simp [shape]) part (by rwa [shape])
  all_goals exact .pure

end Typers

section Depth

variable {document : Json} {brandIds : Bool} {texts : List String} {fuel fuel' top : Nat}
  {s t : Session} {node : Node} {p : String}

def unfilled (texts : List String) (store : Store) : Nat :=
  (texts.filter fun p => (store.refNames.lookup p).isNone).length

theorem unknown_before (moved : s.Fills t) (unknown : (t.store.refNames.lookup p).isNone = true) :
    (s.store.refNames.lookup p).isNone = true := by
  obtain ⟨registered, filled, ahead⟩ := moved
  rw [ahead.refNames, List.lookup_append, Option.isNone_iff_eq_none, Option.or_eq_none_iff] at unknown
  exact Option.isNone_iff_eq_none.mpr unknown.1

theorem unfilled_le (texts : List String) (moved : s.Fills t) :
    unfilled texts t.store ≤ unfilled texts s.store :=
  (List.monotone_filter_right texts fun _ => unknown_before moved).length_le

theorem unfilled_lt (moved : s.Fills t) (member : p ∈ texts)
    (unknown : s.store.refNames.lookup p = none) (known : p ∈ t.store.refNames.map (·.1)) :
    unfilled texts t.store < unfilled texts s.store := by
  refine length_filter_lt (fun _ => unknown_before moved) member (by simp [unknown]) ?_
  cases found : t.store.refNames.lookup p with
  | none => exact absurd known (lookup_eq_none found)
  | some name => rfl

theorem ready_of_unfolds {expr expr' : Typer} (le : fuel ≤ fuel')
    (unfolds : Unfolds document texts fuel top node)
    (agree : ∀ other, Unfolds document texts fuel top other → Agree expr expr' s other) :
    Ready document brandIds fuel fuel' expr expr' s node where
  same := by
    cases merging : node.merges with
    | false => rw [merged_of_plain merging, merged_of_plain merging]
    | true =>
      rw [merged_of_merges merging, merged_of_merges merging]
      exact flattenAllOf_stable le (unfolds.flattened merging).1
  ends := unfolds.merged.1
  whole done := agree _ (unfolds.merged.2 _ done).1
  parts done part member := agree part ((unfolds.merged.2 _ done).2 part member)

section

variable (targets : ∀ p ∈ texts, ∀ node, lookup document (.str p) = .ok (some node) →
  Unfolds document texts fuel top node) (le : fuel ≤ fuel')
include targets le

/-- Filling a reference leaves one less to be filled, which pays for the tree of its target. -/
theorem refName_alike_of_unfolds {expr expr' : Typer} {pointer : Json} {budget : Nat}
    (listed : ∀ p, pointer = .str p → p ∈ texts)
    (bound : unfilled texts s.store * (top + 1) ≤ budget + 1)
    (agree : ∀ t other, unfilled texts t.store * (top + 1) + top ≤ budget →
      Unfolds document texts fuel top other → Agree expr expr' t other) :
    Alike (refName ⟨document, brandIds, fuel⟩ expr pointer)
      (refName ⟨document, brandIds, fuel'⟩ expr' pointer) s := by
  refine refName_alike fun p node t same found unknown moved known => ?_
  subst same
  have fewer := unfilled_lt moved (listed p rfl) unknown known
  have scaled := Nat.mul_le_mul_right (top + 1) fewer
  rw [Nat.succ_mul] at scaled
  exact ready_of_unfolds le (targets p (listed p rfl) node found)
    fun other unfolds => agree t other (by omega) unfolds

/-- A depth that covers the tree of the node and the trees of all references that may still be
filled is enough. -/
theorem expr_alike {budget depth depth' weight : Nat} {scope : String}
    (unfolds : Unfolds document texts fuel weight node)
    (bound : unfilled texts s.store * (top + 1) + weight ≤ budget)
    (enough : budget ≤ depth) (enough' : budget ≤ depth') :
    Alike (expr ⟨document, brandIds, fuel⟩ depth node scope)
      (expr ⟨document, brandIds, fuel'⟩ depth' node scope) s := by
  induction budget generalizing depth depth' weight node scope s with
  | zero =>
    have := unfolds.pos
    omega
  | succ budget ih =>
    have positive := unfolds.pos
    obtain ⟨depth, rfl⟩ : ∃ d, depth = d + 1 := ⟨depth - 1, by omega⟩
    obtain ⟨depth', rfl⟩ : ∃ d, depth' = d + 1 := ⟨depth' - 1, by omega⟩
    have agree {t : Session} {other : Node} {weight : Nat}
        (bound : unfilled texts t.store * (top + 1) + weight ≤ budget)
        (unfolds : Unfolds document texts fuel weight other) :
        Agree (expr ⟨document, brandIds, fuel⟩ depth) (expr ⟨document, brandIds, fuel'⟩ depth')
          t other := by
      intro scope u moved
      have fewer := Nat.mul_le_mul_right (top + 1) (unfilled_le texts moved)
      exact ih unfolds (by omega) (by omega) (by omega)
    refine .bind (shapeExpr_alike ?_ ?_ ?_) fun _ _ _ => .pure
    · intro pointer shape
      exact refName_alike_of_unfolds targets le
        (fun p same => unfolds.mem_texts (same ▸ shape)) (by omega)
        fun t other bound unfolds => agree bound unfolds
    · intro merging
      obtain ⟨ends, flat⟩ := unfolds.flattened merging
      exact ⟨flattenAllOf_stable le ends, ends,
        fun result done => agree (by omega) (flat result done)⟩
    · exact fun plain part member => agree (by omega) (unfolds.part plain member)

theorem add_alike {name : String} {preferStruct : Bool}
    (unfolds : Unfolds document texts fuel top node)
    (enough : texts.length * (top + 1) + top ≤ fuel) :
    Alike (add ⟨document, brandIds, fuel⟩ name node preferStruct)
      (add ⟨document, brandIds, fuel'⟩ name node preferStruct) s := by
  have few (t : Session) : unfilled texts t.store * (top + 1) ≤ texts.length * (top + 1) :=
    Nat.mul_le_mul_right _ (List.length_filter_le _ _)
  have agree (t : Session) (other : Node) (unfolds : Unfolds document texts fuel top other) :
      Agree (expr ⟨document, brandIds, fuel⟩ fuel) (expr ⟨document, brandIds, fuel'⟩ fuel') t other := by
    intro scope u _
    have := few u
    exact expr_alike targets le unfolds (Nat.le_refl _) (by omega) (by omega)
  unfold add
  simp only []
  split
  · rename_i pointer refers _
    refine .bind ?_ ?_
    · have := few s
      exact refName_alike_of_unfolds targets le (fun p same => unfolds.asRef?_mem (same ▸ refers))
        (Nat.le_succ _) fun t other _ => agree t other
    · intro target t _
      cases target with
      | some target => exact .pure
      | none =>
        exact .report fun u _ => .store (.modifyStore rfl (Store.names_subset_register _) .pure)
  · let declared := s.store.uniqueName name
    let noted : Session :=
      { s with store := s.store.reserve declared, fills := s.fills ++ [declared] }
    have ready : Ready document brandIds fuel fuel' (expr ⟨document, brandIds, fuel⟩ fuel)
        (expr ⟨document, brandIds, fuel'⟩ fuel') noted node :=
      ready_of_unfolds le unfolds (agree noted)
    exact .after (.own s name)
      ((filled_alike declared preferStruct ready).bind fun _ _ _ => .pure (a := declared)) rfl rfl

end

/-- The references and the height of a node and its document bound every tree. -/
theorem unfolds_of_acyclic (acyclic : Acyclic document) (node : Node) :
    let size := node.subnodes.length + document.size + 2
    let texts := node.pointers ++ document.references
    (∀ p ∈ texts, ∀ target, lookup document (.str p) = .ok (some target) →
      Unfolds document texts (exprBound node document) (size * size) target) ∧
    Unfolds document texts (exprBound node document) (size * size) node ∧
    texts.length * (size * size + 1) + size * size ≤ exprBound node document := by
  intro size texts
  have few : texts.length ≤ node.subnodes.length + document.size := by
    rw [List.length_append]
    exact Nat.add_le_add node.length_pointers_le (Json.length_references_le document)
  have closed : Closed (lookup document) texts (node.subnodes.length + document.size) :=
    lookup_closed (List.subset_append_right _ _) (Nat.le_add_left _ _)
  have unfolds {other : Node} {depth : Nat} (within : other.Within depth)
      (low : depth ≤ node.subnodes.length + document.size) (refers : other.pointers ⊆ texts) :
      Unfolds document texts (exprBound node document) (size * size) other := by
    refine Lighter.unfolds acyclic closed ?_ ⟨document.size + 1, depth, within, low, refers,
      fun q _ => Nat.lt_succ_of_le (card_reach_le q), ?_⟩
    · simp only [exprBound]
      nlinarith
    · simp only [size]
      nlinarith
  refine ⟨fun p member target found => ?_, ?_, ?_⟩
  · obtain ⟨within, refers⟩ := lookup_bounds found
    exact unfolds within (Nat.le_add_left _ _)
      (List.Subset.trans refers (List.subset_append_right _ _))
  · exact unfolds node.within_length_subnodes (Nat.le_add_right _ _) (List.subset_append_left _ _)
  · simp only [exprBound, size]
    nlinarith

end Depth

/-- Where no reference leads back to itself, every depth from the bound on is enough. -/
theorem addSchema_alike {document : Json} (acyclic : Acyclic document) (brandIds : Bool)
    (name : String) (fragment : Json) (preferStruct : Bool) (s : Session) (least : Nat) :
    Alike (addSchema brandIds name fragment document preferStruct) (do
      let node ← Build.lift (normalize fragment ("#/" ++ name))
      add ⟨document, brandIds, max (exprBound node document) least⟩ name node preferStruct) s := by
  refine .lift_bind rfl (fun failed => nomatch normalize_error failed) fun node _ => ?_
  obtain ⟨targets, unfolds, enough⟩ := unfolds_of_acyclic acyclic node
  exact add_alike targets (Nat.le_max_left _ _) unfolds enough

/-- If no reference leads back to itself, adding a schema ends in every session: no expression is
cut off by the bound on the depth, every greater bound gives the same outcome, and the declaration
of each reference is filled at most once, those that were there before not at all. The fragment is
led to by nothing, so it cannot close a cycle. -/
theorem addSchema_terminates {document : Json} (acyclic : Acyclic document) (brandIds : Bool)
    (name : String) (fragment : Json) (preferStruct : Bool) (s : Session) :
    (∀ t, addSchema brandIds name fragment document preferStruct s ≠ .error .tooDeep t) ∧
      (∀ node bound, normalize fragment ("#/" ++ name) = .ok node → exprBound node document ≤ bound →
        add ⟨document, brandIds, bound⟩ name node preferStruct s =
          addSchema brandIds name fragment document preferStruct s) ∧
      let after := (addSchema brandIds name fragment document preferStruct).reached s
      ∃ registered filled, s.Ahead after registered filled ∧
        ∀ entry ∈ after.store.refNames, filled.count entry.2 ≤ 1 := by
  have alike := addSchema_alike acyclic brandIds name fragment preferStruct s
  refine ⟨(alike 0).ends, fun node bound normal le => ?_, ?_⟩
  · rw [(alike bound).1, normal]
    change _ = add ⟨document, brandIds, max (exprBound node document) bound⟩ name node preferStruct s
    rw [Nat.max_eq_right le]
  · obtain ⟨registered, filled, ahead⟩ := (alike 0).fills
    exact ⟨registered, filled, ahead, fun entry _ => List.nodup_iff_count_le_one.mp ahead.once entry.2⟩

/-- A list whose cells refer to each other through a property and an `allOf`. -/
def cells : Json :=
  let ref (name : String) : Json := .obj [("$ref", .str ("#/$defs/" ++ name))]
  let object (properties : Members) : Json :=
    .obj [("type", .str "object"), ("properties", .obj properties)]
  .obj [("$defs", .obj [
    ("Link", object [("next", ref "Cell"), ("all", .obj [("type", .str "array"), ("items", ref "Link")])]),
    ("Cell", .obj [("allOf", .arr [ref "Link", object [("id", .obj [("type", .str "string")])]])]),
    ("Head", ref "Cell")])]

theorem addSchema_terminates_cells :
    let fragment : Json := .obj [("allOf", .arr [.obj [("$ref", .str "#/$defs/Head")],
      .obj [("title", .str "List")]])]
    let after := (addSchema true "List" fragment cells).reached {}
    Acyclic cells ∧ (∀ t, addSchema true "List" fragment cells false {} ≠ .error .tooDeep t) ∧
      after.store.refNames = [("#/$defs/Cell", "Cell"), ("#/$defs/Link", "Link")] ∧
      after.fills = ["List", "Cell", "Link"] ∧
      ∃ registered filled, Session.Ahead {} after registered filled ∧
        ∀ entry ∈ after.store.refNames, filled.count entry.2 ≤ 1 := by
  have acyclic : Acyclic cells := acyclic_of_rank
    (fun p => if p = "#/$defs/Head" then 2 else if p = "#/$defs/Cell" then 1 else 0)
    (by decide +kernel)
  obtain ⟨ends, _, fills⟩ := addSchema_terminates acyclic true "List" _ false {}
  exact ⟨acyclic, ends, by decide +kernel, by decide +kernel, fills⟩

end Builder

end TypedClient
