import TypedClient.Proofs.Builder.Resolution
import TypedClient.Proofs.Store.Order

/-! Which properties are dropped. It depends on the document alone: neither what has been added
before, nor in which order, nor what is still under construction makes a property appear or go. -/
namespace TypedClient.Builder

open Schema Build Store

variable {document : Json} {s : Session}

/-- A typer that may stop before a node, where it leaves the session as it is. -/
def Stops (typer expr : Typer) : Prop :=
  ∀ node scope s, typer node scope s = expr node scope s ∨ ∃ fault, typer node scope s = .error fault s

theorem Stops.tells {typer expr : Typer} (stops : Stops typer expr) (tells : Tells document expr) :
    Tells document typer := by
  intro node scope s resolves
  rcases stops node scope s with same | ⟨fault, stopped⟩
  · exact .moved same (tells node scope s resolves)
  · unfold Ends
    rw [stopped]
    exact resolves

/-- The sessions that additions over one document lead to. Those in the middle of an addition are
among them: each is where a step stops before one of its parts. -/
inductive Reached (document : Json) : Session → Prop
  | fresh : Reached document {}
  | added {s : Session} (brandIds : Bool) (name : String) (fragment : Json) (preferStruct : Bool)
      (before : Reached document s) :
      Reached document ((addSchema brandIds name fragment document preferStruct).reached s)
  | marked {s : Session} (name : String) (before : Reached document s) :
      Reached document ((Generator.markAsError name).reached s)
  | reserved {s : Session} (name : String) (before : Reached document s) :
      Reached document { s with store := s.store.reserve (s.store.uniqueName name) }
  | filling {s : Session} {brandIds : Bool} {depth fuel : Nat} {typer : Typer} (name : String)
      (node : Node) (preferStruct : Bool) (stops : Stops typer (expr ⟨document, brandIds, depth⟩ fuel))
      (before : Reached document s) :
      Reached document ((fill ⟨document, brandIds, depth⟩ typer name node preferStruct).reached s)
  | naming {s : Session} {brandIds : Bool} {depth fuel : Nat} {typer : Typer} (pointer : Json)
      (stops : Stops typer (expr ⟨document, brandIds, depth⟩ fuel)) (before : Reached document s) :
      Reached document ((refName ⟨document, brandIds, depth⟩ typer pointer).reached s)
  | shaping {s : Session} {brandIds : Bool} {depth fuel : Nat} {typer : Typer} (node : Node)
      (scope : String) (stops : Stops typer (expr ⟨document, brandIds, depth⟩ fuel))
      (before : Reached document s) :
      Reached document ((shapeExpr ⟨document, brandIds, depth⟩ typer node scope).reached s)

/-- Wherever additions have come, a known reference leads into the document. -/
theorem Reached.resolves (reached : Reached document s) : Resolves document s.store := by
  have tells {brandIds : Bool} {depth fuel : Nat} {typer : Typer}
      (stops : Stops typer (expr ⟨document, brandIds, depth⟩ fuel)) : Tells document typer :=
    stops.tells (expr_tells ⟨document, brandIds, depth⟩ fuel)
  induction reached with
  | fresh => simp [Resolves]
  | added brandIds name fragment preferStruct _ ih =>
    exact (addSchema_resolves brandIds name fragment document preferStruct _ ih).reached
  | @marked s name _ ih =>
    obtain ⟨t, done, store⟩ := markAsError_ok name s
    have left : (Generator.markAsError name).reached s = t := by rw [reached, done]
    rwa [left, store, Resolves, refNames_marked]
  | reserved name _ ih => exact ih
  | filling name node preferStruct stops _ ih => exact (fill_resolves (tells stops) _ ih).reached
  | @naming s brandIds depth _ _ pointer stops _ ih =>
    exact (refName_tells ⟨document, brandIds, depth⟩ (tells stops) ih).reached
  | @shaping s brandIds depth _ _ node scope stops _ ih =>
    exact (shapeExpr_tells ⟨document, brandIds, depth⟩ (tells stops) ih).reached

/-- Wherever additions over a document have come, an expression that is built is missing exactly if
the node leads nowhere in the document, and the fields of an object are its properties, in order,
without those that lead nowhere. -/
theorem reached_drops_iff (env : Env) (s : Session) (reached : Reached env.document s) (fuel : Nat) :
    (∀ node scope type t, expr env fuel node scope s = .ok type t →
      (type = none ↔ Unresolvable env.document node)) ∧
    ∀ object owner fields t, fieldsOf env (expr env fuel) object owner s = .ok fields t →
      fields.map (fun field => Key.text field.name) =
        (object.properties.filter (resolvable env.document ·.2)).map (·.1) := by
  have tells := expr_tells env fuel
  have resolves := reached.resolves
  constructor
  · intro node scope type t done
    exact ((tells node scope s resolves).of_ok done).2
  · intro object owner fields t done
    exact ((fieldsOf_tells tells resolves).of_ok done).2

def treeEnv : Env where
  document := .ofMembers [("$defs", .ofMembers [("Tree", .ofMembers [("type", "object"),
    ("properties", .ofMembers [("left", .ofMembers [("$ref", "#/$defs/Tree")])])])])]
  brandIds := false
  fuel := 9

/-- The tree is known, and the first of its properties is about to be built. -/
def treeStarted : Session :=
  (refName treeEnv (expr treeEnv 0) "#/$defs/Tree").reached {}

def definition (name : String) : Node :=
  { shape := .ref (.str ("#/$defs/" ++ name)) }

def lostList : Node :=
  { shape := .array (.each (definition "Lost")) none none }

/-- What leads nowhere, alone and inside of others, beside the tree. -/
def treeParts : Fields Node :=
  let tree := definition "Tree"
  let lost := definition "Lost"
  { explicit := true
    properties := [("tree", tree), ("lost", lost), ("list", lostList),
      ("alone", { shape := .allOf [lost] }), ("either", { shape := .anyOf [lost, lost] }),
      ("some", { shape := .anyOf [lost, tree] }), ("pair", { shape := .tuple [lost, lost] .nothing }),
      ("record", { shape := .object { additional := some lost } })] }

theorem reached_drops_iff_treeStarted :
    treeStarted.store.refNames = [("#/$defs/Tree", "Tree")] ∧
    (treeStarted.store.find? "Tree").map (·.fields.length) = some 0 ∧
    (∃ t, expr treeEnv 9 lostList "Lost" treeStarted = .ok none t) ∧
    Unresolvable treeEnv.document lostList ∧
    (∃ fields t, fieldsOf treeEnv (expr treeEnv 9) treeParts "Parts" treeStarted = .ok fields t) ∧
    (treeParts.properties.filter (resolvable treeEnv.document ·.2)).map (·.1) =
      ["tree", "some", "pair", "record"].map Key.text := by
  have reached : Reached treeEnv.document treeStarted := by
    have stops : Stops (expr treeEnv 0) (expr treeEnv 9) := fun _ _ _ => .inr ⟨.tooDeep, rfl⟩
    exact .naming "#/$defs/Tree" stops .fresh
  have known : treeStarted.store.refNames = [("#/$defs/Tree", "Tree")] := by
    decide +kernel
  have unfinished : (treeStarted.store.find? "Tree").map (·.fields.length) = some 0 := by
    decide +kernel
  have typed : succeeds (expr treeEnv 9 lostList "Lost") treeStarted (fun type _ => type.isNone) =
      true := by
    decide +kernel
  have filled : succeeds (fieldsOf treeEnv (expr treeEnv 9) treeParts "Parts") treeStarted
      (fun fields _ => fields.map (·.name) = ["tree", "some", "pair", "record"]) = true := by
    decide +kernel
  obtain ⟨type, t, gone, missing⟩ := exists_of_succeeds typed
  obtain rfl := Option.isNone_iff_eq_none.mp missing
  obtain ⟨fields, u, built, names⟩ := exists_of_succeeds filled
  obtain ⟨drops, keeps⟩ := reached_drops_iff treeEnv treeStarted reached 9
  refine ⟨known, unfinished, ⟨t, gone⟩, (drops _ _ _ _ gone).mp rfl, ⟨fields, u, built⟩, ?_⟩
  rw [← keeps _ _ _ _ built, ← of_decide_eq_true names, List.map_map]
  rfl

end TypedClient.Builder
