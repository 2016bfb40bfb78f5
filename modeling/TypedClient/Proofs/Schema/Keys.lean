import TypedClient.Proofs.Schema.Leaves

/-! Values whose objects have no key twice. Their parts are such values again, and so are the
objects of their normal forms. -/
namespace TypedClient

namespace Json

mutual

def uniqueKeys : Json → Bool
  | .arr items => uniqueKeysOfItems items
  | .obj members =>
    (members.map (·.1)).Pairwise (fun a b => a.same b = false) && uniqueKeysOfMembers members
  | _ => true

def uniqueKeysOfItems : List Json → Bool
  | [] => true
  | v :: rest => v.uniqueKeys && uniqueKeysOfItems rest

def uniqueKeysOfMembers : List (Key × Json) → Bool
  | [] => true
  | (_, v) :: rest => v.uniqueKeys && uniqueKeysOfMembers rest

end

theorem uniqueKeys_arr {items : List Json} :
    (arr items).uniqueKeys = true ↔ ∀ v ∈ items, v.uniqueKeys = true := by
  rw [uniqueKeys]
  induction items with
  | nil => simp [uniqueKeysOfItems]
  | cons v rest ih => simp [uniqueKeysOfItems, ih]

theorem uniqueKeys_obj {members : Members} : (obj members).uniqueKeys = true ↔
    (members.map (·.1)).Pairwise (fun a b => a.same b = false) ∧
      ∀ m ∈ members, m.2.uniqueKeys = true := by
  have values : uniqueKeysOfMembers members = true ↔ ∀ m ∈ members, m.2.uniqueKeys = true := by
    induction members with
    | nil => simp [uniqueKeysOfMembers]
    | cons m rest ih => simp [uniqueKeysOfMembers, ih]
  rw [uniqueKeys, Bool.and_eq_true, decide_eq_true_eq, values]

theorem uniqueKeys_get? {members : Members} {name : Key} {v : Json}
    (unique : (obj members).uniqueKeys = true) (found : members.get? name = some v) :
    v.uniqueKeys = true := by
  obtain ⟨m, member, _, rfl⟩ := Members.exists_of_get? found
  exact (uniqueKeys_obj.mp unique).2 m member

end Json

namespace Schema

open Node

variable {members : Members} {path : String}

theorem uniqueKeys_foldType {type : Json} (unique : type.uniqueKeys = true) :
    (foldType type).1.uniqueKeys = true := by
  unfold foldType
  split
  · rename_i types
    have filtered : ∀ t ∈ types.filter (!·.isText "null"), t.uniqueKeys = true := fun t member =>
      Json.uniqueKeys_arr.mp unique t (List.mem_filter.mp member).1
    dsimp only
    split
    · rfl
    · rename_i only left
      exact filtered only (by simp [left])
    · exact Json.uniqueKeys_arr.mpr filtered
  · exact unique

theorem PartOf.uniqueKeys {v : Json} (part : PartOf members v)
    (unique : (Json.obj members).uniqueKeys = true) : v.uniqueKeys = true := by
  cases part with
  | value found => exact Json.uniqueKeys_get? unique found
  | item found listed => exact Json.uniqueKeys_arr.mp (Json.uniqueKeys_get? unique found) v listed
  | entry found listed => exact (Json.uniqueKeys_obj.mp (Json.uniqueKeys_get? unique found)).2 _ listed
  | @typed types t folded listed =>
    have type := uniqueKeys_foldType (Json.uniqueKeys_get? unique (get?_of_foldType folded))
    rw [folded] at type
    obtain ⟨apart, values⟩ := Json.uniqueKeys_obj.mp unique
    refine Json.uniqueKeys_obj.mpr ⟨?_, fun m member => ?_⟩
    · rw [withType, List.map_append]
      refine List.pairwise_append.mpr ⟨apart.sublist (List.filter_sublist.map _),
        List.pairwise_singleton _ _, fun a kept b own => ?_⟩
      obtain ⟨m, shared, rfl⟩ := List.mem_map.mp kept
      rw [List.mem_singleton.mp own]
      have other := (List.mem_filter.mp shared).2
      simp only [isShared, ownKeywords] at other
      simp_all
    · rcases List.mem_append.mp member with shared | own
      · exact values m (List.mem_filter.mp shared).1
      · rw [List.mem_singleton.mp own]
        exact Json.uniqueKeys_arr.mp type t listed

theorem pairwise_propertiesAt? {read : List (Key × Part)}
    (unique : (Json.obj members).uniqueKeys = true) (found : propertiesAt? members path = some read) :
    (read.map (·.1)).Pairwise fun a b => a.same b = false := by
  unfold propertiesAt? at found
  split at found
  · rename_i p ps held
    cases found
    rw [List.map_map]
    exact (Json.uniqueKeys_obj.mp (Json.uniqueKeys_get? unique held)).1
  · cases found

/-- The properties of a layer are the members of the value under their keyword. -/
theorem pairwise_of_layer {fields : Fields Part} (unique : (Json.obj members).uniqueKeys = true)
    (layered : layer members path = .ok (.shape (.object fields))) :
    (fields.properties.map (·.1)).Pairwise fun a b => a.same b = false := by
  unfold layer Layer.choose at layered
  split at layered
  case h_6 =>
    obtain ⟨shape, typed, same⟩ := except_map_eq_ok.mp layered
    cases same
    unfold typeLayer at typed
    split at typed
    case h_1 =>
      unfold arrayLayer at typed
      split at typed <;> cases typed
    case h_2 =>
      unfold objectLayer at typed
      split at typed
      · rename_i properties found
        cases typed
        exact pairwise_propertiesAt? unique found
      · cases typed
        exact .nil
    case h_3 => split at typed <;> cases typed
    all_goals cases typed
  all_goals cases layered

theorem keysOf_of_mapM {f : α → Except Fault Node} {entries : List (Key × α)}
    {results : List (Key × Node)}
    (done : entries.mapM (fun p => do return (p.1, ← f p.2)) = .ok results) :
    entries.map (·.1) = keysOf results := by
  induction except_mapM_eq_ok.mp done with
  | nil => rfl
  | cons step pairs ih =>
    obtain ⟨value, _, same⟩ := except_bind_eq_ok.mp step
    cases same
    rw [List.map_cons, ih (except_mapM_eq_ok.mpr pairs)]
    rfl

/-- The parts of an object are normalised under their keys. -/
theorem keys_of_mapM {f : α → Except Fault Node} {shape : Shape α} {fields : Fields Node}
    (done : shape.mapM f = .ok (.object fields)) : ∃ read : Fields α, shape = .object read ∧
      read.properties.map (·.1) = keysOf fields.properties := by
  cases shape with
  | object read =>
    obtain ⟨properties, found, done⟩ := except_bind_eq_ok.mp done
    obtain ⟨additional, _, done⟩ := except_bind_eq_ok.mp done
    cases done
    exact ⟨read, rfl, keysOf_of_mapM found⟩
  | allOf members | anyOf members =>
    obtain ⟨_, _, same⟩ := except_map_eq_ok.mp done
    cases same
  | array items minItems maxItems =>
    obtain ⟨_, _, done⟩ := except_bind_eq_ok.mp done
    cases done
  | tuple lead rest =>
    obtain ⟨_, _, done⟩ := except_bind_eq_ok.mp done
    obtain ⟨_, _, done⟩ := except_bind_eq_ok.mp done
    cases done
  | primitive | enum | const | ref | always => cases done

theorem Node.keyed_of_parts {node : Node}
    (own : ∀ fields, node.shape = .object fields →
      (keysOf fields.properties).Pairwise fun a b => a.same b = false)
    (parts : ∀ part ∈ node.shape.parts, part.Keyed) : node.Keyed := by
  intro other inner
  rcases mem_subnodes.mp inner with rfl | ⟨part, member, inner⟩
  · exact own
  · exact parts part member other inner

/-- Keys are a matter of the shape. -/
theorem Node.Keyed.congr {node other : Node} (keyed : node.Keyed) (same : other.shape = node.shape) :
    other.Keyed := by
  refine keyed_of_parts ?_ ?_
  · rw [same]
    exact keyed node (self_mem_subnodes node)
  · rw [same]
    exact fun part member => keyed.part member

theorem unionOf_keyed {nodes : List Node} (each : ∀ node ∈ nodes, node.Keyed) : (unionOf nodes).Keyed := by
  rcases shape_unionOf nodes with shape | ⟨member, listed, shape⟩ | ⟨chosen, listed, shape⟩
  · exact Node.keyed_of_parts (by simp [shape]) (by simp [shape, Shape.parts])
  · exact (each member listed).congr shape
  · refine Node.keyed_of_parts (by simp [shape]) fun part member => ?_
    rw [shape] at member
    obtain ⟨old, oldMember, rfl⟩ := List.mem_map.mp member
    exact (each old (listed oldMember)).congr rfl

/-- The objects of a normal form have keys of their own. -/
theorem normalize_keyed {fragment : Json} {node : Node} (done : normalize fragment path = .ok node)
    (unique : fragment.uniqueKeys = true) : node.Keyed := by
  induction h : fragment.size using Nat.strong_induction_on generalizing fragment path node with
  | _ n ih =>
    rcases normalize_cases done with ⟨accepts, rfl⟩ | ⟨members, read, inner, rfl, layered, normal, rfl⟩
    · exact Node.keyed_of_parts (by simp) (by simp [Shape.parts])
    · have part {p : Part} {result : Node} (member : p ∈ read.parts)
          (done : normalize p.fragment p.path = .ok result) : result.Keyed := by
        have inner := layer_partOf layered p member
        exact ih _ (h ▸ inner.size_lt) done (inner.uniqueKeys unique) rfl
      cases read with
      | shape shape =>
        obtain ⟨result, mapped, same⟩ := except_bind_eq_ok.mp normal
        cases same
        refine Node.keyed_of_parts (fun fields object => ?_) fun other member => ?_
        · obtain rfl : result = .object fields := object
          obtain ⟨read, rfl, keys⟩ := keys_of_mapM mapped
          rw [← keys]
          exact pairwise_of_layer unique layered
        · obtain ⟨p, listed, step⟩ := Shape.exists_part_of_mapM mapped member
          exact part listed step
      | union parts =>
        obtain ⟨nodes, mapped, same⟩ := except_bind_eq_ok.mp normal
        cases same
        refine Node.Keyed.congr (unionOf_keyed fun other member => ?_) rfl
        obtain ⟨p, listed, step⟩ := exists_of_mapM_eq_ok mapped member
        exact part listed step

end Schema

end TypedClient
