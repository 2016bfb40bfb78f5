import TypedClient.Proofs.Builder.Brands

/-! Brands of a run. A brand is declared where a property is replaced first, and it is used again
for every property that leads to its name, whatever its type. So the base of a brand is the type of
one property that it stands for, and that of all of them only where they agree. -/
namespace TypedClient

open Schema Store Build

variable {brandIds : Bool} {brand : String} {base : PrimitiveType} {s t : Session}

theorem Declaration.Brands.unique {d : Declaration} {other : PrimitiveType} (brands : d.Brands base)
    (otherBrands : d.Brands other) : base = other := by
  obtain ⟨_, checks, typed⟩ := brands
  obtain ⟨_, otherChecks, otherTyped⟩ := otherBrands
  rw [typed] at otherTyped
  cases base <;> cases other <;> simp_all [PrimitiveType.name]

structure Addition where
  name : String
  fragment : Json
  /-- Where references lead. -/
  document : Json := .null
  preferStruct : Bool := false

namespace Addition

def perform (brandIds : Bool) (a : Addition) : Build String :=
  Builder.addSchema brandIds a.name a.fragment a.document a.preferStruct

/-- From one store to another an addition refers to the brand for a property of its own schema or of
a reference that it meets first. -/
def Replaces (a : Addition) (before after : Store) (declared : String) :
    String → PrimitiveType → Prop :=
  Builder.Replaced a.document before.refNames before after fun brand base =>
    ∃ node, normalize a.fragment ("#/" ++ a.name) = .ok node ∧
      Builder.DeclarationReplaces a.document before.refNames after declared node brand base

/-- One of the additions, performed in order, refers to the brand for a property. -/
inductive ReplacesIn (brandIds : Bool) (brand : String) (base : PrimitiveType) :
    Session → List Addition → Prop
  | now {s t : Session} {a : Addition} {rest : List Addition} {declared : String}
      (done : a.perform brandIds s = .ok declared t)
      (replaces : a.Replaces s.store t.store declared brand base) :
      ReplacesIn brandIds brand base s (a :: rest)
  | later {s t : Session} {a : Addition} {rest : List Addition} {declared : String}
      (done : a.perform brandIds s = .ok declared t)
      (replaces : ReplacesIn brandIds brand base t rest) :
      ReplacesIn brandIds brand base s (a :: rest)

theorem perform_covers {a : Addition} {declared : String} (sound : s.store.Sound)
    (done : a.perform brandIds s = .ok declared t) :
    Grows s.store t.store ∧
    (∀ brand base, a.Replaces s.store t.store declared brand base →
      (base = .string ∨ base = .integer) ∧ ∃ d, t.store.find? brand = some d ∧ d.kind = .brand) ∧
    ∀ brand d, t.store.find? brand = some d → d.kind = .brand → brand ∉ s.store.names →
      ∃ base, d.Brands base ∧ a.Replaces s.store t.store declared brand base := by
  have start : Builder.Underway a.document s.store.refNames s.store :=
    ⟨sound, List.Subset.refl _, fun _ => .inl⟩
  obtain ⟨grows, _, branded, origins⟩ := Builder.addSchema_covers start done
  exact ⟨grows, branded, origins⟩

/-- Over any number of additions what is replaced has a brand, and a brand that is new stands for
what is replaced. -/
theorem run_covers {additions : List Addition} {names : List String} (sound : s.store.Sound)
    (done : additions.mapM (perform brandIds) s = .ok names t) :
    Grows s.store t.store ∧
    (∀ brand base, ReplacesIn brandIds brand base s additions →
      (base = .string ∨ base = .integer) ∧ ∃ d, t.store.find? brand = some d ∧ d.kind = .brand) ∧
    ∀ brand d, t.store.find? brand = some d → d.kind = .brand → brand ∉ s.store.names →
      ∃ base, d.Brands base ∧ ReplacesIn brandIds brand base s additions := by
  induction additions generalizing s names with
  | nil =>
    cases done
    refine ⟨.refl sound, fun _ _ replaces => ?_, fun brand d found _ fresh => ?_⟩
    · cases replaces
    · exact absurd (find?_isSome.mp (Option.isSome_of_eq_some found)) fresh
  | cons a rest ih =>
    rw [List.mapM_cons] at done
    obtain ⟨declared, u, performed, later⟩ := bind_eq_ok.mp done
    obtain ⟨others, v, run, same⟩ := bind_eq_ok.mp later
    cases same
    obtain ⟨grows, branded, origins⟩ := perform_covers sound performed
    obtain ⟨further, laterBranded, laterOrigins⟩ := ih grows.sound run
    refine ⟨grows.trans further, fun brand base replaces => ?_, fun brand d found kind fresh => ?_⟩
    · cases replaces with
      | now again replaces =>
        rw [performed] at again
        cases again
        obtain ⟨plain, d, found, kind⟩ := branded brand base replaces
        exact ⟨plain, d, further.find? found, kind⟩
      | later again replaces =>
        rw [performed] at again
        cases again
        exact laterBranded brand base replaces
    · by_cases declared : brand ∈ u.store.names
      · rw [further.find?_eq declared] at found
        obtain ⟨base, brands, replaces⟩ := origins brand d found kind fresh
        exact ⟨base, brands, .now performed replaces⟩
      · obtain ⟨base, brands, replaces⟩ := laterOrigins brand d found kind declared
        exact ⟨base, brands, .later performed replaces⟩

/-- After any additions to a fresh generator, a property that is replaced is a text or an integer,
and its brand is declared over the type of a property that it stands for. It is the property's own
type, for all that is replaced, if and only if no brand stands for properties of different types. -/
theorem brands_keep_base_iff {additions : List Addition} {names : List String}
    (done : additions.mapM (perform brandIds) {} = .ok names s) :
    (∀ brand base, ReplacesIn brandIds brand base {} additions →
      (base = .string ∨ base = .integer) ∧
      ∃ d held, s.store.find? brand = some d ∧ d.Brands held ∧
        ReplacesIn brandIds brand held {} additions) ∧
    (∀ brand d, s.store.find? brand = some d → d.kind = .brand →
      ∃ base, d.Brands base ∧ ReplacesIn brandIds brand base {} additions) ∧
    ((∀ brand base, ReplacesIn brandIds brand base {} additions →
        ∃ d, s.store.find? brand = some d ∧ d.Brands base) ↔
      ∀ brand base other, ReplacesIn brandIds brand base {} additions →
        ReplacesIn brandIds brand other {} additions → base = other) := by
  obtain ⟨_, branded, origins⟩ := run_covers sound_empty done
  have stands : ∀ brand d, s.store.find? brand = some d → d.kind = .brand →
      ∃ base, d.Brands base ∧ ReplacesIn brandIds brand base {} additions :=
    fun brand d found kind => origins brand d found kind (by simp [Store.names])
  have declared : ∀ brand base, ReplacesIn brandIds brand base {} additions →
      (base = .string ∨ base = .integer) ∧ ∃ d held, s.store.find? brand = some d ∧ d.Brands held ∧
        ReplacesIn brandIds brand held {} additions := by
    intro brand base replaces
    obtain ⟨plain, d, found, kind⟩ := branded brand base replaces
    obtain ⟨held, brands, first⟩ := stands brand d found kind
    exact ⟨plain, d, held, found, brands, first⟩
  refine ⟨declared, stands, fun keeps brand base other replaces otherReplaces => ?_,
    fun agree brand base replaces => ?_⟩
  · obtain ⟨d, found, brands⟩ := keeps brand base replaces
    obtain ⟨e, otherFound, otherBrands⟩ := keeps brand other otherReplaces
    obtain rfl := Option.some.inj (found.symm.trans otherFound)
    exact brands.unique otherBrands
  · obtain ⟨_, d, held, found, brands, first⟩ := declared brand base replaces
    exact ⟨d, found, agree brand base held replaces first ▸ brands⟩

section Flat

/-- The first property of an object is a primitive of the type, and its field refers to the
brand. -/
def startsWithBrand (brand : String) (base : PrimitiveType) (node : Node) (type : TypeExpr) :
    Bool :=
  match node.shape, type.fields with
  | .object ⟨(_, ⟨_, .primitive p⟩) :: _, _, _, _⟩,
      ⟨_, some ⟨⟨.ref, name, [], [], false, _⟩, [], none, []⟩, _, _, _⟩ :: _ =>
    p.type = base ∧ name = brand
  | _, _ => false

theorem replaces_of_startsWithBrand {document : Json} {known : List (String × String)} {node : Node}
    {type : TypeExpr} (starts : startsWithBrand brand base node type = true) :
    Builder.Replaces document known node type brand base := by
  unfold startsWithBrand at starts
  split at starts
  · rename_i shape fields
    obtain ⟨rfl, rfl⟩ := of_decide_eq_true starts
    apply Builder.Replaces.brand shape
    · rw [fields, List.filter_cons_of_pos (by simp [Builder.lost_iff])]
      exact List.mem_cons_self
    · rfl
    · rfl
  · cases starts

def showsBrand (a : Addition) (brand : String) (base : PrimitiveType) (declared : String)
    (t : Session) : Bool :=
  match normalize a.fragment ("#/" ++ a.name) with
  | .ok node => !node.merges && (t.store.find? declared).any fun d =>
      d.type.any (startsWithBrand brand base node)
  | .error _ => false

theorem replaces_of_showsBrand {a : Addition} {declared : String}
    (shown : a.showsBrand brand base declared t = true) :
    a.Replaces s.store t.store declared brand base := by
  unfold showsBrand at shown
  split at shown
  · rename_i node normal
    simp only [Bool.and_eq_true, Bool.not_eq_true', Option.any_eq_true] at shown
    obtain ⟨plain, d, found, type, typed, starts⟩ := shown
    refine .inl ⟨node, normal, node, d, type, ?_, found, typed, replaces_of_startsWithBrand starts⟩
    rw [Builder.MergesTo, if_neg (by simp [plain])]
  · cases shown

end Flat

def objectSchema (properties : List (String × Json)) : Json :=
  .ofMembers [("type", "object"), ("properties", .ofMembers properties)]

def typeSchema (type : String) : Json :=
  .ofMembers [("type", .str type)]

/-- An order with identifiers of its own, in its lines and at its buyer. -/
def nestedOrder : Addition :=
  { name := "Order"
    fragment := objectSchema [("userId", typeSchema "string"),
      ("lines", .ofMembers [("type", "array"),
        ("items", objectSchema [("productId", typeSchema "integer")])]),
      ("buyer", .ofMembers [("$ref", "#/$defs/Buyer")])]
    document := .ofMembers [("$defs", .ofMembers
      [("Buyer", objectSchema [("id", typeSchema "string"), ("userId", typeSchema "string")])])] }

theorem brands_keep_base_iff_nested :
    ∃ names s, [nestedOrder].mapM (perform true) {} = .ok names s ∧
      s.store.brands.names = ["UserId", "ProductId", "BuyerId"] ∧
      (∀ brand d, s.store.find? brand = some d → d.kind = .brand →
        ∃ base, d.Brands base ∧ ReplacesIn true brand base {} [nestedOrder]) ∧
      ((∀ brand base, ReplacesIn true brand base {} [nestedOrder] →
          ∃ d, s.store.find? brand = some d ∧ d.Brands base) ↔
        ∀ brand base other, ReplacesIn true brand base {} [nestedOrder] →
          ReplacesIn true brand other {} [nestedOrder] → base = other) := by
  have run : succeeds ([nestedOrder].mapM (perform true)) {} (fun _ s =>
      s.store.brands.names = ["UserId", "ProductId", "BuyerId"]) = true := by
    decide +kernel
  obtain ⟨names, s, done, brands⟩ := exists_of_succeeds run
  exact ⟨names, s, done, of_decide_eq_true brands, (brands_keep_base_iff done).2⟩

def withProperty (name key type : String) : Addition :=
  { name, fragment := objectSchema [(key, typeSchema type)] }

/-- A brand is not compared with the property that uses it again: the integer key of an invoice is
typed as the text key of an order. -/
theorem integer_property_of_text_brand :
    let additions :=
      [withProperty "Order" "userId" "string", withProperty "Invoice" "userId" "integer"]
    ∃ names s, additions.mapM (perform true) {} = .ok names s ∧
      ReplacesIn true "UserId" .integer {} additions ∧
      ¬ ∃ d, s.store.find? "UserId" = some d ∧ d.Brands .integer := by
  intro additions
  have run : succeeds ((withProperty "Order" "userId" "string").perform true) {} (fun _ s =>
      succeeds ((withProperty "Invoice" "userId" "integer").perform true) s fun declared t =>
        (withProperty "Invoice" "userId" "integer").showsBrand "UserId" .integer declared t &&
        (t.store.find? "UserId").any fun d => d.type.any (·.head.name == "string")) = true := by
    decide +kernel
  obtain ⟨order, s, ordered, rest⟩ := exists_of_succeeds run
  obtain ⟨invoice, t, invoiced, shown⟩ := exists_of_succeeds rest
  obtain ⟨shown, text⟩ := Bool.and_eq_true_iff.mp shown
  refine ⟨[order, invoice], t, ?_,
    .later ordered (.now invoiced (replaces_of_showsBrand shown)), ?_⟩
  · simp only [additions, List.mapM_cons, List.mapM_nil]
    exact bind_eq_ok.mpr ⟨order, s, ordered, bind_eq_ok.mpr ⟨[invoice], t,
      bind_eq_ok.mpr ⟨invoice, t, invoiced, rfl⟩, rfl⟩⟩
  · rintro ⟨d, found, _, checks, typed⟩
    simp [found, typed, PrimitiveType.name] at text

end Addition

end TypedClient
