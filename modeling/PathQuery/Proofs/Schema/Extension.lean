/-
A schema within another one.

One schema extends another if it has all its types as they are. If the
smaller one resolves, the types of its own lead nowhere else: the bases
of each are the same in both schemas, and with them all that the two
searches find (`Schema.ExtendedBy.isSubtype_eq`, `ancestors_eq`) and all
that is read off what they find. The larger schema lets the searches run
longer, which makes no difference to a search that has found
everything.
-/
import PathQuery.Proofs.Schema.WellFormed

namespace PathQuery

/-- What is found first is the same where every element gives the same. -/
theorem findSome?_congr {α β : Type} {f g : α → Option β} {xs : List α}
    (h : ∀ x ∈ xs, f x = g x) : xs.findSome? f = xs.findSome? g := by
  induction xs with
  | nil => rfl
  | cons x xs ih =>
      obtain ⟨hx, hxs⟩ := List.forall_mem_cons.1 h
      rw [List.findSome?_cons, List.findSome?_cons, hx, ih hxs]

-- ============================================================== searches

namespace Search

variable {α : Type} {next next' : α → List α} {P : α → Prop}

/-- A walk goes the same way where all steps do. -/
theorem Walk.congr (hstep : ∀ a b, P a → b ∈ next a → P b)
    (heq : ∀ a, P a → next' a = next a) {n : Nat} {a b : α} (ha : P a) :
    Walk next' n a b ↔ Walk next n a b := by
  induction n generalizing a with
  | zero =>
      constructor
      · intro h
        cases h
        exact .nil _
      · intro h
        cases h
        exact .nil _
  | succ n ih =>
      constructor
      · intro h
        cases h with
        | cons hb h =>
            rw [heq a ha] at hb
            exact .cons hb ((ih (hstep a _ ha hb)).1 h)
      · intro h
        cases h with
        | cons hb h =>
            refine .cons ?_ ((ih (hstep a _ ha hb)).2 h)
            rwa [heq a ha]

variable [DecidableEq α] {seen : List α}

/-- The search by levels lists the same where all steps lead the same
way. -/
theorem levelOrder_congr (hstep : ∀ a b, P a → b ∈ next a → P b)
    (heq : ∀ a, P a → next' a = next a) (rounds : Nat)
    (hseen : ∀ a ∈ seen, P a) :
    levelOrder next' rounds seen = levelOrder next rounds seen := by
  induction rounds generalizing seen with
  | zero => rfl
  | succ rounds ih =>
      have hfresh : fresh next' seen = fresh next seen := by
        have hflat : seen.flatMap next' = seen.flatMap next :=
          List.flatMap_congr fun a ha => heq a (hseen a ha)
        unfold fresh
        rw [hflat]
      unfold levelOrder
      rw [hfresh]
      split
      · rfl
      · next found _ hfound =>
          refine ih fun b hb => ?_
          rcases List.mem_append.1 hb with hb | hb
          · exact hseen b hb
          · obtain ⟨a, ha, hab⟩ := mem_fresh hb
            exact hstep a b (hseen a ha) hab

/-- A search that has found everything finds no more. -/
theorem levelOrder_of_closed (h : ∀ a ∈ seen, ∀ b ∈ next a, b ∈ seen)
    (rounds : Nat) : levelOrder next rounds seen = seen := by
  have hfresh : fresh next seen = [] := by
    refine List.eq_nil_iff_forall_not_mem.2 fun b hb => ?_
    obtain ⟨a, ha, hab⟩ := mem_fresh hb
    unfold fresh at hb
    rw [List.mem_eraseDups, List.mem_filter] at hb
    exact of_decide_eq_true hb.2 (h a ha b hab)
  cases rounds with
  | zero => rfl
  | succ rounds =>
      unfold levelOrder
      rw [hfresh]

/-- A longer search goes on where a shorter one ends. -/
theorem levelOrder_add (m n : Nat) :
    levelOrder next (m + n) seen = levelOrder next n (levelOrder next m seen) := by
  induction m generalizing seen with
  | zero =>
      rw [Nat.zero_add]
      rfl
  | succ m ih =>
      rw [Nat.add_right_comm, levelOrder, levelOrder]
      cases hfresh : fresh next seen with
      | nil =>
          cases n with
          | zero => rfl
          | succ n =>
              dsimp only
              rw [levelOrder, hfresh]
      | cons x xs => exact ih

end Search

namespace Schema

open Search (Walk)

variable {s s' : Schema} {a b : TypeId}

-- ============================================================== lookup

/-- A name stands for the same item where it leads to the same type and
the same function. -/
theorem lookup_congr {name : QualifiedName}
    (hname : s'.names.get? name = s.names.get? name)
    (htype : ∀ id, s.names.get? name = some id → s'.type? id = s.type? id)
    (hfunction : s'.function? name = s.function? name) :
    s'.lookup name = s.lookup name := by
  have htypes : s'.typeByName? name = s.typeByName? name := by
    unfold typeByName?
    rw [hname]
    cases hid : s.names.get? name with
    | none => rfl
    | some id =>
        rw [Option.bind_eq_bind, Option.bind_some, Option.bind_eq_bind,
          Option.bind_some, htype id hid]
  unfold lookup
  rw [htypes, hfunction]

-- =========================================================== inclusion

/-- A schema in which all references resolve is part of another. -/
structure ExtendedBy (s s' : Schema) : Prop where
  types : ∀ id entry, s.type? id = some entry → s'.type? id = some entry
  resolves : s.Resolves

/-- A longer search for ancestors finds the same. -/
theorem levelOrder_ancestors (ha : s.isRegistered a = true) (n : Nat) :
    Search.levelOrder s.directBases (s.types.size + n) [a] = s.ancestors a := by
  rw [Search.levelOrder_add, ← ancestors_of_isRegistered ha]
  exact Search.levelOrder_of_closed
    (fun _ hb _ hc => mem_ancestors_of_mem_directBases hb hc) n

namespace ExtendedBy

theorem type?_eq (h : s.ExtendedBy s') (ha : s.isRegistered a = true) :
    s'.type? a = s.type? a := by
  obtain ⟨entry, hentry⟩ := exists_type? ha
  rw [hentry, h.types a entry hentry]

theorem isRegistered (h : s.ExtendedBy s') (ha : s.isRegistered a = true) :
    s'.isRegistered a = true := by
  unfold Schema.isRegistered at ha ⊢
  rwa [h.type?_eq ha]

theorem isObject_eq (h : s.ExtendedBy s') (ha : s.isRegistered a = true) :
    s'.isObject a = s.isObject a := by
  unfold isObject
  rw [h.type?_eq ha]

theorem scalarKind?_eq (h : s.ExtendedBy s') (ha : s.isRegistered a = true) :
    s'.scalarKind? a = s.scalarKind? a := by
  unfold scalarKind?
  rw [h.type?_eq ha]

/-- A type has no new bases. -/
theorem directBases_eq (h : s.ExtendedBy s') (ha : s.isRegistered a = true) :
    s'.directBases a = s.directBases a := by
  obtain ⟨entry, hentry⟩ := exists_type? ha
  unfold directBases
  rw [h.type?_eq ha, hentry]
  dsimp only
  refine congrArg List.reverse (List.filter_congr fun b hb => ?_)
  have hbase := (h.resolves a entry hentry).1 b hb
  rw [hbase, h.isRegistered hbase]

theorem walk_iff (h : s.ExtendedBy s') {n : Nat}
    (ha : s.isRegistered a = true) :
    Walk s'.directBases n a b ↔ Walk s.directBases n a b :=
  Walk.congr (P := fun t => s.isRegistered t = true)
    (fun _ _ _ hb => isRegistered_of_mem_directBases hb)
    (fun _ ht => h.directBases_eq ht) ha

/-- A type extends what it extended, and nothing new. -/
theorem isSubtype_eq (h : s.ExtendedBy s') (ha : s.isRegistered a = true)
    (b : TypeId) : s'.isSubtype a b = s.isSubtype a b := by
  rw [Bool.eq_iff_iff]
  constructor
  · intro hsub
    obtain ⟨n, hw⟩ := exists_walk_of_isSubtype hsub
    exact isSubtype_of_walk ha ((h.walk_iff ha).1 hw)
  · intro hsub
    obtain ⟨n, hw⟩ := exists_walk_of_isSubtype hsub
    exact isSubtype_of_walk (h.isRegistered ha) ((h.walk_iff ha).2 hw)

/-- Ancestors are listed in the same order. -/
theorem ancestors_eq (h : s.ExtendedBy s') (ha : s.isRegistered a = true) :
    s'.ancestors a = s.ancestors a := by
  rw [← levelOrder_ancestors (h.isRegistered ha) s.types.size,
    ← levelOrder_ancestors ha s'.types.size, Nat.add_comm]
  refine Search.levelOrder_congr (P := fun t => s.isRegistered t = true)
    (fun _ _ _ hb => isRegistered_of_mem_directBases hb)
    (fun _ ht => h.directBases_eq ht) _ fun t ht => ?_
  rwa [List.mem_singleton.1 ht]

theorem commonSupertype_eq (h : s.ExtendedBy s')
    (ha : s.isRegistered a = true) (hb : s.isRegistered b = true) :
    s'.commonSupertype a b = s.commonSupertype a b := by
  unfold commonSupertype
  rw [h.ancestors_eq ha]
  exact congrArg (List.find? · _) (funext (h.isSubtype_eq hb))

theorem findPointer_eq (h : s.ExtendedBy s') (ha : s.isRegistered a = true)
    (name : String) : s'.findPointer a name = s.findPointer a name := by
  unfold findPointer
  rw [h.ancestors_eq ha]
  refine findSome?_congr fun c hc => ?_
  rw [h.type?_eq (isRegistered_of_mem_ancestors hc)]

-- ========================================================= conversions

theorem isNumeric_eq (h : s.ExtendedBy s') (ha : s.isRegistered a = true) :
    s'.isNumeric a = s.isNumeric a := by
  unfold isNumeric
  rw [h.scalarKind?_eq ha]

theorem conversion?_eq (h : s.ExtendedBy s') (ha : s.isRegistered a = true)
    (hb : s.isRegistered b = true) :
    s'.conversion? a b = s.conversion? a b := by
  unfold conversion?
  rw [h.isSubtype_eq ha, h.scalarKind?_eq ha, h.scalarKind?_eq hb]

theorem cast?_eq (h : s.ExtendedBy s') (ha : s.isRegistered a = true)
    (hb : s.isRegistered b = true) : s'.cast? a b = s.cast? a b := by
  unfold cast?
  rw [h.conversion?_eq ha hb, h.scalarKind?_eq ha, h.scalarKind?_eq hb]

theorem commonType?_eq (h : s.ExtendedBy s') (ha : s.isRegistered a = true)
    (hb : s.isRegistered b = true) :
    s'.commonType? a b = s.commonType? a b := by
  unfold commonType?
  rw [h.conversion?_eq ha hb, h.conversion?_eq hb ha, h.isObject_eq ha,
    h.isObject_eq hb, h.commonSupertype_eq ha hb]

end ExtendedBy

end Schema

end PathQuery
