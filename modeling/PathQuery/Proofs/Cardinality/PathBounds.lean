/-
What the bounds of a path promise.

The elements of a path are what its pointers lead to, step by step, from
each element of the set before, and different elements may have a
different number of targets. `reached` spreads some elements over some
steps in this way, given the targets that each element has at each step.
Judging a path sees nothing of that: it multiplies bounds.

Multiplying is sound. If the targets of each element are as many as the
bounds of its step admit, what is reached is as many as the product
admits (`admits_reached`). It is also exact: where the product does not
exclude the empty set, some targets lead to nothing, and where it admits
more than one element, some lead to two that differ (`reached_sparing`,
`mem_reached_lavish`). So no bound that judging gives could be tighter,
whatever the path and wherever it is judged
(`Session.Reachable.path_bounds`).
-/
import PathQuery.Proofs.Cardinality.FurtherIn

namespace PathQuery

open Ir

variable {κ α : Type}

-- ============================================================== bounds

namespace Cardinality

variable {c d : Cardinality} {n : Nat}

/-- A number of elements is within the bounds. -/
def Admits (c : Cardinality) (n : Nat) : Prop :=
  (c.isRequired = true → 1 ≤ n) ∧ (c.isMulti = false → n ≤ 1)

instance : Decidable (c.Admits n) := inferInstanceAs (Decidable (_ ∧ _))

/-- A single element is within any bounds. -/
theorem admits_one (c : Cardinality) : c.Admits 1 := by
  simp [Admits]

@[simp] theorem admits_zero_iff : c.Admits 0 ↔ c.isRequired = false := by
  simp [Admits]

@[simp] theorem admits_two_iff : c.Admits 2 ↔ c.isMulti = true := by
  simp [Admits]

@[simp] theorem one_admits_iff : one.Admits n ↔ n = 1 := by
  simp only [Admits, isRequired, isMulti, true_implies]
  omega

/-- Elements within some bounds, each with targets within some others,
have targets within the product. -/
theorem admits_flatMap {xs : List α} {targets : α → List α}
    (hxs : c.Admits xs.length)
    (htargets : ∀ x ∈ xs, d.Admits (targets x).length) :
    (c.mul d).Admits (xs.flatMap targets).length := by
  unfold Admits mul
  rw [isRequired_ofBounds, isMulti_ofBounds, Bool.and_eq_true,
    Bool.or_eq_false_iff]
  constructor
  · intro hrequired
    -- the first element has a target
    obtain ⟨x, hx⟩ := List.exists_mem_of_length_pos (hxs.1 hrequired.1)
    obtain ⟨y, hy⟩ :=
      List.exists_mem_of_length_pos ((htargets x hx).1 hrequired.2)
    exact List.length_pos_of_mem (List.mem_flatMap.2 ⟨x, hx, hy⟩)
  · intro hsingle
    -- there is no second element
    match xs with
    | [] => simp
    | [x] => simpa using (htargets x List.mem_cons_self).2 hsingle.2
    | _ :: _ :: _ =>
        have hle := hxs.2 hsingle.1
        simp at hle

end Cardinality

-- =========================================================== spreading

/-- What some steps, the last one first, lead to from some elements, if
`targets` are what a step leads to from an element. -/
def reached (targets : Stride → α → List α) (start : List α)
    (strides : List Stride) : List α :=
  strides.foldr (fun stride xs => xs.flatMap (targets stride)) start

@[simp] theorem reached_nil (targets : Stride → α → List α) (start : List α) :
    reached targets start [] = start := rfl

@[simp] theorem reached_cons (targets : Stride → α → List α) (start : List α)
    (stride : Stride) (strides : List Stride) :
    reached targets start (stride :: strides)
      = (reached targets start strides).flatMap (targets stride) := rfl

/-- At each of some steps, each element has as many targets as the
pointer of the step admits. -/
def Allotted (targets : Stride → α → List α) (strides : List Stride) : Prop :=
  ∀ stride ∈ strides, ∀ x, stride.perSource.Admits (targets stride x).length

section

variable {c : Cardinality} {start : List α} {strides : List Stride}

/-- What is reached is within the bounds of the start, times those of the
steps. -/
theorem admits_reached {targets : Stride → α → List α}
    (hstart : c.Admits start.length) (h : Allotted targets strides) :
    (c.along strides).Admits (reached targets start strides).length := by
  induction strides with
  | nil => exact hstart
  | cons stride strides ih =>
      obtain ⟨hstride, hrest⟩ := List.forall_mem_cons.1 h
      exact Cardinality.admits_flatMap (ih hrest) fun x _ => hstride x

/-- As few targets as the pointer of a step admits: the element itself, or
none. -/
def sparing (stride : Stride) (x : α) : List α :=
  if stride.perSource.isRequired then [x] else []

theorem allotted_sparing (strides : List Stride) :
    Allotted (sparing (α := α)) strides := by
  intro stride _ x
  unfold sparing
  cases hrequired : stride.perSource.isRequired with
  | true => exact stride.perSource.admits_one
  | false => exact Cardinality.admits_zero_iff.2 hrequired

/-- As few targets as can be lead to nothing, unless the start and all
steps are required. -/
theorem reached_sparing (hstart : c.isRequired = false → start = [])
    (h : (c.along strides).isRequired = false) :
    reached sparing start strides = [] := by
  induction strides with
  | nil => exact hstart h
  | cons stride strides ih =>
      rw [Cardinality.along_cons, Cardinality.mul,
        Cardinality.isRequired_ofBounds, Bool.and_eq_false_iff] at h
      rw [reached_cons]
      rcases h with hrest | hstride
      · rw [ih hrest, List.flatMap_nil]
      · simp [sparing, hstride]

/-- As many targets as are needed: the element itself, or two. -/
def lavish (stride : Stride) (x : Bool) : List Bool :=
  if stride.perSource.isMulti then [false, true] else [x]

theorem allotted_lavish (strides : List Stride) : Allotted lavish strides := by
  intro stride _ x
  unfold lavish
  cases hmulti : stride.perSource.isMulti with
  | true => exact Cardinality.admits_two_iff.2 hmulti
  | false => exact stride.perSource.admits_one

/-- That leads somewhere. -/
theorem reached_lavish_ne_nil {start : List Bool} (hstart : start ≠ []) :
    reached lavish start strides ≠ [] := by
  induction strides with
  | nil => exact hstart
  | cons stride strides ih =>
      obtain ⟨x, hx⟩ := List.exists_mem_of_ne_nil _ ih
      rw [reached_cons, Ne, List.flatMap_eq_nil_iff]
      intro hnone
      have hempty := hnone x hx
      unfold lavish at hempty
      split at hempty <;> cases hempty

/-- Unless the start and all steps are single, it leads to two elements
that differ. -/
theorem mem_reached_lavish (start : List Bool) (hne : start ≠ [])
    (hstart : c.isMulti = true → ∀ b, b ∈ start)
    (h : (c.along strides).isMulti = true) (b : Bool) :
    b ∈ reached lavish start strides := by
  induction strides with
  | nil => exact hstart h b
  | cons stride strides ih =>
      rw [reached_cons, List.mem_flatMap]
      cases hmulti : stride.perSource.isMulti with
      | true =>
          -- any element will do, since each has both
          have hany : reached lavish start strides ≠ [] :=
            reached_lavish_ne_nil hne
          obtain ⟨x, hx⟩ := List.exists_mem_of_ne_nil _ hany
          refine ⟨x, hx, ?_⟩
          cases b <;> simp [lavish, hmulti]
      | false =>
          rw [Cardinality.along_cons, Cardinality.mul,
            Cardinality.isMulti_ofBounds, hmulti, Bool.or_false] at h
          exact ⟨b, ih h, by simp [lavish, hmulti]⟩

end

-- =============================================================== paths

namespace Store

variable {st : Store κ} {v id stop n : Nat} {strides : List Stride}
  {node : SetNode κ} {c : Cardinality}

/-- How many elements there may be where judging ends: one, if the set
lives above the viewpoint, or else any number that the set was made to
admit. -/
def StartsWith (st : Store κ) (v : ScopeId) (stop : SetId) (n : Nat) : Prop :=
  ∃ node, st.arena.get? stop = some node
    ∧ if st.scopes.isStrictAncestor node.scope v = true then n = 1
      else node.cardinality.Admits n

/-- That is any number within what the set is judged to have. -/
theorem startsWith_iff (hn : st.arena.get? stop = some node)
    (hends : st.EndsAt v node) (hc : st.judge? v stop = some c) :
    st.StartsWith v stop n ↔ c.Admits n := by
  unfold StartsWith
  rw [hn]
  simp only [Option.some.injEq, exists_eq_left']
  cases habove : st.scopes.isStrictAncestor node.scope v with
  | true =>
      rw [judge?_above hn habove] at hc
      cases hc
      simp
  | false =>
      rw [judge?_made hn habove (hends.resolve_left (by simp [habove]))] at hc
      cases hc
      simp

/-- A step goes along a pointer of the schema, and has its bounds. -/
def Declared (s : Schema) (st : Store κ) (stride : Stride) : Prop :=
  ∃ node source src name pointer, st.arena.get? stride.set = some node
    ∧ node.origin = .step source name stride.perSource
    ∧ st.arena.get? source = some src
    ∧ s.findPointer src.type name = some pointer
    ∧ stride.perSource = pointer.cardinality

theorem Stretch.declared [DecidableEq κ] [PathKey κ] [NameDigest] {R : Regime}
    {s : Schema} (h : st.Stretch v id strides stop) (hst : st.Sound R s) :
    ∀ stride ∈ strides, st.Declared s stride := by
  induction h with
  | ends => exact nofun
  | @step id source stop node name per strides hn _ ho _ ih =>
      obtain ⟨src, pointer, hsrc, -, -, hp, hper, -⟩ :=
        (hst.sets id node hn).of_step ho
      exact List.forall_mem_cons.2
        ⟨⟨node, source, src, name, pointer, hn, ho, hsrc, hp, hper⟩, ih⟩

end Store

-- ============================================================ sessions

namespace Session

variable [DecidableEq κ] [PathKey κ] [NameDigest]

/-- The bounds that a set is judged to have are right and cannot be
tighter. Judging goes back over pointers of the schema to a set where it
ends. Whatever the elements there and their targets at each step, within
the bounds of each, as many elements are reached as the bounds of the set
admit. Some elements and targets lead to none, unless the set is
required, and some to two that differ, unless it is at most one. -/
theorem Reachable.path_bounds {lexical : Prop} {s : Session κ}
    (h : s.Reachable lexical) {id : SetId} {node : SetNode κ}
    (hn : s.store.arena.get? id = some node) :
    ∃ strides stop c, s.store.Stretch s.frame.scope id strides stop
      ∧ (∀ stride ∈ strides, s.store.Declared s.schema stride)
      ∧ s.step (CompileM.judge id) = (.ok c, s)
      ∧ (∀ (α : Type) (start : List α) (targets : Stride → α → List α),
        s.store.StartsWith s.frame.scope stop start.length →
          Allotted targets strides →
            c.Admits (reached targets start strides).length)
      ∧ (c.isRequired = false →
        ∃ (start : List Bool) (targets : Stride → Bool → List Bool),
          s.store.StartsWith s.frame.scope stop start.length
            ∧ Allotted targets strides ∧ reached targets start strides = [])
      ∧ (c.isMulti = true →
        ∃ (start : List Bool) (targets : Stride → Bool → List Bool),
          s.store.StartsWith s.frame.scope stop start.length
            ∧ Allotted targets strides
            ∧ ∃ x ∈ reached targets start strides,
              ∃ y ∈ reached targets start strides, x ≠ y) := by
  obtain ⟨strides, stop, hway⟩ := s.store.exists_stretch s.frame.scope hn
  obtain ⟨last, hlast, hends⟩ := hway.endsAt
  obtain ⟨d, hd⟩ := s.store.exists_judge? s.frame.scope hlast
  have hjudge : s.store.judge? s.env.frame.scope id = some (d.along strides) := by
    show s.store.judge? s.frame.scope id = _
    rw [hway.judge?_eq, hd, Option.map_some]
  have hstarts : ∀ {n : Nat},
      s.store.StartsWith s.frame.scope stop n ↔ d.Admits n :=
    Store.startsWith_iff hlast hends hd
  refine ⟨strides, stop, d.along strides, hway,
    hway.declared h.ready.active.sound, ?_, ?_, ?_, ?_⟩
  · unfold step
    rw [CompileM.run_judge hjudge]
  · intro α start targets hstart hallotted
    exact admits_reached (hstarts.1 hstart) hallotted
  -- nothing is reached past an optional pointer, or from an empty start
  · intro hoptional
    cases hd : d.isRequired with
    | true =>
        exact ⟨[true], sparing, hstarts.2 d.admits_one, allotted_sparing _,
          reached_sparing (fun hne => by simp [hd] at hne) hoptional⟩
    | false =>
        exact ⟨[], sparing, hstarts.2 (Cardinality.admits_zero_iff.2 hd),
          allotted_sparing _, reached_sparing (fun _ => rfl) hoptional⟩
  -- two elements to start with reach both, and one does if a pointer branches
  · intro hmulti
    cases hd : d.isMulti with
    | true =>
        have hboth := mem_reached_lavish [false, true] (by simp)
          (fun _ b => by cases b <;> simp) hmulti
        exact ⟨[false, true], lavish,
          hstarts.2 (Cardinality.admits_two_iff.2 hd), allotted_lavish _,
          false, hboth false, true, hboth true, by simp⟩
    | false =>
        have hboth := mem_reached_lavish [true] (by simp)
          (fun h => by simp [hd] at h) hmulti
        exact ⟨[true], lavish, hstarts.2 d.admits_one, allotted_lavish _,
          false, hboth false, true, hboth true, by simp⟩

end Session

-- ============================================================= example

open scoped Xxh64

/-- The names of all friends may be none, although every person has a
name, and may be more than one. -/
theorem path_bounds_friends : ∃ strides stop,
    namesBelow.leave.store.Stretch 0 2 strides stop
      ∧ (∀ stride ∈ strides,
        namesBelow.leave.store.Declared namesBelow.leave.schema stride)
      ∧ (∃ (start : List Bool) (targets : Stride → Bool → List Bool),
        namesBelow.leave.store.StartsWith 0 stop start.length
          ∧ Allotted targets strides ∧ reached targets start strides = [])
      ∧ ∃ (start : List Bool) (targets : Stride → Bool → List Bool),
        namesBelow.leave.store.StartsWith 0 stop start.length
          ∧ Allotted targets strides
          ∧ ∃ x ∈ reached targets start strides,
            ∃ y ∈ reached targets start strides, x ≠ y := by
  have hreachable : Session.Reachable False namesBelow.leave := by
    obtain ⟨schema, o, hs⟩ := reachable_namesBelow False
    exact ⟨schema, o, hs.tail .leave⟩
  obtain ⟨node, hn⟩ : ∃ node, namesBelow.leave.store.arena.get? 2 = some node :=
    Option.isSome_iff_exists.1 (by decide +kernel)
  obtain ⟨strides, stop, c, hway, hdeclared, hjudge, -, hnone, hmany⟩ :=
    Session.Reachable.path_bounds hreachable hn
  have hscope : namesBelow.leave.frame.scope = 0 := by decide +kernel
  obtain rfl : c = .many := by
    have hrun : (namesBelow.leave.step (CompileM.judge 2)).1 = .ok .many := by
      decide +kernel
    rw [hjudge] at hrun
    exact Except.ok.inj hrun
  rw [hscope] at hway hnone hmany
  exact ⟨strides, stop, hway, hdeclared, hnone rfl, hmany rfl⟩

end PathQuery
