/-
Operands in nodes of their own, and statements from their parts.

An operand that is consumed as a whole, and every clause, is compiled in
a node that is opened for it on both sides. What comes of it agrees as
seen from that node (`AgreeBelow`). A clause that takes one value is
where the two sides may part: the first may count more than one element
where the second counts one, and then it alone fails.

`Refines` is carried from sets to shapes and to whole statements: they
have the same parts, each of the same type and counted no more. So it is
of what the two sides give for a statement (`StatementsAgree`).

What is said of an operand is said of every tandem that is `Ready`: both
stores fit the environment, and the two subjects are mates.
-/
import PathQuery.Proofs.Session.Reachable
import PathQuery.Proofs.Statement.Demands
import PathQuery.Proofs.Tandem.Operands

namespace PathQuery

open Ir
open Ast (ShapeElement)

variable {κ κ' α α' β β' : Type} [DecidableEq κ] [PathKey κ] [DecidableEq κ']
  [PathKey κ'] [NameDigest]

-- ========================================================== refinement

namespace Store

variable {st st₁ : Store κ} {st' st₁' : Store κ'} {scope : Nat}

/-- A set refines another as seen from a node right below. -/
def RefinesBelow (st : Store κ) (st' : Store κ') (scope : ScopeId)
    (x y : SetId) : Prop :=
  ∃ child, st.scopes.parent? child = some scope
    ∧ st'.scopes.parent? child = some scope ∧ st.Refines st' child x y

/-- Two shapes have the same elements, and each set of the second refines
that of the first, as seen from the node of the element. -/
inductive ShapeRefines (st : Store κ) (st' : Store κ') :
    ScopeId → List ShapeNode → List ShapeNode → Prop where
  | nil {scope : ScopeId} : ShapeRefines st st' scope [] []
  | cons {scope child : ScopeId} {x y : SetId} {name : String} {computed : Bool}
      {elements elements' rest rest' : List ShapeNode}
      (hp : st.scopes.parent? child = some scope)
      (hp' : st'.scopes.parent? child = some scope)
      (hset : st.Refines st' child x y)
      (helements : ShapeRefines st st' child elements elements')
      (hrest : ShapeRefines st st' scope rest rest') :
      ShapeRefines st st' scope (.mk name x computed elements :: rest)
        (.mk name y computed elements' :: rest')

/-- Two statements have the same parts, and each part of the second
refines that of the first. The limit may be one of the options, in the
root node. -/
structure StatementRefines (st : Store κ) (st' : Store κ')
    (stmt stmt' : Statement) : Prop where
  scope : stmt'.scope = stmt.scope
  span : stmt'.span = stmt.span
  count : stmt'.cardinality ≤ stmt.cardinality
  result : st.Refines st' stmt.scope stmt.result stmt'.result
  shape : st.ShapeRefines st' stmt.scope stmt.shape stmt'.shape
  filter : Option.Rel (st.RefinesBelow st' stmt.scope) stmt.filter stmt'.filter
  groupBy : List.Forall₂ (st.RefinesBelow st' stmt.scope) stmt.groupBy
    stmt'.groupBy
  orderBy : List.Forall₂ (fun k k' => st.RefinesBelow st' stmt.scope k.key k'.key
    ∧ k'.direction = k.direction ∧ k'.empties = k.empties ∧ k'.span = k.span)
    stmt.orderBy stmt'.orderBy
  offset : Option.Rel (st.RefinesBelow st' stmt.scope) stmt.offset stmt'.offset
  limit : Option.Rel (fun x y => st.RefinesBelow st' stmt.scope x y
    ∨ st.Refines st' ScopeTree.root x y) stmt.limit stmt'.limit

omit [DecidableEq κ] [PathKey κ] [DecidableEq κ'] [PathKey κ'] [NameDigest]

theorem RefinesBelow.mono (hl : st.Extends st₁) (hr : st'.Extends st₁')
    {x y : Nat} (h : st.RefinesBelow st' scope x y) :
    st₁.RefinesBelow st₁' scope x y := by
  obtain ⟨child, hp, hp', hxy⟩ := h
  exact ⟨child, hl.parent? hp, hr.parent? hp', hxy.mono hl hr
    (ScopeTree.lt_size_of_parent? hp) (ScopeTree.lt_size_of_parent? hp')⟩

theorem ShapeRefines.mono (hl : st.Extends st₁) (hr : st'.Extends st₁')
    {nodes nodes' : List ShapeNode}
    (h : st.ShapeRefines st' scope nodes nodes') :
    st₁.ShapeRefines st₁' scope nodes nodes' := by
  induction h with
  | nil => exact .nil
  | cons hp hp' hset _ _ ihe ihr =>
      exact .cons (hl.parent? hp) (hr.parent? hp') (hset.mono hl hr
        (ScopeTree.lt_size_of_parent? hp) (ScopeTree.lt_size_of_parent? hp'))
        ihe ihr

/-- Shapes refine one after the other. -/
theorem ShapeRefines.append {nodes nodes' more more' : List ShapeNode}
    (h : st.ShapeRefines st' scope nodes nodes')
    (hm : st.ShapeRefines st' scope more more') :
    st.ShapeRefines st' scope (nodes ++ more) (nodes' ++ more') := by
  induction h with
  | nil => exact hm
  | cons hp hp' hset he _ _ ih => exact .cons hp hp' hset he (ih hm)

theorem StatementRefines.mono (hl : st.Extends st₁) (hr : st'.Extends st₁')
    {stmt stmt' : Statement} (hs : stmt.scope < st.scopes.size)
    (hs' : stmt.scope < st'.scopes.size) (h : st.StatementRefines st' stmt stmt') :
    st₁.StatementRefines st₁' stmt stmt' where
  scope := h.scope
  span := h.span
  count := h.count
  result := h.result.mono hl hr hs hs'
  shape := h.shape.mono hl hr
  filter := optionRel_imp (fun _ _ h => h.mono hl hr) h.filter
  groupBy := h.groupBy.imp fun _ _ h => h.mono hl hr
  orderBy := h.orderBy.imp fun _ _ h => h.imp_left fun h => h.mono hl hr
  offset := optionRel_imp (fun _ _ h => h.mono hl hr) h.offset
  limit := by
    have hroot : ScopeTree.root < st.scopes.size := Nat.zero_lt_of_lt hs
    have hroot' : ScopeTree.root < st'.scopes.size := Nat.zero_lt_of_lt hs'
    exact optionRel_imp (fun _ _ h => h.imp (fun h => h.mono hl hr)
      fun h => h.mono hl hr hroot hroot') h.limit

end Store

-- =============================================================== ready

namespace Tandem

variable {T T' : Tandem κ κ'} {env : Env} {subject : Option SetId}

/-- Both stores fit the environment, and the subjects are mates. -/
structure Ready (T : Tandem κ κ') (env : Env) (subject : Option SetId) : Prop
    where
  left : env.Ready (.tracking True) T.left
  right : (env.onSubject subject).Ready (.tracking True) T.right
  mates : Option.Rel T.mates env.frame.subject subject

namespace Ready

/-- The active node is there, also later. -/
theorem active (hr : T.Ready env subject) (h : T.Later T') :
    env.frame.scope < T'.left.scopes.size :=
  Nat.lt_of_lt_of_le hr.left.active h.left.size_le

theorem opened (hr : T.Ready env subject) (h : T.Mirrored) :
    (T.opened env.frame.scope).Ready (env.within T.left.scopes.size) subject where
  left := hr.left.opened
  right := by
    have hright := hr.right.opened
    rw [h.size_eq] at hright
    exact hright
  mates := hr.mates

/-- Of the frame, the node and the subject count. -/
theorem congr (hr : T.Ready env subject) {env' : Env}
    (hschema : env'.schema = env.schema)
    (hscope : env'.frame.scope = env.frame.scope)
    (hsubject : env'.frame.subject = env.frame.subject) :
    T.Ready env' subject where
  left := ⟨hschema ▸ hr.left.suits, hschema ▸ hr.left.sound,
    hscope ▸ hr.left.active, hscope ▸ hr.left.unshadowed, fun id hid => by
      rw [hscope]
      exact hr.left.subject id (hsubject ▸ hid)⟩
  right := ⟨show Regime.Suits _ env'.schema from hschema ▸ hr.right.suits,
    show T.right.Sound _ env'.schema from hschema ▸ hr.right.sound,
    show env'.frame.scope < _ from hscope ▸ hr.right.active,
    show T.right.scopes.Unshadowed env'.frame.scope from
      hscope ▸ hr.right.unshadowed, fun id hid => by
      show ∃ t, T.right.Holds _ env'.frame.scope id t
      rw [hscope]
      exact hr.right.subject id hid⟩
  mates := hsubject ▸ hr.mates

theorem inClause (hr : T.Ready env subject) (clause : Clause) :
    T.Ready { env with frame := { env.frame with clause := some clause } }
      subject :=
  hr.congr rfl rfl rfl

/-- Where partial paths start from other sets, which are mates. -/
theorem underSubject (hr : T.Ready env subject) {x y : SetId} {t u : TypeId}
    (hxy : T.mates x y)
    (hx : T.left.Holds (.tracking True) env.frame.scope x t)
    (hy : T.right.Holds (.tracking True) env.frame.scope y u) :
    T.Ready { env with frame := { env.frame with subject := some x } }
      (some y) where
  left := ⟨hr.left.suits, hr.left.sound, hr.left.active, hr.left.unshadowed,
    fun id hid => by
      cases hid
      exact ⟨t, hx⟩⟩
  right := ⟨hr.right.suits, hr.right.sound, hr.right.active,
    hr.right.unshadowed, fun id hid => by
      cases hid
      exact ⟨u, hy⟩⟩
  mates := .some hxy

end Ready

/-- Two sets agree as seen from a node right below. -/
def AgreeBelow (T : Tandem κ κ') (scope : ScopeId) (x y : SetId) : Prop :=
  ∃ child, T.left.scopes.parent? child = some scope
    ∧ T.right.scopes.parent? child = some scope ∧ T.Agree child x y

omit [DecidableEq κ] [DecidableEq κ'] [PathKey κ'] [NameDigest] in
theorem AgreeBelow.mono (h : T.Later T') {scope x y : Nat}
    (hxy : T.AgreeBelow scope x y) : T'.AgreeBelow scope x y := by
  obtain ⟨child, hp, hp', hagree⟩ := hxy
  exact ⟨child, h.left.parent? hp, h.right.parent? hp', hagree.mono h⟩

omit [DecidableEq κ] [DecidableEq κ'] [PathKey κ'] [NameDigest] in
theorem AgreeBelow.refines {scope x y : Nat} (hxy : T.AgreeBelow scope x y) :
    T.left.RefinesBelow T.right scope x y := by
  obtain ⟨child, hp, hp', hagree⟩ := hxy
  exact ⟨child, hp, hp', hagree.refines⟩

omit [DecidableEq κ] [DecidableEq κ'] [PathKey κ'] [NameDigest] in
theorem AgreeBelow.exact {scope x y : Nat} (hxy : T.AgreeBelow scope x y)
    (hf : T.left.arena.Faithful) : x = y := by
  obtain ⟨child, -, -, hagree⟩ := hxy
  exact hagree.exact hf

/-- What the two sides give for a shape. -/
structure ShapesAgree (T : Tandem κ κ') (scope : ScopeId)
    (nodes nodes' : List ShapeNode) : Prop where
  refines : T.left.ShapeRefines T.right scope nodes nodes'
  exact : T.left.arena.Faithful → nodes = nodes'

/-- Two keys to sort by agree and sort alike. -/
structure KeysAgree (T : Tandem κ κ') (scope : ScopeId) (k k' : SortKey) :
    Prop where
  key : T.AgreeBelow scope k.key k'.key
  direction : k'.direction = k.direction
  empties : k'.empties = k.empties
  span : k'.span = k.span

omit [DecidableEq κ] [DecidableEq κ'] [PathKey κ'] [NameDigest] in
theorem KeysAgree.mono (h : T.Later T') {scope : Nat} {k k' : SortKey}
    (hk : T.KeysAgree scope k k') : T'.KeysAgree scope k k' :=
  { hk with key := hk.key.mono h }

omit [DecidableEq κ] [DecidableEq κ'] [PathKey κ'] [NameDigest] in
theorem KeysAgree.exact {scope : Nat} {k k' : SortKey}
    (hk : T.KeysAgree scope k k') (hf : T.left.arena.Faithful) : k = k' := by
  obtain ⟨id, direction, empties, span⟩ := k
  obtain ⟨id', direction', empties', span'⟩ := k'
  obtain ⟨hkey, rfl, rfl, rfl⟩ := hk
  rw [show id = id' from hkey.exact hf]

/-- What the two sides give for a statement. -/
structure StatementsAgree (T : Tandem κ κ') (stmt stmt' : Statement) : Prop where
  active : stmt.scope < T.left.scopes.size
  active' : stmt.scope < T.right.scopes.size
  refines : T.left.StatementRefines T.right stmt stmt'
  exact : T.left.arena.Faithful → stmt = stmt'

omit [DecidableEq κ] [DecidableEq κ'] [PathKey κ'] [NameDigest] in
theorem ShapesAgree.mono (h : T.Later T') {scope : Nat}
    {nodes nodes' : List ShapeNode} (hn : T.ShapesAgree scope nodes nodes') :
    T'.ShapesAgree scope nodes nodes' :=
  ⟨hn.refines.mono h.left h.right,
    fun hf => hn.exact (hf.of_extends h.left.arena)⟩

omit [DecidableEq κ] [DecidableEq κ'] [PathKey κ'] [NameDigest] in
/-- A statement agrees with another if its parts do. -/
theorem StatementsAgree.of_parts {scope x y : Nat} {shape shape' : List ShapeNode}
    {filter filter' offset offset' limit limit' : Option SetId}
    {groupBy groupBy' : List SetId} {orderBy orderBy' : List SortKey}
    {c d : Cardinality} {span : Span} (hresult : T.Agree scope x y)
    (hshape : T.ShapesAgree scope shape shape')
    (hfilter : Option.Rel (T.AgreeBelow scope) filter filter')
    (hgroupBy : List.Forall₂ (T.AgreeBelow scope) groupBy groupBy')
    (horderBy : List.Forall₂ (T.KeysAgree scope) orderBy orderBy')
    (hoffset : Option.Rel (T.AgreeBelow scope) offset offset')
    (hlimit : Option.Rel (T.AgreeBelow scope) limit limit')
    (hle : d ≤ c) (hc : T.left.arena.Faithful → c = d) :
    T.StatementsAgree
      ⟨x, shape, filter, groupBy, orderBy, offset, limit, c, scope, span⟩
      ⟨y, shape', filter', groupBy', orderBy', offset', limit', d, scope, span⟩
    where
  active := hresult.active
  active' := hresult.active'
  refines :=
    { scope := rfl
      span := rfl
      count := hle
      result := hresult.refines
      shape := hshape.refines
      filter := optionRel_imp (fun _ _ h => h.refines) hfilter
      groupBy := hgroupBy.imp fun _ _ h => h.refines
      orderBy := horderBy.imp fun _ _ h =>
        ⟨h.key.refines, h.direction, h.empties, h.span⟩
      offset := optionRel_imp (fun _ _ h => h.refines) hoffset
      limit := optionRel_imp (fun _ _ h => Or.inl h.refines) hlimit }
  exact := by
    intro hf
    have hoption : ∀ {r r' : Option SetId}, Option.Rel (T.AgreeBelow scope) r r' →
        r = r' :=
      fun h => eq_of_optionRel (optionRel_imp (fun _ _ h => h.exact hf) h)
    have hgroups := hgroupBy.imp fun _ _ h => h.exact hf
    have hsorts := horderBy.imp fun _ _ h => h.exact hf
    rw [List.forall₂_eq_eq_eq] at hgroups hsorts
    rw [show x = y from hresult.exact hf, hshape.exact hf, hoption hfilter,
      hgroups, hsorts, hoption hoffset, hoption hlimit, hc hf]

end Tandem

namespace CompileM

/-- A step gives what `post` relates, as seen from the active node, in
every tandem that is ready. -/
def RetracesTo (post : Tandem κ κ' → ScopeId → α → α' → Prop)
    (m : CompileM κ α) (m' : CompileM κ' α') : Prop :=
  ∀ (T : Tandem κ κ') (env : Env) (subject : Option SetId),
    T.Ready env subject →
      Follows T env subject m m' fun T' a b => post T' env.frame.scope a b

/-- A step gives values that are alike. -/
abbrev Retraces (m : CompileM κ Value) (m' : CompileM κ' Value) : Prop :=
  RetracesTo (fun T _ => T.Values) m m'

namespace Follows

variable {T : Tandem κ κ'} {env : Env} {subject : Option SetId} {x y : SetId}
  {span : Span} {m : CompileM κ α} {m' : CompileM κ' α'}
  {mid : Tandem κ κ' → α → α' → Prop} {post : Tandem κ κ' → β → β' → Prop}
  {operand : CompileM κ Value} {operand' : CompileM κ' Value}

/-- What each side upholds may be used of what both return. -/
theorem upheld (hr : T.Ready env subject) {left : Store κ → α → Prop}
    {right : Store κ' → α' → Prop}
    (hl : Upholds (.tracking True) env T.left m left)
    (hl' : Upholds (.tracking True) (env.onSubject subject) T.right m' right)
    (hm : Follows T env subject m m' mid) :
    Follows T env subject m m' fun T' a b => mid T' a b
      ∧ T'.Ready env subject ∧ left T'.left a ∧ right T'.right b := by
  intro h
  have hout := hm h
  have hleft := hl hr.left
  have hright := hl' hr.right
  refine ⟨fun a ha => ?_, hout.fault⟩
  obtain ⟨b, mates, hb, hlater, hmirrored, hmid⟩ := hout.value a ha
  refine ⟨b, mates, hb, hlater, hmirrored, hmid, ⟨hleft.ready, hright.ready, ?_⟩,
    hleft.value a ha, hright.value b hb⟩
  cases hsubject : env.frame.subject with
  | none =>
      have hnone := hr.mates
      rw [hsubject] at hnone
      cases hnone
      exact .none
  | some x =>
      have hsome := hr.mates
      rw [hsubject] at hsome
      cases hsome with
      | some hxy => exact .some (hlater.mates _ _ hxy)

-- ============================================================= clauses

theorem clauseOperand {hint : Option TypeId} (ho : Retraces operand operand')
    (hr : T.Ready env subject) :
    Follows T env subject (CompileM.clauseOperand operand span hint)
      (CompileM.clauseOperand operand' span hint) fun T' x y =>
        T'.Agree env.frame.scope x y := by
  unfold CompileM.clauseOperand
  refine bind (ho T env subject hr) ?_
  intro T₁ v w h₁ hvw
  have hs := hr.active h₁
  cases hvw with
  | set hxy =>
      refine bind (referenceAt hxy hs) ?_
      intro T₂ a b _ hab
      exact (attachSet hab).imp fun _ _ _ _ h => h.1
  | @pending p q hpq =>
      refine (attach (.pending ?_) hs).imp fun _ _ _ _ h => h.1
      refine ⟨hpq.type, rfl, hpq.count, hpq.constant, fun hf => ?_⟩
      rw [hpq.exact hf]

/-- A condition, in a node of its own. -/
theorem filterBy (ho : Retraces operand operand') (hr : T.Ready env subject) :
    Follows T env subject (CompileM.filterBy operand span)
      (CompileM.filterBy operand' span) fun T' x y =>
        T'.AgreeBelow env.frame.scope x y := by
  refine intro fun h => ?_
  unfold CompileM.filterBy
  refine inScope hr.left.active
    (fun T' x y => T'.Agree T.left.scopes.size x y) (fun _ => inClause ?_)
    fun T' x y _ hp hp' hxy => ⟨_, hp, hp', hxy⟩
  exact clauseOperand ho ((hr.opened h).inClause .filter)

omit [DecidableEq κ'] [PathKey κ'] [NameDigest] in
/-- At most one element, where the first side may find more than the
second. -/
theorem requireSingleton (hxy : T.Agree env.frame.scope x y)
    {f : Unit → CompileM κ β} {f' : Unit → CompileM κ' β'}
    (hf : Follows T env subject (f ()) (f' ()) post) :
    Follows T env subject (CompileM.requireSingleton x >>= f)
      (CompileM.requireSingleton y >>= f') post := by
  refine intro fun h => ?_
  obtain ⟨n, m, c, d, hn, hm, -, hc, hd, hle, hsame⟩ := h.exists_of_agree hxy
  have hleft : (CompileM.requireSingleton x).run env T.left
      = (if c.isSingleton then .ok () else
          .error (.notSingleton env.frame.clause n.span), T.left) :=
    run_requireSingleton hc hn
  have hright : (CompileM.requireSingleton y).run (env.onSubject subject) T.right
      = (if d.isSingleton then .ok () else
          .error (.notSingleton env.frame.clause m.span), T.right) :=
    run_requireSingleton hd hm
  cases hone : c.isSingleton with
  | true =>
      rw [hone] at hleft
      rw [Cardinality.isSingleton_of_le hle hone] at hright
      exact read hleft hright hf
  | false =>
      rw [hone] at hleft
      intro _
      rw [run_bind, hleft]
      refine ⟨fun a ha => ?_, fun e he => ?_⟩
      · cases ha
      · cases he
        refine ⟨Or.inl rfl, fun hfaith => ?_⟩
        obtain ⟨-, hspan, rfl⟩ := hsame hfaith
        rw [hone] at hright
        rw [run_bind, hright, hspan]
        rfl

/-- One value, in a node of its own. -/
theorem oneValue {hint : Option TypeId} (ho : Retraces operand operand')
    (hr : T.Ready env subject) :
    Follows T env subject
      (CompileM.inScope do
        let id ← CompileM.clauseOperand operand span hint
        CompileM.requireSingleton id
        return id)
      (CompileM.inScope do
        let id ← CompileM.clauseOperand operand' span hint
        CompileM.requireSingleton id
        return id)
      fun T' x y => T'.AgreeBelow env.frame.scope x y := by
  refine intro fun h => ?_
  refine inScope hr.left.active
    (fun T' x y => T'.Agree T.left.scopes.size x y) (fun _ => ?_)
    fun T' x y _ hp hp' hxy => ⟨_, hp, hp', hxy⟩
  refine bind (clauseOperand ho (hr.opened h)) ?_
  intro T₁ a b _ hab
  exact requireSingleton hab (pure hab)

theorem bound (ho : Retraces operand operand') (hr : T.Ready env subject) :
    Follows T env subject (CompileM.bound operand span)
      (CompileM.bound operand' span) fun T' x y =>
        T'.AgreeBelow env.frame.scope x y := by
  unfold CompileM.bound
  exact oneValue ho hr

theorem key (ho : Retraces operand operand') (hr : T.Ready env subject) :
    Follows T env subject (CompileM.key operand span)
      (CompileM.key operand' span) fun T' x y =>
        T'.AgreeBelow env.frame.scope x y := by
  unfold CompileM.key
  exact oneValue ho hr

-- ===================================================== whole operands

/-- What is consumed as a whole agrees as seen from a node of its own. -/
theorem existence (ho : Retraces operand operand') (hr : T.Ready env subject) :
    Follows T env subject (CompileM.existence operand span)
      (CompileM.existence operand' span) Tandem.Values := by
  refine intro fun h => ?_
  unfold CompileM.existence
  refine bind (inScope hr.left.active
    (fun T' x y => T'.Agree T.left.scopes.size x y) (fun _ => ?_)
    fun _ _ _ _ _ _ hxy => hxy) ?_
  · have hready := hr.opened h
    refine bind (ho _ _ _ hready) ?_
    intro T₁ v w h₁ hvw
    exact (attach hvw (hready.active h₁)).imp fun _ _ _ _ h => h.1
  · intro T₁ x y _ hxy
    refine pure (.pending ⟨rfl, rfl, le_refl _, rfl, fun hf => ?_⟩)
    rw [hxy.exact hf]

/-- An argument, and the cardinality of the call with it. -/
def AgreeCounted (T : Tandem κ κ') (r r' : SetId × Cardinality) : Prop :=
  AgreeSomewhere T r.1 r'.1 ∧ r'.2 ≤ r.2 ∧ (T.left.arena.Faithful → r.2 = r'.2)

theorem argument {param : Parameter} {position : Nat} {function : QualifiedName}
    {c d : Cardinality} (ho : Retraces operand operand')
    (hr : T.Ready env subject) (hle : d ≤ c)
    (hc : T.left.arena.Faithful → c = d) :
    Follows T env subject (CompileM.argument operand param position function c)
      (CompileM.argument operand' param position function d) AgreeCounted := by
  refine intro fun h => ?_
  unfold CompileM.argument
  cases param.mode with
  | wholeSet =>
      refine bind (inScope hr.left.active
        (fun T' x y => T'.Agree T.left.scopes.size x y) (fun _ => ?_)
        fun _ _ _ _ _ _ hxy => hxy) ?_
      · have hready := hr.opened h
        refine bind (ho _ _ _ hready) ?_
        intro T₁ v w h₁ hvw
        refine bind (attach hvw (hready.active h₁)) ?_
        intro T₂ a b _ hab
        exact checkArgument hab.1
      · intro T₁ x y h₁ hxy
        exact pure ⟨⟨_, hxy⟩, hle, fun hf => hc (hf.of_extends h₁.left.arena)⟩
  | element =>
      refine bind (ho T env subject hr) ?_
      intro T₁ v w h₁ hvw
      refine bind (attach hvw (hr.active h₁)) ?_
      intro T₂ a b h₂ hab
      refine bind (checkArgument hab.1) ?_
      intro T₃ x y h₃ hxy
      refine judge hxy fun c' d' hle' hc' => ?_
      refine pure ⟨⟨_, hxy⟩, Cardinality.mul_le_mul hle hle', fun hf => ?_⟩
      have hf₁ := hf.of_extends ((h₁.trans h₂).trans h₃).left.arena
      rw [hc hf₁, hc' hf]

-- ========================================================== the whole

omit [DecidableEq κ'] [PathKey κ'] [NameDigest] in
theorem checkModule {module : String} :
    Follows T env subject (CompileM.checkModule module span)
      (CompileM.checkModule module span) fun T' _ _ => T' = T := by
  unfold CompileM.checkModule
  exact readSchema (require_last rfl (fun _ => rfl) rfl)

/-- Module declarations leave the node and the subject alone. -/
theorem withModules {decls : List Ast.ModuleDecl} (hr : T.Ready env subject)
    (hm : ∀ env' : Env, env'.frame.scope = env.frame.scope →
      T.Ready env' subject → Follows T env' subject m m' mid) :
    Follows T env subject (CompileM.withModules decls m)
      (CompileM.withModules decls m') mid := by
  induction decls generalizing env with
  | nil => exact hm env rfl hr
  | cons d decls ih =>
      unfold CompileM.withModules
      refine bind checkModule ?_
      intro T' _ _ _ h
      subst h
      refine underDeclaration (ih ?_ ?_)
      · exact hr.congr rfl (Frame.scope_declare _ d) (Frame.subject_declare _ d)
      · exact fun env' hscope => hm env' (hscope.trans (Frame.scope_declare _ d))

omit [DecidableEq κ'] [PathKey κ'] [NameDigest] in
theorem requireObject (hxy : T.mates x y)
    (hs : env.frame.scope < T.left.scopes.size) :
    Follows T env subject (CompileM.requireObject x span)
      (CompileM.requireObject y span) fun T' _ _ => T' = T := by
  refine intro fun h => ?_
  unfold CompileM.requireObject
  exact readSchema (typeOf (h.agree hxy hs) fun t =>
    require_last rfl (fun _ => rfl) rfl)

/-- The shape of mates. -/
theorem withShape {elements : List ShapeElement}
    {m : CompileM κ (List ShapeNode)} {m' : CompileM κ' (List ShapeNode)}
    {t u : TypeId} (hr : T.Ready env subject) (hxy : T.mates x y)
    (hx : T.left.Holds (.tracking True) env.frame.scope x t)
    (hy : T.right.Holds (.tracking True) env.frame.scope y u)
    (hm : ∀ env' : Env, env'.frame.scope = env.frame.scope →
      T.Ready env' (some y) → Follows T env' (some y) m m'
        fun T' nodes nodes' => T'.ShapesAgree env.frame.scope nodes nodes') :
    Follows T env subject (CompileM.withShape x elements m)
      (CompileM.withShape y elements m') fun T' nodes nodes' =>
        T'.ShapesAgree env.frame.scope nodes nodes' := by
  unfold CompileM.withShape
  cases elements with
  | nil => exact pure ⟨.nil, fun _ => rfl⟩
  | cons first rest =>
      refine bind (requireObject hxy hr.left.active) ?_
      intro T' _ _ _ h
      subst h
      exact inClause (underSubject (hm _ rfl
        ((hr.inClause .shape).underSubject hxy hx hy)))

omit [DecidableEq κ'] [PathKey κ'] [NameDigest] in
/-- A limit does the same on both sides. -/
theorem limited {c d : Cardinality} {scope : ScopeId} (hxy : T.Agree scope x y)
    (hle : d ≤ c) (hc : T.left.arena.Faithful → c = d) :
    Follows T env subject (CompileM.limited c x) (CompileM.limited d y)
      fun T' c d => d ≤ c ∧ (T'.left.arena.Faithful → c = d) := by
  obtain ⟨n, m, hn, hm, -⟩ := hxy.exists_get?
  refine of_run (run_limited hn) (run_limited hm) ?_
  rw [Store.isUnitLimit_congr hxy.constant]
  split
  · exact ⟨Cardinality.optional_le_optional (Cardinality.capped_le_capped hle),
      fun hf => by rw [hc hf]⟩
  · exact ⟨hle, hc⟩

omit [DecidableEq κ'] [PathKey κ'] [NameDigest] in
theorem statementCardinality {filter filter' limit limit' : Option SetId}
    (hxy : T.Agree env.frame.scope x y) (hfilter : filter.isSome = filter'.isSome)
    (hlimit : Option.Rel (AgreeSomewhere T) limit limit') :
    Follows T env subject (CompileM.statementCardinality x filter limit)
      (CompileM.statementCardinality y filter' limit')
      fun T' c d => d ≤ c ∧ (T'.left.arena.Faithful → c = d) := by
  unfold CompileM.statementCardinality
  refine judge hxy fun c d hle hc => ?_
  have hcount : (if filter'.isSome then d.optional else d)
        ≤ (if filter.isSome then c.optional else c)
      ∧ (T.left.arena.Faithful → (if filter.isSome then c.optional else c)
        = if filter'.isSome then d.optional else d) := by
    rw [hfilter]
    split
    · exact ⟨Cardinality.optional_le_optional hle, fun hf => by rw [hc hf]⟩
    · exact ⟨hle, hc⟩
  cases hlimit with
  | none => exact pure hcount
  | some h =>
      obtain ⟨scope, hagree⟩ := h
      exact limited hagree hcount.1 hcount.2

omit [DecidableEq κ'] [PathKey κ'] [NameDigest] in
/-- A statement becomes a set with a mate. -/
theorem subquery {stmt stmt' : Statement} (h : T.StatementsAgree stmt stmt')
    (hs : env.frame.scope < T.left.scopes.size) :
    Follows T env subject (CompileM.subquery stmt) (CompileM.subquery stmt')
      Tandem.Values := by
  obtain ⟨t, ht, ht'⟩ := h.refines.result.type
  obtain ⟨n, hn, rfl⟩ := Arena.type?_eq_some_iff.1 ht
  obtain ⟨m, hm, htype⟩ := Arena.type?_eq_some_iff.1 ht'
  unfold CompileM.subquery
  refine read (run_typeOf hn) (run_typeOf hm) ?_
  rw [htype]
  refine bind (newComputed hs h.refines.count rfl fun hf => ?_) ?_
  · obtain rfl := h.exact hf
    exact ⟨rfl, rfl, rfl⟩
  · intro T₁ x y _ hxy
    exact pure (.set (hxy.2 h.refines.span.symm))

end Follows

end CompileM

end PathQuery
