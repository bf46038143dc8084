/-
The typing rules of operations.

`HasType` says when an operation has a type, from the types of the sets
that it refers to. There is one rule for each kind of operation, and for
the binary operators one for each line of the operator table: logical
operators take booleans; comparisons take scalars of which one extends
the other, or, as equality, objects that extend one type; the others
take operands of one family. The rules say nothing of how a type is
found, nor of the casts that make operands fit: what is compiled is
shown to obey them.

An arena that grows keeps the types of its sets, so it keeps every
typing (`HasType.mono`).
-/
import Mathlib.Data.List.Forall2
import PathQuery.Compile.Operation
import PathQuery.Proofs.Schema.Hierarchy
import PathQuery.Proofs.Store.Growth

namespace PathQuery.Ir

variable {κ : Type} [NameDigest]

/-- Whether an argument of type `t` is one that a parameter takes. -/
def ParamTakes (s : Schema) (param : ParamType) (t : TypeId) : Prop :=
  match param with
  | .any => True
  | .numeric => s.isNumeric t = true
  | .concrete target => s.isSubtype t target = true

/-- The type that a function returns, given its arguments. -/
def ReturnsType (a : Arena κ) (returns : ReturnType) (args : List SetId)
    (t : TypeId) : Prop :=
  match returns with
  | .concrete type => t = type
  | .sameAs position => ∃ arg, args[position]? = some arg ∧ a.type? arg = some t

/-- An operation has a type, given the types of the sets of an arena. -/
inductive HasType (s : Schema) (a : Arena κ) : Operation → TypeId → Prop where
  | constant (value : Literal) : HasType s a (.constant value) value.type
  | emptySet (t : TypeId) : HasType s a .emptySet t
  | logical {l r : SetId} {op : BinaryOp} {t u : TypeId}
      (hop : op.isLogical = true)
      (hl : a.type? l = some t) (hr : a.type? r = some u)
      (ht : s.isSubtype t TypeId.bool = true)
      (hu : s.isSubtype u TypeId.bool = true) : HasType s a (.binary l op r)
        TypeId.bool
  | comparison {l r : SetId} {op : BinaryOp} {t u : TypeId}
      (hop : op.isComparison = true)
      (hl : a.type? l = some t) (hr : a.type? r = some u)
      (ht : s.isObject t = false) (hu : s.isObject u = false)
      (hsub : s.isSubtype t u = true ∨ s.isSubtype u t = true) :
      HasType s a (.binary l op r) TypeId.bool
  | objects {l r : SetId} {op : BinaryOp} {t u v : TypeId}
      (hop : op.isEquality = true)
      (hl : a.type? l = some t) (hr : a.type? r = some u)
      (ht : s.isObject t = true) (hu : s.isObject u = true)
      (htv : s.isSubtype t v = true) (huv : s.isSubtype u v = true) :
      HasType s a (.binary l op r) TypeId.bool
  | concat {l r : SetId} {t u : TypeId}
      (hl : a.type? l = some t) (hr : a.type? r = some u)
      (ht : s.scalarKind? t = some .str) (hu : s.scalarKind? u = some .str) :
      HasType s a (.binary l .concat r) TypeId.str
  | integers {l r : SetId} {op : BinaryOp} {t u : TypeId}
      (hop : op.isArithmetic = true)
      (hl : a.type? l = some t) (hr : a.type? r = some u)
      (ht : s.scalarKind? t = some .int) (hu : s.scalarKind? u = some .int) :
      HasType s a (.binary l op r) TypeId.int
  | floats {l r : SetId} {op : BinaryOp} {t u : TypeId}
      (hop : op.isArithmetic = true)
      (hl : a.type? l = some t) (hr : a.type? r = some u)
      (ht : s.scalarKind? t = some .float)
      (hu : s.scalarKind? u = some .float) : HasType s a (.binary l op r)
        TypeId.float
  | not {x : SetId} {t : TypeId} (hx : a.type? x = some t)
      (ht : s.isSubtype t TypeId.bool = true) : HasType s a (.unary .not x)
        TypeId.bool
  | neg {x : SetId} {t : TypeId} (hx : a.type? x = some t)
      (ht : s.isNumeric t = true) :
      HasType s a (.unary .neg x) t
  | exists {x : SetId} {t : TypeId} (hx : a.type? x = some t) :
      HasType s a (.unary .exists x) TypeId.bool
  | call {function : QualifiedName} {signature : Signature} {args : List SetId}
      {t : TypeId}
      (hf : s.function? function = some signature)
      (hargs : List.Forall₂
        (fun param arg => ∃ u, a.type? arg = some u ∧ ParamTakes s param.type u)
        signature.params args)
      (hret : ReturnsType a signature.returns args t) :
      HasType s a (.call function args signature.isAggregate) t
  | cast {x : SetId} {source target : TypeId} {conversion : Conversion}
      (hx : a.type? x = some source)
      (hc : s.cast? source target = some conversion) : HasType s a
      (.cast x target conversion) target
  | union {members : List SetId} {t : TypeId} (htwo : 2 ≤ members.length)
      (hm : ∀ x ∈ members, ∃ u, a.type? x = some u ∧ s.isSubtype u t = true) :
      HasType s a (.union members) t
  | subquery {statement : Statement} {t : TypeId}
      (hx : a.type? statement.result = some t) :
      HasType s a (.subquery statement) t
  | reference {x : SetId} {t : TypeId} (hx : a.type? x = some t) :
      HasType s a (.reference x) t

variable {s : Schema} {a a' : Arena κ} {op : Operation} {t : TypeId}

omit [NameDigest] in
theorem ReturnsType.mono (h : a.Extends a') {returns : ReturnType}
    {args : List SetId} (hr : ReturnsType a returns args t) :
    ReturnsType a' returns args t := by
  cases returns with
  | concrete type => exact hr
  | sameAs position =>
      obtain ⟨arg, harg, ht⟩ := hr
      exact ⟨arg, harg, h.type? ht⟩

/-- An arena that grows keeps every typing. -/
theorem HasType.mono (h : a.Extends a') (ht : HasType s a op t) :
    HasType s a' op t := by
  cases ht with
  | constant value => exact .constant value
  | emptySet t => exact .emptySet t
  | logical hop hl hr ht hu =>
      exact .logical hop (h.type? hl) (h.type? hr) ht hu
  | comparison hop hl hr ht hu hsub =>
      exact .comparison hop (h.type? hl) (h.type? hr) ht hu hsub
  | objects hop hl hr ht hu htv huv =>
      exact .objects hop (h.type? hl) (h.type? hr) ht hu htv huv
  | concat hl hr ht hu => exact .concat (h.type? hl) (h.type? hr) ht hu
  | integers hop hl hr ht hu =>
      exact .integers hop (h.type? hl) (h.type? hr) ht hu
  | floats hop hl hr ht hu => exact .floats hop (h.type? hl) (h.type? hr) ht hu
  | not hx ht => exact .not (h.type? hx) ht
  | neg hx ht => exact .neg (h.type? hx) ht
  | «exists» hx => exact .exists (h.type? hx)
  | call hf hargs hret =>
      refine .call hf (hargs.imp ?_) (hret.mono h)
      intro param arg h
      obtain ⟨u, hu, htakes⟩ := h
      exact ⟨u, h.type? hu, htakes⟩
  | cast hx hc => exact .cast (h.type? hx) hc
  | union htwo hm =>
      refine .union htwo fun x hx => ?_
      obtain ⟨u, hu, hsub⟩ := hm x hx
      exact ⟨u, h.type? hu, hsub⟩
  | subquery hx => exact .subquery (h.type? hx)
  | reference hx => exact .reference (h.type? hx)

end PathQuery.Ir
