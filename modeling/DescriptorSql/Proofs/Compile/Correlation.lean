import DescriptorSql.Proofs.Compile.Shown
import DescriptorSql.Proofs.Reading.Filter

/-!
# `Proofs/Compile/Correlation.lean` — a SELECT stays tied to the row around it

The SELECT over a relation's rows has a WHERE clause, and what AND connects last in it is the
condition that ties the rows to the row around them (`filterEndsWith_of_selects`). The condition is
put behind the compiled predicate without parentheses, so this rests on what is known of compiled
predicates: they have no OR outside of parentheses.
-/

set_option autoImplicit false

namespace DescriptorSql

open Sql (Alike Grade)

theorem correlation_ne_empty (relation : Relation) : Sql.correlation relation ≠ "" := by
  rw [Ne, ← String.toList_inj]
  unfold Sql.correlation
  split <;> simp [Sql.equate]

theorem filterEndsWith_selectStatement {columns source condition : String} {body : QueryBody}
    {expansion : Expansion} (hcolumns : Alike .inert columns columns)
    (hsource : Alike .inert source source) (hbody : PlainBody body)
    (hexpansion : AlikeExpansion expansion expansion)
    (hcondition : Alike .inert condition condition) (hne : condition ≠ "") :
    Sql.FilterEndsWith (selectStatement columns source body expansion (.condition condition))
      (Text.trim condition) :=
  Sql.Clauses.filterEndsWith_toSql (alike_head hcolumns hsource) hexpansion.joins hexpansion.filter
    hexpansion.having ⟨hbody.groupBy, hbody.orderBy, hbody.limit, hbody.offset, by simp⟩
      hcondition hne

/-- The SELECT over the rows of a relation ends its condition with the correlation. -/
theorem filterEndsWith_of_selects {catalog : Catalog} (hcatalog : AllPlain catalog.written)
    {reference : Reference} (hplain : AllPlain reference.written) {relation : Relation}
    {select : String} (h : reference.Selects catalog relation select) :
    Sql.FilterEndsWith select (Text.trim (Sql.correlation relation)) := by
  cases h with
  | @rows kind name body relation expansion resolved expanded =>
    have hrelation := catalog.plain_of_resolve hcatalog resolved
    obtain ⟨_, -, halike⟩ := (agree_expandBody hcatalog hplain).exists_ok expanded
    obtain ⟨hbody, -⟩ := allPlain_body hplain
    exact filterEndsWith_selectStatement (hbody.rowsColumns kind).alike_selectList
      hrelation.alike_relationSource hbody halike.right hrelation.alike_correlation
      (correlation_ne_empty relation)
  | @nested name query relation expansion resolved expanded =>
    obtain ⟨hname, hquery⟩ := allPlain_cons.mp hplain
    have hrelation := catalog.plain_of_resolve hcatalog resolved
    obtain ⟨_, -, halike⟩ := (agree_expand hcatalog hquery).exists_ok expanded
    have hplain := PlainQuery.of hquery
    exact filterEndsWith_selectStatement (hplain.outputColumns.alike_objectList hname)
      hrelation.alike_relationSource hplain.body halike.right hrelation.alike_correlation
      (correlation_ne_empty relation)

end DescriptorSql
