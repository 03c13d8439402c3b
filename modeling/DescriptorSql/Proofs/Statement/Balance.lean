import DescriptorSql.Proofs.Lexical.Balance
import DescriptorSql.Proofs.Compile.Shown
import DescriptorSql.Proofs.Statement.Data

/-!
# `Proofs/Statement/Balance.lean` — statements leave nothing open

Parentheses are written by many hands: around lateral subqueries, groups, negations, lists, rows and
conflict targets, some as tokens and some inside of texts. Whatever the nesting, a plain operation
compiles to a text in which every quote and every parenthesis is closed again
(`Statement.isBalanced_compile`). Names and values may hold quotes, and values parentheses: inside
of quotes they do not count.
-/

set_option autoImplicit false

namespace DescriptorSql.Statement

/-- The statement of a plain operation leaves no quote and no parenthesis open, and closes none that
is not open. -/
theorem isBalanced_compile (statement : Statement) (hplain : AllPlain statement.written)
    (sql : String) (hok : statement.compile = .ok sql) : Sql.IsBalanced sql := by
  obtain ⟨emptied, -, halike⟩ := (agree_compile hplain).exists_ok hok
  obtain ⟨items, hitems, -⟩ := halike.items
  exact Sql.isBalanced_of_items? hitems

/-- Artists with albums nested into them, and conditions at every depth: a negated group, a list, a
range and subqueries, with quotes and parentheses in names and values. -/
def quotedStatement : Statement :=
  find ⟨"artists", some "a\x22", .mk { QueryBody.empty with
      filter := some (.ofEntries
        [("NOT", .negation (.ofEntries [("OR", .anyOf
            [.ofEntries [("name", .equals (.string "it's :)"))],
              .ofEntries
                [("year", .comparisons [(.between, .list [.string "((", .string "'"])])]])])),
          ("id", .comparisons
            [(.isIn, .subqueries [("albums", SubQuery.empty)]),
              (.notIn, .list [.string ")", .null])]),
          ("exists", .existence [("albums", .rowsOf ⟨none, { QueryBody.empty with
            filter := some (existsFilter "albums") }⟩)])]) }
    [("albums", nestedQuery)], albumCatalog⟩

theorem isBalanced_compile_quotedStatement :
    ∃ sql, (AllPlain quotedStatement.written ∧ quotedStatement.compile = .ok sql) ∧
      Sql.IsBalanced sql := by
  have hplain : AllPlain quotedStatement.written := by decide
  obtain ⟨sql, hok⟩ : ∃ sql, quotedStatement.compile = .ok sql := exists_eq_ok (by decide)
  exact ⟨sql, ⟨hplain, hok⟩, isBalanced_compile quotedStatement hplain sql hok⟩

end DescriptorSql.Statement
