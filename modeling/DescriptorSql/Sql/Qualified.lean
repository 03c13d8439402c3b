import DescriptorSql.Sql.Identifier
import DescriptorSql.Descriptor.Error

/-!
# `Sql/Qualified.lean` — a column of a table

A qualified column is quoted as it is, its dots included, once the blanks around both names are
gone.
-/

set_option autoImplicit false

namespace DescriptorSql.Sql

/-- `"table"."column"`, unless one of the names is blank. -/
def qualifiedColumn (table column : String) : Except QueryError String :=
  if Text.isBlankText table || Text.isBlankText column then .error (.validation .blankName)
  else .ok (quoteName (Text.trim table) ++ "." ++ quoteName (Text.trim column))

end DescriptorSql.Sql
