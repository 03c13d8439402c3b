import DescriptorSql.Sql.Clauses

/-!
# `Sql/Update.lean` — UPDATE and DELETE statements

Both are a head with a condition and the columns to return. Conditions that are added one after the
other all have to hold: each is joined to the ones before by AND.
-/

set_option autoImplicit false

namespace DescriptorSql.Sql

structure Update where
  table : String
  assigned : List (String × Json) := []
  filter : Option String := none
  returning : List String := []

namespace Update

def addFilter (update : Update) (sql : String) : Update :=
  { update with filter := some (andFilter update.filter sql) }

def clauses (update : Update) : Clauses where
  head := serialize <|
    [.keyword .update, .space, .ident update.table, .space, .keyword .set, .space] ++
      assignments update.assigned
  filter := update.filter
  returning := update.returning

def tokens (update : Update) : List Token := update.clauses.tokens {}

def toSql (update : Update) : String := update.clauses.toSql {}

end Update

structure Delete where
  table : String
  filter : Option String := none
  returning : List String := []

namespace Delete

def addFilter (delete : Delete) (sql : String) : Delete :=
  { delete with filter := some (andFilter delete.filter sql) }

def clauses (delete : Delete) : Clauses where
  head := serialize [.keyword .delete, .space, .keyword .«from», .space, .ident delete.table]
  filter := delete.filter
  returning := delete.returning

def tokens (delete : Delete) : List Token := delete.clauses.tokens {}

def toSql (delete : Delete) : String := delete.clauses.toSql {}

end Delete

end DescriptorSql.Sql
