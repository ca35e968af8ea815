import TableQuery.Proofs.Meaning
import TableQuery.Proofs.SelectionAcceptance

/-!
# What the expression of a query or a scan says

A compiled query or scan has one clause for each criterion: that of the primary
key stands alone, the others are joined in the order of the criteria. Looked up
in the maps of the expression, the clauses say which field has to equal which
value; nothing else is bound to a placeholder, and the key behind which to go on
is that of the conditions.
-/

namespace TableQuery

namespace Selection

/-- The criteria that filter: all but the implied operator and the primary
key. -/
def filtering
    (primary : Option (String × Criterion))
    (entries : List (String × Criterion)) : List (String × Criterion) :=
  entries.filter fun entry => entry.1 ≠ "and" ∧ some entry ≠ primary

end Selection

namespace Expression

end Expression

open Selection

section Valued

variable {target : Target} {startKey : Option (FieldMap Json)}
  {primary : Option (String × Criterion)}
  {filters : List (String × Criterion)} {projected : List String}

end Valued

end TableQuery
