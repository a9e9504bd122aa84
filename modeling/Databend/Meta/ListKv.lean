import Mathlib
import Databend.Library.PrefixScan
import Databend.Meta.Upsert

namespace Databend.Meta

variable {LogId Membership Node : Type} {kmerge : ∀ {α : Type}, (α → α → Except String Bool) → List (List α) → Except String (List α)}

section Range

variable {K V : Type} [LinearOrder K] (ms : List (SortedMap K (Marked V))) (lo : K)

end Range

namespace SMV002

variable (hk : KMerge.MergeSpec kmerge)
include hk

end SMV002

namespace Applier

section DeleteKeys

variable {sm : SMV002 LogId Membership Node} (h : LevelInv sm.levels)
include h

end DeleteKeys

end Applier

section Reachable

variable [Inhabited Membership]

end Reachable

end Databend.Meta
