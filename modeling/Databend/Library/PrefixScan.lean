import Mathlib

-- scans over keys in lexicographic order

namespace List

variable {α : Type}

variable [LT α] [Std.Asymm (· < · : α → α → Prop)] [Std.Trichotomous (· < · : α → α → Prop)]

end List

namespace String

end String
