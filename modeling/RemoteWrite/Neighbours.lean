/-!
# Neighbours in a list

Order along a list, and change along it, is a statement about the pairs of elements that stand next
to each other.
-/

namespace RemoteWrite

/-- The pairs of elements that stand next to each other, in their order. -/
def neighbours {α : Type} (as : List α) : List (α × α) := as.zip as.tail

end RemoteWrite
