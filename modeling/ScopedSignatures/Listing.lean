/-!
# Listings

A row of items as it is shown to a reader: sorted, compared item by item with
the next, and with its repetitions found. Positions count from zero.

## Main definitions

* `Listing.sortedPositions` — the positions of the items in ascending order
* `Listing.neighbours` — each item with the one after it
* `Listing.positionsOf` — where an item stands
* `Listing.distinctCount` — how many different items there are
-/

namespace ScopedSignatures.Listing

variable {α : Type}

/-- The items with their positions, ascending. Items that compare as equal keep their order. -/
def sorted [Ord α] (items : List α) : List (α × Nat) :=
  items.zipIdx.mergeSort fun first second => (compare first.1 second.1).isLE

/-- The positions of the items in ascending order. -/
def sortedPositions [Ord α] (items : List α) : List Nat := (sorted items).map Prod.snd

/-- Each item but the last with the one after it. -/
def neighbours (items : List α) : List (α × α) := items.zip items.tail

/-- Where an item stands, in ascending order. -/
def positionsOf [DecidableEq α] (items : List α) (item : α) : List Nat :=
  (items.zipIdx.filter fun entry => entry.1 = item).map Prod.snd

/-- How many different items there are. -/
def distinctCount [DecidableEq α] (items : List α) : Nat := items.eraseDups.length

end ScopedSignatures.Listing
