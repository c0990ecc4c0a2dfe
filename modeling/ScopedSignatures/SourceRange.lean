/-!
# Source ranges

The part of a source file that a declaration was read from, as two byte offsets
of 32 bits. Nothing forces the first offset to come before the second; a range
whose offsets are the wrong way round is empty.

## Main definitions

* `SourceRange` — a first offset and the one after the last
* `SourceRange.length`, `SourceRange.isEmpty` — how many bytes a range covers
* `SourceRange.merge`, `SourceRange.merges` — the range that covers two, and a row of merges
* `SourceRange.ofOffsets` — the range between two offsets, if both fit
-/

namespace ScopedSignatures

/-- Two byte offsets into a source file, the second of them exclusive. -/
@[ext]
structure SourceRange where
  start : UInt32
  stop : UInt32
  deriving DecidableEq, Repr

/-- Why two offsets make no range. -/
inductive RangeError where
  | startTooLarge (offset : Nat)
  | stopTooLarge (offset : Nat)
  deriving DecidableEq, Repr

/-- The sentence shown to a reader. -/
def RangeError.message : RangeError → String
  | startTooLarge offset => "span start " ++ toString offset ++ " exceeds u32::MAX"
  | stopTooLarge offset => "span end " ++ toString offset ++ " exceeds u32::MAX"

namespace SourceRange

/-- The range of a declaration that was read from no file. -/
def dummy : SourceRange := ⟨0, 0⟩

instance : Inhabited SourceRange := ⟨dummy⟩

/-- The number of bytes in the range, none if its offsets are the wrong way round. -/
def length (range : SourceRange) : UInt32 :=
  if range.start ≤ range.stop then range.stop - range.start else 0

/-- Whether the range covers no byte. -/
def isEmpty (range : SourceRange) : Bool := range.stop ≤ range.start

/-- The range from the smaller start to the larger stop. -/
def merge (first second : SourceRange) : SourceRange :=
  ⟨min first.start second.start, max first.stop second.stop⟩

/-- The ranges that come of merging others into a range, one after the other. -/
def merges (range : SourceRange) : List SourceRange → List SourceRange
  | [] => []
  | other :: others => range.merge other :: merges (range.merge other) others

/-- The range between two offsets. The start is looked at first. -/
def ofOffsets (start stop : Nat) : Except RangeError SourceRange :=
  if UInt32.size ≤ start then .error (.startTooLarge start)
  else if UInt32.size ≤ stop then .error (.stopTooLarge stop)
  else .ok ⟨.ofNat start, .ofNat stop⟩

/-- Both offsets with two dots between them. -/
protected def toString (range : SourceRange) : String :=
  toString range.start ++ ".." ++ toString range.stop

instance : ToString SourceRange := ⟨SourceRange.toString⟩

end SourceRange

end ScopedSignatures
