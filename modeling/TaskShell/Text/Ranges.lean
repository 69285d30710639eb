/-!
# Sorted code point ranges

A character class is a list of inclusive ranges of code points in increasing
order. Membership walks the list and stops at the first range that starts beyond
the code point.
-/

namespace TaskShell.Text

/-- Inclusive ranges of code points, in increasing order and not touching. -/
abbrev Ranges := List (Nat × Nat)

/-- Ranges as a table writes them: by turns how many code points are skipped,
counted from `next` on, and how many belong to the range that follows. -/
def Ranges.ofGaps (next : Nat) : List Nat → Ranges
  | skipped :: size :: rest =>
    (next + skipped, next + skipped + size - 1) ::
      Ranges.ofGaps (next + skipped + size) rest
  | _ => []

def Ranges.has : Ranges → Nat → Bool
  | [], _ => false
  | (lo, hi) :: rest, code =>
    if code < lo then false
    else if code ≤ hi then true else Ranges.has rest code

/-- One row of a case table: the code points `lo`, `lo + step`, … `hi` move by
`shift`. -/
structure CaseRow where
  lo : Nat
  hi : Nat
  step : Nat
  shift : Int

/-- Rows as a table writes them: how many code points are skipped, counted from
`next` on, the size of the row, its step and its shift. -/
def CaseRow.ofGaps (next : Nat) : List Int → List CaseRow
  | skipped :: size :: step :: shift :: rest =>
    let lo := next + skipped.toNat
    let hi := lo + (size.toNat - 1) * step.toNat
    ⟨lo, hi, step.toNat, shift⟩ :: CaseRow.ofGaps (hi + 1) rest
  | _ => []

/-- Where a case table sends a code point; one outside every row stays. -/
def CaseRow.apply : List CaseRow → Nat → Nat
  | [], code => code
  | row :: rest, code =>
    if code < row.lo then code
    else if code ≤ row.hi && (code - row.lo) % row.step == 0 then
      ((code : Int) + row.shift).toNat
    else CaseRow.apply rest code

end TaskShell.Text
