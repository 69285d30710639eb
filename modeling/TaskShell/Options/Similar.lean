/-!
# Similar texts

The likeness of two texts is twice the number of characters in their common
blocks, over the number of all their characters. Common blocks are found by
taking the longest one and going on at both sides of it.
-/

namespace TaskShell.Options

/-- The number of characters that two texts have in common at their starts. -/
def commonStart : List Char → List Char → Nat
  | a :: as, b :: bs => if a == b then commonStart as bs + 1 else 0
  | _, _ => 0

/-- The longest common block of two texts: its places and its length. Of equal
blocks the first one counts. -/
def longestBlock (as bs : List Char) : Nat × Nat × Nat :=
  (List.range as.length).foldl (fun best i =>
    (List.range bs.length).foldl (fun best j =>
      let size := commonStart (as.drop i) (bs.drop j)
      if size > best.2.2 then (i, j, size) else best) best) (0, 0, 0)

def commonCount (as bs : List Char) : Nat → Nat
  | 0 => 0
  | fuel + 1 =>
    match longestBlock as bs with
    | (_, _, 0) => 0
    | (i, j, size) =>
      size + commonCount (as.take i) (bs.take j) fuel +
        commonCount (as.drop (i + size)) (bs.drop (j + size)) fuel

/-- The common characters of two texts and the number of all their
characters. -/
def likeness (a b : String) : Nat × Nat :=
  (2 * commonCount a.toList b.toList (a.length + 1), a.length + b.length)

def likenessLess (a b : Nat × Nat) : Bool := a.1 * b.2 < b.1 * a.2

/-- The candidate that is most like a word, if it is like enough; of equal ones
the greatest text. -/
def closest? (word : String) (candidates : List String) : Option String :=
  let scored := candidates.filterMap fun c =>
    let (common, total) := likeness c word
    if total == 0 then some (c, (1, 1))
    else if 10 * common ≥ 6 * total then some (c, (common, total)) else none
  (scored.foldl (fun best item =>
    match best with
    | none => some item
    | some old =>
      if likenessLess old.2 item.2 || (!likenessLess item.2 old.2 && old.1 <
        item.1) then some item else some old)
    none).map (·.1)

end TaskShell.Options
