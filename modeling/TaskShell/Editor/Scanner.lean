import TaskShell.Editor.KeyTable
import TaskShell.Text.Case
import TaskShell.Text.Search

/-!
# Scanning terminal input

A terminal sends characters; the scanner turns them into presses of keys. What
may be the start of a longer input is held back until more arrives or the
scanner is flushed.
-/

namespace TaskShell.Editor

open Text

/-- What the scanner holds: characters that may become a key, or the text that
is being pasted. -/
structure Scanner where
  held : List Char
  pasted : Option (List Char)
  deriving Repr

def Scanner.empty : Scanner := ⟨[], none⟩

def pasteEnd : List Char := "\x1b[201~".toList

def inSequence? : List Char → Option (List Char)
  | '\x1b' :: '[' :: rest => some rest
  | _ => none

/-- Whether a character may stand among numbers. -/
def isNumeric (c : Char) : Bool := isDecimal c || c == ';'

def isReport (cs : List Char) : Bool :=
  match inSequence? cs with
  | none => false
  | some body =>
    let row := body.takeWhile isDecimal
    match body.drop row.length with
    | ';' :: rest =>
      let column := rest.takeWhile isDecimal
      !row.isEmpty && !column.isEmpty && rest.drop column.length == ['R']
    | _ => false

def dropLess : List Char → List Char
  | '<' :: cs => cs
  | cs => cs

def isMouse (cs : List Char) : Bool :=
  match inSequence? cs with
  | none => false
  | some ['M', a, b, c] => [a, b, c].all (· != '\n')
  | some body =>
    let body := dropLess body
    let numbers := body.takeWhile isNumeric
    !numbers.isEmpty &&
      (body.drop numbers.length == ['m'] || body.drop numbers.length == ['M'])

def startsReport (cs : List Char) : Bool :=
  match inSequence? cs with
  | none => false
  | some ('M' :: rest) => rest.length ≤ 2 && rest.all (· != '\n')
  | some body => (dropLess body).all isNumeric

def keysOf? (cs : List Char) : Option (List Key) :=
  if isReport cs then some [.report]
  else if isMouse cs then some [.mouse]
  else keyTable.lookup (String.ofList cs)

/-- Whether characters may become a longer input. -/
def mayGrow (cs : List Char) : Bool :=
  startsReport cs || keyTable.any fun (input, _) => input.length >
    cs.length && cs.isPrefixOf input.toList

/-- Presses of keys that came from one input; the first of them carries it. -/
def pressesOf (keys : List Key) (data : List Char) : List KeyPress :=
  match keys.filter (· != .paste) with
  | [] => []
  | k :: ks => ⟨k, data⟩ :: ks.map fun k => ⟨k, []⟩

/-- Takes keys off held characters, trying longer inputs first; also says what
is left, whether a key was found and whether a paste starts. -/
def shift : Nat → List Char → List KeyPress × List Char × Bool × Bool
  | 0, cs => ([], cs, false, false)
  | i + 1, cs =>
    match keysOf? (cs.take (i + 1)) with
    | none => shift i cs
    | some keys =>
      let (more, rest, _, pastes) := shift i (cs.drop (i + 1))
      (pressesOf keys (cs.take (i + 1)) ++ more, rest, true,
        pastes || keys.contains .paste)

/-- Turns held characters into keys as far as they are certain; a flush makes
them so once. `fuel` bounds the number of steps. -/
def settle : Nat → Bool → List Char → List KeyPress × Scanner
  | 0, _, cs => ([], ⟨cs, none⟩)
  | _, _, [] => ([], .empty)
  | fuel + 1, flush, c :: cs =>
    if mayGrow (c :: cs) && !flush then ([], ⟨c :: cs, none⟩)
    else
      match keysOf? (c :: cs) with
      | some keys =>
        (pressesOf keys (c :: cs),
          ⟨[], if keys.contains .paste then some [] else none⟩)
      | none =>
        let (found, rest, any, pastes) := shift (cs.length + 1) (c :: cs)
        let (found, rest) :=
          if any then (found, rest) else ([⟨.char c, [c]⟩], cs)
        let (more, scanner) := settle fuel false rest
        (found ++ more,
          if pastes then { scanner with pasted := some [] } else scanner)

def Scanner.feed (s : Scanner) (c : Char) : List KeyPress × Scanner :=
  match s.pasted with
  | some text =>
    let text := text ++ [c]
    if pasteEnd.isSuffixOf text then ([⟨.paste,
      text.take (text.length - pasteEnd.length)⟩], { s with pasted := none })
    else ([], { s with pasted := some text })
  | none => settle (s.held.length + 2) false (s.held ++ [c])

def Scanner.feedAll (s : Scanner) : List Char → List KeyPress × Scanner
  | [] => ([], s)
  | c :: cs =>
    let (presses, s) := s.feed c
    let (more, s) := s.feedAll cs
    (presses ++ more, s)

def Scanner.group (s : Scanner) (cs : List Char) : List KeyPress × Scanner :=
  let (presses, s) := s.feedAll cs
  match s.pasted with
  | some _ => (presses, s)
  | none =>
    let (more, s) := settle (s.held.length + 1) true s.held
    (presses ++ more, s)

end TaskShell.Editor
