import TaskShell.Editor.Command

/-!
# Keys of commands

Which keys stand for which commands, and when. Of several bindings that fit, the
one that names its keys most exactly counts, and among those the last.
-/

namespace TaskShell.Editor

inductive Stroke where
  | key (k : Key)
  | any
  deriving DecidableEq, Repr

def Stroke.fits : Stroke → Key → Bool
  | key k, k' => k == k'
  | any, _ => true

inductive Condition where
  | always
  /-- Nothing is selected. -/
  | inserting
  | selecting
  /-- Something is selected with the shift key. -/
  | shifting
  /-- Nothing is selected and there is a text. -/
  | filled
  | searching
  /-- The main line is edited. -/
  | editing
  /-- The main line is edited and nothing is selected. -/
  | typing
  /-- The main line is edited and empty. -/
  | blank
  | quoting
  | counting
  | uncounted
  /-- The count is a lone minus sign. -/
  | negative
  deriving DecidableEq, Repr

def Condition.holds (s : State) : Condition → Bool
  | always => true
  | inserting => s.buffer.selection.isNone
  | selecting => s.buffer.selection.isSome
  | shifting => s.buffer.selection.any Selection.shifted
  | filled => s.buffer.selection.isNone && !s.buffer.text.isEmpty
  | searching => s.searching
  | editing => !s.searching
  | typing => !s.searching && s.main.selection.isNone
  | blank => !s.searching && s.main.text.isEmpty
  | quoting => s.quoting
  | counting => s.count.isSome
  | uncounted => s.count.isNone
  | negative => s.count == some ['-']

structure Binding where
  strokes : List Stroke
  when_ : Condition
  command : Command
  /-- Whether the command does not wait for a longer sequence. -/
  eager : Bool
  deriving Repr

namespace Binding

def on (keys : List Key) (when_ : Condition) (command : Command) : Binding :=
  ⟨keys.map .key, when_, command, false⟩

def of (keys : List Key) (command : Command) : Binding :=
  on keys .always command

def fits (b : Binding) (keys : List Key) : Bool :=
  b.strokes.length == keys.length &&
    (b.strokes.zip keys).all fun (stroke, k) => stroke.fits k

/-- Whether keys are the first of those of the binding, but not all. -/
def starts (b : Binding) (keys : List Key) : Bool :=
  keys.length < b.strokes.length &&
    (b.strokes.zip keys).all fun (stroke, k) => stroke.fits k

def vague (b : Binding) : Nat := (b.strokes.filter (· == .any)).length

end Binding

open Binding

def shiftMoves : List Key :=
  [.shiftPad .left, .shiftPad .right, .shiftPad .up, .shiftPad .down,
    .shiftPad .home, .shiftPad .end_, .controlShiftPad .left,
    .controlShiftPad .right, .controlShiftPad .home, .controlShiftPad .end_]

def plainMoves : List Key :=
  [.pad .left, .pad .right, .pad .up, .pad .down, .pad .home, .pad .end_,
    .controlPad .left, .controlPad .right, .controlPad .home, .controlPad .end_]

/-- Keys that are not put into the text, even if they stand for nothing. -/
def silentKeys : List Key :=
  ("abcdefghijklmnopqrstuvwxyz@\\]^_".toList.map Key.control) ++
    ((List.range' 1 24).map Key.function) ++
    [.pad .up, .pad .down, .pad .right, .pad .left, .shiftPad .up,
      .shiftPad .down, .shiftPad .right, .shiftPad .left,
      .pad .home, .pad .end_, .shiftPad .home, .shiftPad .end_, .pad .delete,
      .shiftPad .delete, .controlPad .delete,
      .pad .pageUp, .pad .pageDown, .shiftTab, .controlShiftPad .left,
      .controlShiftPad .right, .controlShiftPad .home,
      .controlShiftPad .end_, .controlPad .left, .controlPad .right,
      .controlPad .up, .controlPad .down,
      .controlPad .home, .controlPad .end_, .pad .insert, .shiftPad .insert,
      .controlPad .insert, .idle]

def basicBindings : List Binding :=
  (silentKeys.map fun k => of [k] .ignore) ++
  [of [.pad .home] .lineStart, of [.pad .end_] .lineEnd, of [.pad .left] .left,
    of [.pad .right] .right, of [.controlPad .up] .older, of [.controlPad .down]
    .newer, of [.control 'l'] .ignore, on [.control 'k'] .inserting .killLine,
    on [.control 'u'] .inserting .discardLine, on [.backspace] .inserting
    .rubOut, on [.pad .delete] .inserting .deleteChar, on [.controlPad .delete]
    .inserting .deleteChar, ⟨[.any], .inserting, .insertKey, false⟩,
    on [.control 't'] .inserting .transpose,
    on [.tab] .inserting .complete, on [.shiftTab] .inserting .completeBack,
    on [.control 'w'] .inserting (.rubOutWord true),
    on [.pad .pageUp] .inserting .older, on [.pad .pageDown] .inserting .newer,
    on [.control 'd'] .filled .deleteChar, on [.enter] .inserting .newline,
    of [.control 'j'] (.pressKey ⟨.enter, ['\r']⟩), of [.pad .up] .up,
    of [.pad .down] .down, on [.pad .delete] .selecting .cut,
    of [.control 'z'] .insertInput, of [.paste] .insertPaste,
    ⟨[.any], .quoting, .insertLiteral, true⟩]

def editingBindings : List Binding :=
  [of [.escape] .ignore, of [.control 'a'] .lineStart, of [.control 'b'] .left,
    on [.controlPad .delete] .inserting .killWord, of [.control 'e'] .lineEnd,
    of [.control 'f'] .right,
    of [.controlPad .left] .wordLeft, of [.controlPad .right] .wordRight,
    on [.control 'x', .char 'r', .char 'y'] .inserting .yank,
    on [.control 'y'] .inserting .yank,
    of [.escape, .char 'b'] .wordLeft,
    on [.escape, .char 'c'] .inserting (.letterWord .title),
    on [.escape, .char 'd'] .inserting .killWord,
    of [.escape, .char 'f'] .wordRight,
    on [.escape, .char 'l'] .inserting (.letterWord .lower),
    on [.escape, .char 'u'] .inserting (.letterWord .upper),
    on [.escape, .char 'y'] .inserting .yankEarlier,
    on [.escape, .backspace] .inserting (.rubOutWord false),
    on [.escape, .char '\\'] .inserting .dropBlanks,
    of [.controlPad .home] .textStart,
    of [.controlPad .end_] .textEnd, on [.control '_'] .inserting .undo,
    on [.control 'x', .control 'u'] .inserting .undo,
    on [.escape, .char '<'] .inserting .firstEntry,
    on [.escape, .char '>'] .inserting .lastEntry,
    on [.escape, .char '.'] .inserting .recallLast,
    on [.escape, .char '_'] .inserting .recallLast,
    on [.escape, .control 'y'] .inserting .recallNth,
    on [.escape, .char '#'] .inserting .comment, of [.control 'o'] .accept,
    on [.control 'q'] .inserting .quote,
    of [.control 'x', .char '('] .startTeaching,
    of [.control 'x', .char ')'] .endTeaching,
    of [.control 'x', .char 'e'] .repeatTaught, of [.control 'n'] .nextLine,
    of [.control 'p'] .up] ++
  ("0123456789".toList.flatMap fun c =>
    [of [.escape, .char c] (.digit c), on [.char c] .counting (.digit c)]) ++
  [on [.escape, .char '-'] .uncounted .minus,
    on [.char '-'] .negative .minusAgain, on [.escape, .enter] .typing .accept,
    ⟨[.key (.control ']'), .any], .always, .findChar, false⟩,
    ⟨[.key .escape, .key (.control ']'), .any], .always, .findCharBack, false⟩,
    of [.escape, .char 'a'] .ignore,
    of [.escape, .char 'e'] .ignore, on [.escape, .char 't'] .inserting .ignore,
    on [.escape, .char '*'] .inserting .insertAll,
    of [.control 'x', .control 'x'] .toggleEnds, of [.controlSpace] .select,
    on [.control 'g'] .inserting .closeMenu, on [.control 'g'] .selecting
    .deselect, on [.control 'x', .char 'r', .char 'k'] .selecting .cut,
    on [.control 'w'] .selecting .cut, on [.escape, .char 'w'] .selecting .copy,
    of [.escape, .pad .left] .previousWord, of [.escape, .pad .right] .nextWord,
    on [.escape, .char '/'] .inserting .completeFirst,
    on [.control 'c', .char '>'] .selecting .indent,
    on [.control 'c', .char '<'] .selecting .unindent]

def searchBindings : List Binding :=
  [on [.control 'r'] .editing (.startSearch .backward), on [.control 's']
    .editing (.startSearch .forward), on [.control 'c'] .searching .abortSearch,
    on [.control 'g'] .searching .abortSearch, on [.control 'r'] .searching
    (.search .backward), on [.control 's'] .searching (.search .forward),
    on [.pad .up] .searching (.search .backward), on [.pad .down]
    .searching (.search .forward), on [.enter] .searching .acceptSearch,
    ⟨[.key .escape], .searching, .acceptSearch, true⟩]

def shiftBindings : List Binding :=
  (shiftMoves.map fun k => on [k] .inserting .shiftSelect) ++
    (shiftMoves.map fun k => on [k] .shifting .shiftExtend) ++
  [⟨[.any], .shifting, .replaceSelection, false⟩, on [.backspace] .shifting
    .dropSelection, on [.control 'y'] .shifting .yankOver] ++
  plainMoves.map fun k => on [k] .shifting .leaveShift

def promptBindings : List Binding :=
  [of [.mouse] .ignore, of [.scrollUp] (.pressKey ⟨.pad .up, []⟩),
    of [.scrollDown] (.pressKey ⟨.pad .down, []⟩), of [.report] .ignore,
    on [.enter] .editing .accept, on [.control 'c'] .editing .interrupt,
    on [.control 'd'] .blank .endInput]

def bindings : List Binding :=
  basicBindings ++ editingBindings ++ searchBindings ++ shiftBindings ++
    promptBindings

def numberedBindings : List (Binding × Nat) := bindings.zipIdx

def fitting (s : State) (keys : List Key) : List (Binding × Nat) :=
  numberedBindings.filter fun (b, _) => b.fits keys && b.when_.holds s

/-- Whether keys may become a longer sequence. -/
def mayExtend (s : State) (keys : List Key) : Bool :=
  bindings.any fun b => b.starts keys && b.when_.holds s

/-- The last of the most exact bindings. -/
def best? (found : List (Binding × Nat)) : Option (Binding × Nat) :=
  found.foldl (fun best b =>
    match best with
    | none => some b
    | some best => if b.1.vague ≤ best.1.vague then some b else some best) none

end TaskShell.Editor
