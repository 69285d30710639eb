/-!
# Keys and their inputs

The keys of a terminal, presses of keys with the input they came from, and what
a terminal sends for each key. Most inputs come in families that share their
start and end in a sign or a number. Some inputs stand for two keys, the first
of which is escape.
-/

namespace TaskShell.Editor

/-! ## Keys -/

inductive PadKey where
  | up
  | down
  | left
  | right
  | home
  | end_
  | insert
  | delete
  | pageUp
  | pageDown
  deriving DecidableEq, Repr

/-- A key, with the control and shift keys that are held with it. -/
inductive Key where
  | char (c : Char)
  | control (c : Char)
  | controlShift (c : Char)
  | pad (key : PadKey)
  | shiftPad (key : PadKey)
  | controlPad (key : PadKey)
  | controlShiftPad (key : PadKey)
  | escape
  | shiftEscape
  | shiftTab
  | function (number : Nat)
  | controlFunction (number : Nat)
  | scrollUp
  | scrollDown
  /-- A text that is put in at once. -/
  | paste
  | report
  | mouse
  | idle
  deriving DecidableEq, Repr

namespace Key

def enter : Key := .control 'm'

def tab : Key := .control 'i'

def backspace : Key := .control 'h'

def controlSpace : Key := .control '@'

end Key

structure KeyPress where
  key : Key
  data : List Char
  deriving DecidableEq, Repr

/-! ## Inputs -/

def inputsBySign (start signs : String) (keys : List (List Key)) : List (String × List Key) :=
  (signs.toList.zip keys).map fun (sign, ks) => (start.push sign, ks)

def inputsByNumber (numbers : List Nat) (tail : String) (keys : List (List Key)) : List (String × List Key) :=
  (numbers.zip keys).map fun (n, ks) => ("\x1b[" ++ toString n ++ tail, ks)

/-- The keys alone, and the keys after escape. -/
def alone {α : Type} (key : α → Key) (xs : List α) : List (List Key) := xs.map fun x => [key x]

@[inherit_doc alone]
def escaped {α : Type} (key : α → Key) (xs : List α) : List (List Key) := xs.map fun x => [.escape, key x]

def controlInputs : List (String × List Key) :=
  (("@abcdefghijklmnopqrstuvwxyz".toList.zipIdx ++ "\\]^_".toList.zipIdx 28).map fun (c, n) =>
    (String.singleton (Char.ofNat n), [.control c])) ++
  inputsBySign "\x1b[1;5" "pqrstuvwxy" (alone .control "0123456789".toList) ++
  inputsBySign "\x1b[1;6" "pqrstuvwxy" (alone .controlShift "0123456789".toList) ++
  inputsBySign "\x1b[1;7" "pqrstuvwxy" (escaped .control "0123456789".toList) ++
  inputsBySign "\x1b[1;8" "pqrstuvwxy" (escaped .controlShift "0123456789".toList)

/-- The keys that move the cursor; some terminals swap the first two. -/
def cursorKeys : List PadKey := [.up, .down, .right, .left, .end_, .home]

@[inherit_doc cursorKeys]
def swappedKeys : List PadKey := [.down, .up, .right, .left, .end_, .home]

def padInputs : List (String × List Key) :=
  inputsBySign "\x1b[" "ABCDFH" (alone .pad cursorKeys) ++
  inputsBySign "\x1bO" "ABCDFH" (alone .pad cursorKeys) ++
  inputsBySign "\x1b[1;2" "ABCDFH" (alone .shiftPad cursorKeys) ++
  inputsBySign "\x1b[1;3" "ABCDFH" (escaped .pad cursorKeys) ++
  inputsBySign "\x1b[1;4" "ABCDFH" (escaped .shiftPad swappedKeys) ++
  inputsBySign "\x1b[1;5" "ABCDFH" (alone .controlPad cursorKeys) ++
  inputsBySign "\x1b[1;6" "ABCDFH" (alone .controlShiftPad swappedKeys) ++
  inputsBySign "\x1b[1;7" "ABCDFH" (escaped .controlPad swappedKeys) ++
  inputsBySign "\x1b[1;8" "ABCDFH" (escaped .controlShiftPad swappedKeys) ++
  inputsBySign "\x1b[1;9" "ABCD" (escaped .pad cursorKeys) ++
  inputsBySign "\x1b[5" "ABCD" (alone .controlPad cursorKeys) ++
  inputsBySign "\x1bO" "cd" (alone .controlPad [.right, .left]) ++
  inputsByNumber [1, 2, 3, 4, 5, 6, 7, 8] "~"
    (alone .pad [.home, .insert, .delete, .end_, .pageUp, .pageDown, .home, .end_]) ++
  inputsByNumber [3, 5, 6] ";2~" (alone .shiftPad [.delete, .pageUp, .pageDown]) ++
  inputsByNumber [2, 3, 5, 6] ";3~" (escaped .pad [.insert, .delete, .pageUp, .pageDown]) ++
  inputsByNumber [2, 3, 5, 6] ";4~" (escaped .shiftPad [.insert, .delete, .pageUp, .pageDown]) ++
  inputsByNumber [3, 5, 6] ";5~" (alone .controlPad [.delete, .pageUp, .pageDown]) ++
  inputsByNumber [3, 5, 6] ";6~" (alone .controlShiftPad [.delete, .pageUp, .pageDown]) ++
  inputsByNumber [2, 5, 6] ";7~" (escaped .controlPad [.insert, .pageDown, .pageDown]) ++
  inputsByNumber [2, 5, 6] ";8~" (escaped .controlShiftPad [.insert, .pageDown, .pageDown])

def functionInputs : List (String × List Key) :=
  inputsBySign "\x1bO" "PQRS" (alone .function [1, 2, 3, 4]) ++
  inputsBySign "\x1b[[" "ABCDE" (alone .function [1, 2, 3, 4, 5]) ++
  inputsBySign "\x1b[1;2" "PQS" (alone .function [13, 14, 16]) ++
  inputsBySign "\x1b[1;5" "PQS" (alone .controlFunction [1, 2, 4]) ++
  inputsBySign "\x1b[1;6" "PQS" (alone .controlFunction [13, 14, 16]) ++
  inputsByNumber [11, 12, 13, 14, 15, 17, 18, 19, 20, 21, 23, 24, 25, 26, 28, 29, 31, 32, 33, 34] "~"
    (alone .function (List.range' 1 20)) ++
  inputsByNumber [15, 17, 18, 19, 20, 21, 23, 24] ";2~" (alone .function (List.range' 17 8)) ++
  inputsByNumber [15, 17, 18, 19, 20, 21, 23, 24] ";5~" (alone .controlFunction (List.range' 5 8)) ++
  inputsByNumber [15, 17, 18, 19, 20, 21, 23, 24] ";6~" (alone .controlFunction (List.range' 17 8))

def keyTable : List (String × List Key) :=
  controlInputs ++ padInputs ++ functionInputs ++
  [("\x1b", [.escape]), ("\x9b", [.shiftEscape]), ("\x7f", [.control 'h']), ("\x1b[Z", [.shiftTab]),
   ("\x1b\x09", [.shiftTab]), ("\x1b[~", [.shiftTab]), ("\x1b[27;2;13~", [.control 'm']),
   ("\x1b[27;5;13~", [.control 'm']), ("\x1b[27;6;13~", [.control 'm']), ("\x1b[62~", [.scrollUp]),
   ("\x1b[63~", [.scrollDown]), ("\x1b[200~", [.paste]), ("\x1b[E", [.idle]), ("\x1b[G", [.idle])]

end TaskShell.Editor
