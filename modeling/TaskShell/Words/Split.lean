import TaskShell.Text.Blank

/-!
# Splitting a command line into words

Blanks separate words. A single quote takes everything up to the next one
literally, a double quote lets a backslash escape itself and the quote, and
outside quotes a backslash takes the next character literally.
-/

namespace TaskShell.Words

inductive SplitFault where
  | openQuote
  | openEscape
  deriving DecidableEq, Repr

def SplitFault.message : SplitFault → String
  | openQuote => "No closing quotation"
  | openEscape => "No escaped character"

inductive Mode where
  | between
  /-- In a word, outside quotes. -/
  | bare
  /-- Behind the given opening quote. -/
  | quote (q : Char)
  /-- Behind a backslash outside quotes. -/
  | escape
  /-- Behind a backslash in double quotes. -/
  | quotedEscape
  deriving DecidableEq, Repr

def isSeparator (c : Char) : Bool :=
  c == ' ' || c == '\t' || c == '\r' || c == '\n'

def isQuote (c : Char) : Bool :=
  c == '\'' || c == '"'

/-- The words from the mode `mode` on; `word` holds the word being read, last
character first. -/
def splitFrom :
    List Char → Mode → List Char → Except SplitFault (List (List Char))
  | [], .between, _ => .ok []
  | [], .bare, word => .ok [word.reverse]
  | [], .quote _, _ => .error .openQuote
  | [], .escape, _ => .error .openEscape
  | [], .quotedEscape, _ => .error .openEscape
  | c :: cs, .between, word =>
    if isSeparator c then splitFrom cs .between word
    else if c == '\\' then splitFrom cs .escape []
    else if isQuote c then splitFrom cs (.quote c) []
    else splitFrom cs .bare [c]
  | c :: cs, .bare, word =>
    if isSeparator c then (splitFrom cs .between []).map (word.reverse :: ·)
    else if isQuote c then splitFrom cs (.quote c) word
    else if c == '\\' then splitFrom cs .escape word
    else splitFrom cs .bare (c :: word)
  | c :: cs, .quote q, word =>
    if c == q then splitFrom cs .bare word
    else if c == '\\' && q == '"' then splitFrom cs .quotedEscape word
    else splitFrom cs (.quote q) (c :: word)
  | c :: cs, .escape, word => splitFrom cs .bare (c :: word)
  | c :: cs, .quotedEscape, word =>
    if c == '\\' || c == '"' then splitFrom cs (.quote '"') (c :: word)
    else splitFrom cs (.quote '"') (c :: '\\' :: word)

/-- The words of a line that `splitFrom` finds, or why it does not split. -/
def split (line : String) : Except SplitFault (List String) :=
  (splitFrom line.toList .between []).map (·.map String.ofList)

/-- The words of a line by `split`; a line that does not split falls into the
runs between blanks. -/
def splitOrBlanks (line : String) : List String :=
  match split line with
  | .ok words => words
  | .error _ => Text.words line

/-! ## Joining words for a Windows program -/

/-- The inside of a word. `slashes` counts the backslashes right before; they
are doubled before a quote, and at the end of a quoted word. -/
def joinInside (quoted : Bool) : Nat → List Char → List Char
  | slashes, [] => List.replicate (if quoted then 2 * slashes else slashes) '\\'
  | slashes, '\\' :: rest => joinInside quoted (slashes + 1) rest
  | slashes, '"' :: rest =>
    List.replicate (2 * slashes) '\\' ++ '\\' :: '"' :: joinInside quoted 0 rest
  | slashes, c :: rest =>
    List.replicate slashes '\\' ++ c :: joinInside quoted 0 rest

def joinWord (word : List Char) : List Char :=
  if word.isEmpty || word.contains ' ' || word.contains '\t' then
    '"' :: joinInside true 0 word ++ ['"']
  else joinInside false 0 word

def joinLine (words : List String) : String :=
  " ".intercalate (words.map fun word => String.ofList (joinWord word.toList))

end TaskShell.Words
