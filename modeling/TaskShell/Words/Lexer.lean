import TaskShell.Value
import TaskShell.Words.Split

/-!
# A configurable reader of words

The reader behind word splitting with all its settings open: which characters
make words, separate them, quote, escape, start a comment or form punctuation of
their own. Every token comes with the number of the line on which the reader
stands after it.
-/

namespace TaskShell.Words

structure Rules where
  /-- Whether quotes are removed and escapes are known. -/
  removeQuotes : Bool
  splitAtBlanks : Bool
  blanks : List Char
  comments : List Char
  wordChars : List Char
  punctuation : List Char
  quotes : List Char
  escapes : List Char
  escapedQuotes : List Char

def plainWordChars : List Char :=
  "abcdfeghijklmnopqrstuvwxyzABCDEFGHIJKLMNOPQRSTUVWXYZ0123456789_".toList

def accentedWordChars : List Char :=
  "ßàáâãäåæçèéêëìíîïðñòóôõöøùúûüýþÿÀÁÂÃÄÅÆÇÈÉÊËÌÍÎÏÐÑÒÓÔÕÖØÙÚÛÜÝÞ".toList

def Rules.make (removeQuotes : Bool) (punctuation : List Char) : Rules :=
  let letters := if removeQuotes then plainWordChars ++ accentedWordChars
    else plainWordChars
  let letters :=
    if punctuation.isEmpty then letters
    else (letters ++ "~-./*?=".toList).filter fun c => !punctuation.contains c
  { removeQuotes, splitAtBlanks := false, blanks := " \t\r\n".toList,
    comments := ['#'],
    wordChars := letters, punctuation, quotes := ['\'', '"'], escapes := ['\\'],
    escapedQuotes := ['"'] }

def shellPunctuation : List Char := "();<>|&".toList

/-- The rules that settings ask for: those a reader is made with, and those that
are changed on it. -/
def Rules.ofSettings (made changed : Args) : Rules :=
  let punctuation := match made.get? "punctuation_chars" with
    | some (.text s) => s.toList
    | some v => if v.isTruthy then shellPunctuation else []
    | none => []
  let base := make (made.getD "posix" (.bool false)).isTruthy punctuation
  let chars (name : String) (fallback : List Char) : List Char :=
    match changed.get? name with
    | some (.text s) => s.toList
    | _ => fallback
  { base with
    splitAtBlanks := (changed.getD "whitespace_split" (.bool false)).isTruthy
    blanks := chars "whitespace" base.blanks
    comments := chars "commenters" base.comments
    wordChars := chars "wordchars" base.wordChars
    quotes := chars "quotes" base.quotes
    escapes := chars "escape" base.escapes
    escapedQuotes := chars "escapedquotes" base.escapedQuotes }

inductive Stand where
  | between
  | word
  | punct
  | quote (q : Char)
  /-- Behind an escape; `back` is the quote it stands in, if any. -/
  | escape (e : Char) (back : Option Char)
  /-- In a comment, with the stand to go on with after the line. -/
  | comment (inWord : Bool)

/-- The state of the reader: its `Stand`, the token so far (last character
first), and the line. -/
structure Scan where
  stand : Stand
  token : List Char
  line : Nat

/-- A token with the line on which the reader stands after it. -/
abbrev Token := String × Nat

def Scan.emit (s : Scan) : Token := (String.ofList s.token.reverse, s.line)

def Scan.fresh (s : Scan) : Scan := { s with stand := .between, token := [] }

/-- What one character does between words: the tokens it finishes and the new
scan. -/
def stepBetween (r : Rules) (c : Char) (s : Scan) : List Token × Scan :=
  if r.blanks.contains c then ([], s)
  else if r.comments.contains c then
    ([], { s with stand := .comment false, line := s.line + 1 })
  else if r.removeQuotes && r.escapes.contains c then
    ([], { s with stand := .escape c none })
  else if r.wordChars.contains c then
    ([], { s with stand := .word, token := [c] })
  else if r.punctuation.contains c then
    ([], { s with stand := .punct, token := [c] })
  else if r.quotes.contains c then
    ([],
      { s with stand := .quote c, token := if r.removeQuotes then [] else [c] })
  else if r.splitAtBlanks then ([], { s with stand := .word, token := [c] })
  else
    let s := { s with token := [c] }
    ([s.emit], s.fresh)

def stepWord (r : Rules) (c : Char) (s : Scan) : List Token × Scan :=
  if r.blanks.contains c then ([s.emit], s.fresh)
  else if r.comments.contains c then
    let s := { s with line := s.line + 1 }
    if r.removeQuotes then ([s.emit], { s.fresh with stand := .comment false })
    else ([], { s with stand := .comment true })
  else if r.removeQuotes && r.quotes.contains c then
    ([], { s with stand := .quote c })
  else if r.removeQuotes && r.escapes.contains c then
    ([], { s with stand := .escape c none })
  else if r.wordChars.contains c || r.quotes.contains c
      || (r.splitAtBlanks && !r.punctuation.contains c) then
    ([], { s with token := c :: s.token })
  else if r.punctuation.isEmpty then
    -- the character is a token of its own
    ([s.emit, (c.toString, s.line)], s.fresh)
  else
    -- the character is read again, after the word
    let (more, s') := stepBetween r c { s.fresh with line :=
      if c == '\n' then s.line + 1 else s.line }
    (s.emit :: more, s')

def stepPunct (r : Rules) (c : Char) (s : Scan) : List Token × Scan :=
  if r.blanks.contains c then ([s.emit], s.fresh)
  else if r.comments.contains c then
    let s := { s with line := s.line + 1 }
    if r.removeQuotes then ([s.emit], { s.fresh with stand := .comment false })
    else ([], { s with stand := .comment true })
  else if r.punctuation.contains c then ([], { s with token := c :: s.token })
  else
    let (more, s') := stepBetween r c { s.fresh with line :=
      if c == '\n' then s.line + 1 else s.line }
    (s.emit :: more, s')

def step (r : Rules) (c : Char) (s : Scan) : List Token × Scan :=
  match s.stand with
  | .comment inWord =>
    if c == '\n' then
      ([], { s with stand := if inWord then .word else .between })
    else ([], s)
  | .between => stepBetween r c (newline s)
  | .word => stepWord r c (newline s)
  | .punct => stepPunct r c (newline s)
  | .quote q =>
    let s := newline s
    if c == q then
      if r.removeQuotes then ([], { s with stand := .word })
      else
        let s := { s with token := c :: s.token }
        ([s.emit], s.fresh)
    else if r.removeQuotes && r.escapes.contains c &&
        r.escapedQuotes.contains q then
      ([], { s with stand := .escape c (some q) })
    else ([], { s with token := c :: s.token })
  | .escape e back =>
    let s := newline s
    match back with
    | none => ([], { s with stand := .word, token := c :: s.token })
    | some q =>
      let token := if c != e && c != q then c :: e :: s.token else c :: s.token
      ([], { s with stand := .quote q, token })
where
  newline (s : Scan) : Scan :=
    if c == '\n' then { s with line := s.line + 1 } else s

/-- The tokens of a text from a `Scan` on, with the fault that stopped the
reader, if any. -/
def tokensFrom (r : Rules) : List Char → Scan → List Token × Option SplitFault
  | [], s =>
    match s.stand with
    | .between => ([], none)
    | .comment false => ([], none)
    | .quote _ => ([], some .openQuote)
    | .escape _ _ => ([], some .openEscape)
    | _ => ([s.emit], none)
  | c :: cs, s =>
    let (done, s') := step r c s
    let (more, fault) := tokensFrom r cs s'
    (done ++ more, fault)

/-- The tokens of a text, with the fault that stopped the reader, if any. -/
def tokens (r : Rules) (text : String) : List Token × Option SplitFault :=
  tokensFrom r text.toList ⟨.between, [], 1⟩

def splitBlanks (posix comments : Bool) (text : String) :
    Except SplitFault (List String) :=
  let base := Rules.make posix []
  match tokens { base with splitAtBlanks := true, comments :=
    if comments then base.comments else [] } text with
  | (found, none) => .ok (found.map (·.1))
  | (_, some fault) => .error fault

end TaskShell.Words
