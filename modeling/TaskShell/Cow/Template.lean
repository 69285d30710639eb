import TaskShell.Cow.Bubble
import TaskShell.Cow.TemplatesA
import TaskShell.Cow.TemplatesB

/-!
# Cow templates

A template file assigns a drawing, set off by end marks, and may give default
eyes and a default tongue. Rendering puts the eyes and the tongue in their
places and clears the line to the speaker.
-/

namespace TaskShell.Cow

open Text

def templates : List (String × String) := templatesA ++ templatesB

structure Template where
  art : String
  eyes : Option String
  tongue : Option String
  deriving DecidableEq, Repr

/-- The mark that ends a drawing, with the line break before it. -/
def endMark : List Char := "\nEOC".toList

def dropQuote : List Char → List Char
  | '\'' :: cs => cs
  | '"' :: cs => cs
  | cs => cs

def beforeMark? (cs : List Char) : Option (List Char) :=
  (indexOf? endMark cs).map fun n => cs.take n

/-- The drawing behind an opening mark, up to the `endMark`. Blanks before it
are dropped, as many as leave an end mark. -/
def artAfter? (cs : List Char) : Option (List Char) :=
  let blanks := (cs.takeWhile isBlank).length
  (List.range (blanks + 1)).reverse.findSome? fun n => beforeMark? (cs.drop n)

/-- The drawing assigned at the start of a text. -/
def artAt? (cs : List Char) : Option (List Char) := do
  let cs ← afterStart? "$the_cow".toList cs
  let cs ← afterStart? ['='] (cs.dropWhile isBlank)
  let cs ← afterStart? "<<".toList (cs.dropWhile isBlank)
  let cs ← afterStart? "EOC".toList (dropQuote cs)
  let cs ← afterStart? [';'] (dropQuote cs)
  artAfter? cs

/-- The first result of `f` on the text and its later parts. -/
def firstIn? {α : Type} (f : List Char → Option α) : List Char → Option α
  | [] => f []
  | c :: cs => (f (c :: cs)).or (firstIn? f cs)

def isQuoteMark (c : Char) : Bool := c == '\'' || c == '"'

/-- The default assigned to the variable `name` at the start of a text. -/
def defaultAt? (name : List Char) (cs : List Char) : Option (List Char) := do
  let cs ← afterStart? name cs
  let cs ← afterStart? ['='] (cs.dropWhile isBlank)
  let cs ← afterStart? name (cs.dropWhile isBlank)
  let cs ← afterStart? ['|', '|'] (cs.dropWhile isBlank)
  match cs.dropWhile isBlank with
  | q :: rest =>
    let text := rest.takeWhile fun c => !isQuoteMark c
    if isQuoteMark q && !text.isEmpty && text.length < rest.length then
      some text
    else none
  | [] => none

def isComment (line : List Char) : Bool :=
  (line.dropWhile isBlank).head? == some '#'

def withoutComments (content : List Char) : List Char :=
  List.intercalate ['\n'] ((breakLines content).filter fun l => !isComment l)

/-- What a template file defines once it is `withoutComments`, if it defines a
drawing. -/
def parse (content : String) : Option Template :=
  let cs := withoutComments content.toList
  let default (name : String) :=
    (firstIn? (defaultAt? name.toList) cs).map String.ofList
  (firstIn? artAt? cs).map fun art =>
    ⟨String.ofList (trimEnd (· == '\n') art), default "$eyes",
      default "$tongue"⟩

/-- The first of two texts that is given and not empty, or else `fallback`. -/
def firstGiven (a b : Option String) (fallback : String) : String :=
  let given (s : Option String) : Option String := s.filter fun t => !t.isEmpty
  ((given a).or (given b)).getD fallback

def Template.fill (t : Template) (eyes tongue : Option String) : String :=
  let text := replace t.art "$thoughts" " "
  let text := replace text "$eyes" (firstGiven eyes t.eyes "oo")
  let text := replace text "$tongue" (firstGiven tongue t.tongue "  ")
  let ls :=
    (breakLines text.toList).map fun l => String.ofList (trimEnd isBlank l)
  String.ofList (trimEnd (· == '\n') (joinLines ls).toList)

/-- The drawing of a template file; a file without one has none. -/
def render (content : String) (eyes tongue : Option String) : Option String :=
  match parse content with
  | none => none
  | some t => if t.art.isEmpty then none else some (t.fill eyes tongue)

/-- The bubble above a template. It is set apart from `bubble`, line by line. -/
def templateBubble (message : String) : String :=
  let ls := wrap message bubbleWidth
  let width := ((ls.map String.length).max?).getD 0
  let top := " " ++ copies (width + 2) '_'
  let bottom := " " ++ copies (width + 2) '-'
  if ls.length == 1 then
    joinLines [top, "< " ++ padRight width (ls.headD "") ++ " >", bottom]
  else joinLines
    ([top] ++ (ls.map fun l => "| " ++ padRight width l ++ " |") ++ [bottom])

/-- A bubble above the drawing that `render` gives for a template file, or above
the file itself if it has no drawing. -/
def drawTemplate (message content : String) : String :=
  let art := match render content none none with
    | some art => if art.isEmpty then content else art
    | none => content
  templateBubble message ++ "\n" ++ art

end TaskShell.Cow
