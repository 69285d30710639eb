/-!
# Names of characters

The names of the characters that a pattern may call by name: Latin, Greek and
Cyrillic letters, punctuation, common symbols and the control characters by
their usual names.
-/

namespace TaskShell.Text

/-- Parts that many names share. In the lists below a small letter or a sign
stands for one of them, and a line break for a bar. -/
def nameParts : List (Char × String) :=
  [('\n', "|"), ('a', " WITH "), ('l', " SIGN"), ('m', "SMALL "), ('%', "LETTER "), ('r', "TION MARK"), ('+', "STROKE"),
   ('=', "CIRCUMFLEX")]

/-- Names that are written with bars between them, with their shared parts
written out. -/
def spellOut (names : String) : List String :=
  (String.ofList (names.toList.flatMap fun c => ((nameParts.lookup c).map String.toList).getD [c])).splitOn "|"

def latinLetters : String :=
  "A|B|C|D|E|F|G|H|I|J|K|L|M|N|O|P|Q|R|S|T|U|V|W|X|Y|Z"

def accentedLetters : String :=
  "AaGRAVE|AaACUTE|Aa=|AaTILDE|AaDIAERESIS|AaRING ABOVE|AE|CaCEDILLA|EaGRAVE|EaACUTE|Ea=|EaDIAERESIS|IaGRAVE|IaACUTE
Ia=|IaDIAERESIS|ETH|NaTILDE|OaGRAVE|OaACUTE|Oa=|OaTILDE|OaDIAERESIS"

def northernLetters : String :=
  "Oa+|UaGRAVE|UaACUTE|Ua=|UaDIAERESIS|YaACUTE|THORN"

def cyrillicLetters : String :=
  "A|BE|VE|GHE|DE|IE|ZHE|ZE|I|SHORT I|KA|EL|EM|EN|O|PE|ER|ES|TE|U|EF|HA|TSE|CHE|SHA|SHCHA|HARDl|YERU|SOFTl|E|YU|YA"

/-- Runs of names: the first code point, what all names of the run begin with,
and how they go on. -/
def nameRuns : List (Nat × String × String) :=
  [(0x20, "", "SPACE|EXCLAMAr|QUOTAr|NUMBERl|DOLLARl|PERCENTl|AMPERSAND|APOSTROPHE|LEFT PARENTHESIS
RIGHT PARENTHESIS|ASTERISK|PLUSl|COMMA|HYPHEN-MINUS|FULL STOP|SOLIDUS|DIGIT ZERO|DIGIT ONE|DIGIT TWO|DIGIT THREE
DIGIT FOUR|DIGIT FIVE|DIGIT SIX|DIGIT SEVEN|DIGIT EIGHT|DIGIT NINE|COLON|SEMICOLON|LESS-THANl|EQUALSl|GREATER-THANl
QUESr|COMMERCIAL AT"),
   (0x41, "LATIN CAPITAL LETTER ", latinLetters),
   (0x5B, "", "LEFT SQUARE BRACKET|REVERSE SOLIDUS|RIGHT SQUARE BRACKET|= ACCENT|LOW LINE|GRAVE ACCENT"),
   (0x61, "LATIN SMALL LETTER ", latinLetters),
   (0x7B, "", "LEFT CURLY BRACKET|VERTICAL LINE|RIGHT CURLY BRACKET|TILDE"),
   (0xA0, "", "NO-BREAK SPACE|INVERTED EXCLAMAr|CENTl|POUNDl|CURRENCYl|YENl|BROKEN BAR|SECTIONl|DIAERESIS|COPYRIGHTl
FEMININE ORDINAL INDICATOR|LEFT-POINTING DOUBLE ANGLE QUOTAr|NOTl|SOFT HYPHEN|REGISTEREDl|MACRON|DEGREEl|PLUS-MINUSl
SUPERSCRIPT TWO|SUPERSCRIPT THREE|ACUTE ACCENT|MICROl|PILCROWl|MIDDLE DOT|CEDILLA|SUPERSCRIPT ONE
MASCULINE ORDINAL INDICATOR|RIGHT-POINTING DOUBLE ANGLE QUOTAr|VULGAR FRACTION ONE QUARTER|VULGAR FRACTION ONE HALF
VULGAR FRACTION THREE QUARTERS|INVERTED QUESr"),
   (0xC0, "LATIN CAPITAL LETTER ", accentedLetters),
   (0xD7, "", "MULTIPLICATIONl"),
   (0xD8, "LATIN CAPITAL LETTER ", northernLetters),
   (0xDF, "", "LATIN m%SHARP S"),
   (0xE0, "LATIN SMALL LETTER ", accentedLetters),
   (0xF7, "", "DIVISIONl"),
   (0xF8, "LATIN SMALL LETTER ", northernLetters),
   (0xFF, "", "LATIN m%YaDIAERESIS"),
   (0x130, "", "LATIN CAPITAL %IaDOT ABOVE|LATIN m%DOTLESS I|LATIN CAPITAL LIGATURE IJ|LATIN mLIGATURE IJ"),
   (0x138, "", "LATIN m%KRA"),
   (0x149, "", "LATIN m%N PRECEDED BY APOSTROPHE"),
   (0x152, "", "LATIN CAPITAL LIGATURE OE|LATIN mLIGATURE OE"),
   (0x178, "", "LATIN CAPITAL %YaDIAERESIS"),
   (0x17F, "", "LATIN m%LONG S"),
   (0x391, "GREEK CAPITAL LETTER ", "ALPHA|BETA|GAMMA|DELTA|EPSILON|ZETA|ETA|THETA|IOTA|KAPPA|LAMDA|MU|NU|XI|OMICRON
PI|RHO"),
   (0x3A3, "GREEK CAPITAL LETTER ", "SIGMA|TAU|UPSILON|PHI|CHI|PSI|OMEGA"),
   (0x3B1, "GREEK SMALL LETTER ", "ALPHA|BETA|GAMMA|DELTA|EPSILON|ZETA|ETA|THETA|IOTA|KAPPA|LAMDA|MU|NU|XI|OMICRON
PI|RHO|FINAL SIGMA|SIGMA|TAU|UPSILON|PHI|CHI|PSI|OMEGA"),
   (0x410, "CYRILLIC CAPITAL LETTER ", cyrillicLetters),
   (0x430, "CYRILLIC SMALL LETTER ", cyrillicLetters)]

/-- Runs of names by pairs, a capital letter and a small one: the first code
point, the script and the letters. -/
def letterPairs : List (Nat × String × String) :=
  [(0x100, "LATIN", "AaMACRON|AaBREVE|AaOGONEK|CaACUTE|Ca=|CaDOT ABOVE|CaCARON|DaCARON|Da+|EaMACRON|EaBREVE
EaDOT ABOVE|EaOGONEK|EaCARON|Ga=|GaBREVE|GaDOT ABOVE|GaCEDILLA|Ha=|Ha+|IaTILDE|IaMACRON|IaBREVE|IaOGONEK"),
   (0x134, "LATIN", "Ja=|KaCEDILLA"),
   (0x139, "LATIN", "LaACUTE|LaCEDILLA|LaCARON|LaMIDDLE DOT|La+|NaACUTE|NaCEDILLA|NaCARON"),
   (0x14A, "LATIN", "ENG|OaMACRON|OaBREVE|OaDOUBLE ACUTE"),
   (0x154, "LATIN", "RaACUTE|RaCEDILLA|RaCARON|SaACUTE|Sa=|SaCEDILLA|SaCARON|TaCEDILLA|TaCARON|Ta+|UaTILDE|UaMACRON
UaBREVE|UaRING ABOVE|UaDOUBLE ACUTE|UaOGONEK|Wa=|Ya="),
   (0x179, "LATIN", "ZaACUTE|ZaDOT ABOVE|ZaCARON")]

/-- Names of single characters, some of them by two names. -/
def nameAliases : List (String × Nat) :=
  [("NULL", 0x0), ("START OF HEADING", 0x1), ("START OF TEXT", 0x2), ("END OF TEXT", 0x3),
   ("END OF TRANSMISSION", 0x4), ("ENQUIRY", 0x5), ("ACKNOWLEDGE", 0x6), ("ALERT", 0x7), ("BACKSPACE", 0x8),
   ("CHARACTER TABULATION", 0x9), ("HORIZONTAL TABULATION", 0x9), ("LINE FEED", 0xA), ("NEW LINE", 0xA),
   ("END OF LINE", 0xA), ("LINE TABULATION", 0xB), ("VERTICAL TABULATION", 0xB), ("FORM FEED", 0xC),
   ("CARRIAGE RETURN", 0xD), ("SHIFT OUT", 0xE), ("SHIFT IN", 0xF), ("ESCAPE", 0x1B), ("DELETE", 0x7F),
   ("NEXT LINE", 0x85), ("SUBSTITUTE", 0x1A), ("CANCEL", 0x18), ("NUL", 0x0), ("TAB", 0x9), ("HT", 0x9), ("LF", 0xA),
   ("NL", 0xA), ("EOL", 0xA), ("VT", 0xB), ("FF", 0xC), ("CR", 0xD), ("ESC", 0x1B), ("DEL", 0x7F), ("SP", 0x20),
   ("NBSP", 0xA0), ("ZWJ", 0x200D), ("ZWNJ", 0x200C), ("ZWSP", 0x200B), ("BOM", 0xFEFF), ("BYTE ORDER MARK", 0xFEFF),
   ("SHY", 0xAD), ("NEL", 0x85), ("BEL", 0x7), ("BS", 0x8), ("ZERO WIDTH NO-BREAK SPACE", 0xFEFF),
   ("REPLACEMENT CHARACTER", 0xFFFD), ("OBJECT REPLACEMENT CHARACTER", 0xFFFC), ("THIN SPACE", 0x2009),
   ("EN SPACE", 0x2002), ("EM SPACE", 0x2003), ("ZERO WIDTH SPACE", 0x200B), ("ZERO WIDTH NON-JOINER", 0x200C),
   ("ZERO WIDTH JOINER", 0x200D), ("LEFT-TO-RIGHT MARK", 0x200E), ("RIGHT-TO-LEFT MARK", 0x200F), ("HYPHEN", 0x2010),
   ("NON-BREAKING HYPHEN", 0x2011), ("EN DASH", 0x2013), ("EM DASH", 0x2014), ("LEFT SINGLE QUOTATION MARK", 0x2018),
   ("RIGHT SINGLE QUOTATION MARK", 0x2019), ("LEFT DOUBLE QUOTATION MARK", 0x201C),
   ("RIGHT DOUBLE QUOTATION MARK", 0x201D), ("DAGGER", 0x2020), ("BULLET", 0x2022), ("HORIZONTAL ELLIPSIS", 0x2026),
   ("LINE SEPARATOR", 0x2028), ("PARAGRAPH SEPARATOR", 0x2029), ("PER MILLE SIGN", 0x2030), ("PRIME", 0x2032),
   ("INTERROBANG", 0x203D), ("EURO SIGN", 0x20AC), ("LEFTWARDS ARROW", 0x2190), ("UPWARDS ARROW", 0x2191),
   ("RIGHTWARDS ARROW", 0x2192), ("DOWNWARDS ARROW", 0x2193), ("NUMERO SIGN", 0x2116), ("TRADE MARK SIGN", 0x2122),
   ("DEGREE CELSIUS", 0x2103), ("FOR ALL", 0x2200), ("PARTIAL DIFFERENTIAL", 0x2202), ("THERE EXISTS", 0x2203),
   ("EMPTY SET", 0x2205), ("ELEMENT OF", 0x2208), ("N-ARY SUMMATION", 0x2211), ("MINUS SIGN", 0x2212),
   ("SQUARE ROOT", 0x221A), ("INFINITY", 0x221E), ("INTEGRAL", 0x222B), ("ALMOST EQUAL TO", 0x2248),
   ("NOT EQUAL TO", 0x2260), ("LESS-THAN OR EQUAL TO", 0x2264), ("GREATER-THAN OR EQUAL TO", 0x2265),
   ("BOX DRAWINGS LIGHT HORIZONTAL", 0x2500), ("BOX DRAWINGS LIGHT VERTICAL", 0x2502), ("FULL BLOCK", 0x2588),
   ("LIGHT SHADE", 0x2591), ("BLACK SQUARE", 0x25A0), ("WHITE SQUARE", 0x25A1), ("WHITE CIRCLE", 0x25CB),
   ("BLACK CIRCLE", 0x25CF), ("SNOWMAN", 0x2603), ("BLACK STAR", 0x2605), ("WHITE STAR", 0x2606),
   ("WHITE SMILING FACE", 0x263A), ("BLACK SPADE SUIT", 0x2660), ("BLACK CLUB SUIT", 0x2663),
   ("BLACK HEART SUIT", 0x2665), ("BLACK DIAMOND SUIT", 0x2666), ("CHECK MARK", 0x2713), ("HEAVY CHECK MARK", 0x2714),
   ("BALLOT X", 0x2717), ("SPARKLES", 0x2728), ("HEAVY BLACK HEART", 0x2764), ("PILE OF POO", 0x1F4A9),
   ("GRINNING FACE", 0x1F600), ("ROCKET", 0x1F680)]

def placeOf? (name : String) : List String → Nat → Option Nat
  | [], _ => none
  | n :: rest, i => if n == name then some i else placeOf? name rest (i + 1)

/-- All names of runs, from which code point on. -/
def namesFrom : List (Nat × List String) :=
  nameRuns.map (fun (start, lead, names) => (start, (spellOut names).map (lead ++ ·))) ++
    letterPairs.map fun (start, script, names) =>
      (start, (spellOut names).flatMap fun n => [script ++ " CAPITAL LETTER " ++ n, script ++ " SMALL LETTER " ++ n])

/-- The code point of a named character; case does not matter. -/
def codeOfName? (name : String) : Option Nat :=
  let key := name.map Char.toUpper
  match nameAliases.lookup key with
  | some code => some code
  | none => namesFrom.findSome? fun (start, names) => placeOf? key names start

end TaskShell.Text
