import TaskShell.Text.Ranges

/-!
# Classes of characters

Which code points may start and continue a name, are part of a word, are decimal
digits or are shown as they are, by Unicode 14.
-/

namespace TaskShell.Text

def nameStartRanges : Ranges := .ofGaps 0
  [65,26,4,1,1,26,47,1,10,1,4,1,5,23,1,31,1,458,4,12,14,5,7,1,1,1,129,5,1,2,3,3,1,1,6,1,1,3,1,1,1,20,1,83,1,139,8,166,
   1,38,2,1,6,41,71,27,4,4,45,43,35,2,1,99,1,1,15,2,7,2,10,3,2,1,16,1,1,30,29,89,11,1,24,33,9,2,4,1,5,22,4,1,9,1,3,1,
   23,25,7,11,5,24,1,6,17,42,58,54,3,1,18,1,7,10,15,16,4,8,2,2,2,22,1,7,1,1,3,4,3,1,16,1,13,2,1,3,14,2,10,1,8,6,4,2,2,
   22,1,7,1,2,1,2,1,2,31,4,1,1,19,3,16,9,1,3,1,22,1,7,1,2,1,5,3,1,18,1,15,2,23,1,11,8,2,2,2,22,1,7,1,2,1,5,3,1,30,2,1,
   3,15,1,17,1,1,6,3,3,1,4,3,2,1,1,1,2,3,2,3,3,3,12,22,1,52,8,1,3,1,23,1,16,3,1,26,3,2,1,2,2,30,1,4,8,1,3,1,23,1,10,1,
   5,3,1,31,2,1,2,15,2,17,9,1,3,1,41,2,1,16,1,5,3,8,3,24,6,5,18,3,24,1,9,1,1,2,7,58,48,1,1,13,7,58,2,1,1,1,5,1,24,1,1,
   1,10,1,1,10,1,2,5,1,1,21,4,32,1,63,8,1,36,27,5,115,43,20,1,16,6,4,4,3,1,3,2,7,3,4,13,12,1,17,38,1,1,5,1,2,43,1,333,
   1,4,2,7,1,1,1,4,2,41,1,4,2,33,1,4,2,7,1,1,1,4,2,15,1,57,1,4,2,67,37,16,16,86,2,6,3,620,2,17,1,26,5,75,3,11,7,18,13,
   19,14,18,14,13,1,3,15,52,35,1,4,1,67,89,7,41,1,1,5,70,10,31,49,30,2,5,11,44,4,26,54,23,9,53,82,1,93,47,17,8,54,30,
   13,2,10,44,26,36,41,3,10,36,2,9,7,43,2,3,41,4,1,6,1,2,3,1,5,192,64,278,2,6,2,38,2,6,2,8,1,1,1,1,1,1,1,31,2,53,1,7,1,
   1,3,3,1,7,3,4,2,6,4,13,5,3,1,7,116,1,13,1,16,13,101,1,4,1,2,10,1,1,2,6,6,1,1,1,1,1,1,16,2,4,5,5,4,1,17,41,2679,229,
   6,4,3,2,12,38,1,1,5,1,2,56,7,1,16,23,9,7,1,7,1,7,1,7,1,7,1,7,1,7,1,7,550,3,25,9,7,5,2,5,4,86,6,3,1,90,1,4,5,43,1,94,
   17,32,48,16,512,6592,64,22157,67,46,2,269,3,16,10,2,20,47,16,31,2,80,39,9,2,103,2,64,5,2,1,1,1,5,24,16,1,3,1,4,1,23,
   29,52,14,50,62,6,3,1,1,2,11,28,10,23,25,29,7,47,28,1,16,5,1,10,10,5,1,41,23,3,1,8,20,23,3,1,3,50,1,1,3,2,2,5,2,1,1,
   1,24,3,2,11,7,3,12,6,2,6,2,6,9,7,1,7,1,43,1,14,6,115,29,11172,12,23,4,49,8452,366,2,106,38,7,12,5,5,1,1,10,1,13,1,5,
   1,1,1,2,1,2,1,108,33,139,6,218,18,64,2,54,40,10,119,1,1,1,3,1,1,1,1,1,1,1,1,126,36,26,6,26,11,56,2,31,3,6,2,6,2,6,2,
   3,35,12,1,26,1,19,1,2,1,15,2,14,34,123,69,53,267,29,3,49,47,32,13,30,5,38,10,30,2,36,4,8,1,5,42,158,18,36,4,36,4,40,
   8,52,12,11,1,15,1,7,1,2,1,11,1,15,1,7,1,2,67,311,9,22,10,8,24,6,1,42,1,9,69,6,2,1,1,44,1,2,3,1,2,23,10,23,9,31,65,
   19,1,2,10,22,10,26,70,56,6,2,64,1,15,4,1,3,1,29,42,29,3,29,35,8,1,28,27,54,10,22,10,19,13,18,110,73,55,51,13,51,13,
   36,348,42,6,2,78,29,10,1,8,22,42,18,46,21,27,23,12,53,57,2,2,1,13,45,32,25,26,36,29,1,2,1,8,35,3,1,12,48,14,4,21,1,
   1,1,35,18,1,25,84,7,1,1,1,4,1,15,1,10,7,47,38,8,2,2,2,22,1,7,1,2,1,5,3,1,18,1,12,5,158,53,18,4,20,3,30,48,20,2,1,1,
   184,47,41,4,36,48,20,1,59,43,13,1,71,27,37,7,185,44,116,64,31,8,2,1,2,8,1,2,1,24,15,1,1,1,94,8,2,39,16,1,1,1,28,1,
   10,40,7,1,21,1,11,46,19,1,18,73,263,9,1,37,17,1,49,30,112,7,1,2,1,38,21,1,25,6,1,2,1,32,14,1,327,19,189,1,79,922,
   102,111,17,196,2636,97,15,1071,4049,583,8633,569,7,31,17,79,17,30,18,48,16,4,31,21,5,19,688,64,128,75,5,1,66,13,64,
   2,1,1,28,6136,8,1238,42,9,8935,4,1,7,1,2,1,291,45,3,17,4,8,396,2308,107,5,13,3,9,7,10,5990,85,1,71,1,2,2,1,2,2,2,4,
   1,12,1,1,1,7,1,65,1,4,2,8,1,7,1,28,1,4,1,5,1,1,3,7,1,340,2,25,1,25,1,31,1,25,1,31,1,25,1,31,1,25,1,31,1,25,1,8,1844,
   31,481,45,10,7,16,1,321,30,18,44,1268,7,1,4,1,2,1,15,1,197,59,68,7,1,1204,4,1,27,1,2,1,1,2,1,1,10,1,4,1,1,1,1,6,1,4,
   1,1,1,1,1,1,3,1,2,1,1,2,1,1,1,1,1,1,1,1,1,1,2,1,1,2,4,1,7,1,4,1,4,1,1,1,10,1,17,5,3,1,5,1,17,4420,42720,32,4153,7,
   222,2,5762,14,7473,3103,542,1506,4939]

/-- What may continue a name besides: marks, digits and connectors. -/
def nameMoreRanges : Ranges := .ofGaps 0
  [48,10,125,1,584,112,23,1,251,5,265,45,1,1,1,2,1,2,1,1,72,11,48,31,6,1,101,7,2,10,1,16,23,58,91,11,15,52,9,1,24,24,
   43,3,60,74,1,129,2,10,17,3,56,9,2,2,2,3,9,1,10,2,2,10,14,1,2,3,56,1,1,5,4,2,2,3,3,1,20,16,11,3,56,10,1,3,1,3,20,2,2,
   10,10,6,1,3,56,9,2,2,2,3,7,3,10,2,2,10,18,1,59,5,3,3,1,4,9,1,14,10,16,5,55,9,1,3,1,4,7,2,11,2,2,10,17,3,56,9,1,3,1,
   4,7,2,11,2,2,10,16,4,55,10,1,3,1,4,9,1,10,2,2,10,17,3,70,1,4,6,1,1,1,8,6,10,2,2,61,10,12,8,1,10,87,12,11,6,2,10,62,
   2,6,10,11,1,1,1,1,1,4,2,49,20,1,18,1,36,9,1,100,31,12,72,703,3,9,9,928,4,28,3,29,2,30,2,64,32,9,1,2,10,33,3,1,11,
   143,1,118,12,4,12,10,10,128,11,60,5,57,10,1,29,2,11,6,10,22,14,1,16,49,69,11,10,17,9,12,116,48,20,8,10,6,10,118,3,1,
   38,198,64,575,2,19,1,123,13,4,1,3,12,3070,3,141,1,96,32,554,6,105,2,30085,10,69,1,4,10,32,84,272,38,4,1,83,70,10,10,
   6,18,13,47,25,13,44,65,15,10,11,21,47,14,12,11,2,10,33,71,41,5,5,2,236,8,1,2,2,10,20260,1,737,16,16,16,3,2,24,3,192,
   10,37,1,94,2,605,1,226,1,149,5,293,10,1367,3,1,2,5,4,40,3,4,1,165,2,573,4,8,10,369,2,153,11,49,4,122,71,31,15,10,60,
   7,1,45,10,6,53,1,10,5,2,44,1,12,65,8,4,1,12,82,12,6,1,160,12,5,10,6,4,55,10,2,2,2,3,9,1,10,2,2,7,3,5,192,18,9,10,4,
   1,81,20,12,10,213,7,2,9,27,2,82,17,15,10,81,13,8,10,83,15,4,10,242,15,165,10,70,6,1,2,2,9,12,10,119,7,2,7,3,1,28,62,
   8,1,9,73,405,8,1,8,16,10,56,22,1,14,122,6,3,1,1,2,1,9,8,10,48,5,1,2,1,5,8,10,329,4,19305,10,86,10,38,5,59,7,25,10,
   1013,57,7,4,81,1,11,2,19627,2,4705,46,2,23,542,5,3,6,8,8,2,7,30,4,148,3,1417,50,512,55,4,50,8,1,14,1,22,5,1,15,1360,
   7,1,17,2,7,1,2,1,5,261,7,9,10,356,1,61,14,1494,7,109,7,5,10,4758,10,787718,240]

def isNameCode (code : Nat) : Bool := nameStartRanges.has code || nameMoreRanges.has code

/-- The code points of the zeros; each is followed by its nine other digits. -/
def digitZeros : List Nat :=
  [0x30, 0x660, 0x6F0, 0x7C0, 0x966, 0x9E6, 0xA66, 0xAE6, 0xB66, 0xBE6, 0xC66, 0xCE6, 0xD66,
   0xDE6, 0xE50, 0xED0, 0xF20, 0x1040, 0x1090, 0x17E0, 0x1810, 0x1946, 0x19D0, 0x1A80, 0x1A90,
   0x1B50, 0x1BB0, 0x1C40, 0x1C50, 0xA620, 0xA8D0, 0xA900, 0xA9D0, 0xA9F0, 0xAA50, 0xABF0,
   0xFF10, 0x104A0, 0x10D30, 0x11066, 0x110F0, 0x11136, 0x111D0, 0x112F0, 0x11450, 0x114D0,
   0x11650, 0x116C0, 0x11730, 0x118E0, 0x11950, 0x11C50, 0x11D50, 0x11DA0, 0x16A60, 0x16AC0,
   0x16B50, 0x1D7CE, 0x1D7D8, 0x1D7E2, 0x1D7EC, 0x1D7F6, 0x1E140, 0x1E2F0, 0x1E950, 0x1FBF0]

/-- Code points that may start a name and are no part of a word. -/
def wordlessRanges : Ranges := .ofGaps 0
  [6277, 2, 2193, 1, 21, 1]

/-- What is part of a word besides: digits and numeric signs. -/
def wordMoreRanges : Ranges := .ofGaps 0
  [48,10,120,2,5,1,2,3,699,1,741,10,134,10,198,10,412,10,118,10,4,6,108,10,118,10,118,10,2,6,110,13,115,10,8,7,103,10,
   104,7,7,19,109,10,67,1,28,10,89,1,28,10,70,20,268,10,70,10,719,20,1123,10,6,10,22,10,300,10,128,11,165,10,6,10,182,
   10,86,10,134,10,6,10,1046,1,3,6,6,10,198,58,726,60,78,22,630,30,1385,1,305,1,866,4,138,10,30,8,1,15,32,10,39,15,
   29536,10,518,6,154,10,38,10,198,10,22,10,86,10,406,10,20580,6,406,2,116,5,1,9,145,10,132,2,359,45,65,4,17,2,341,27,
   36,4,380,10,942,8,25,7,39,9,75,33,160,20,2,46,64,9,52,2,30,3,75,5,104,8,24,8,41,7,330,6,48,10,294,31,158,10,42,4,
   112,7,134,30,128,10,60,10,144,10,7,20,251,10,342,10,118,10,374,10,102,10,102,12,420,19,93,10,758,29,227,10,70,10,
   534,21,19083,10,86,10,134,10,1,7,798,23,25673,20,108,25,1109,50,2368,10,422,10,1485,9,128,10,791,59,1,3,1,4,76,45,1,
   15,962,13,2787,10]

def isWordCode (code : Nat) : Bool :=
  (nameStartRanges.has code && !wordlessRanges.has code) || wordMoreRanges.has code

/-- Code points that have a visible form and stand in no name, and the space. -/
def printMoreRanges : Ranges := .ofGaps 0
  [32,95,34,12,1,712,4,5,5,2,112,148,208,49,2,3,46,9,44,2,17,22,1,184,9,48,232,4,4,2,48,15,31,1,41,1,219,13,129,12,120,
   1,121,2,126,8,120,11,124,14,202,1,8,7,17,10,122,1,74,29,165,61,71,1,56,15,1,13,111,86,91,1,612,29,19,10,102,623,44,
   2,78,3,71,2,157,8,20,10,6,11,309,1,3,2,152,34,30,2,128,14,16,1,155,37,125,4,59,5,62,2,64,8,11,1,745,5,11,3,13,19,13,
   2,17,24,8,47,17,1,3,27,17,33,28,8,27,140,4,663,25,11,21,1812,2,32,1,340,14,7,112,1,143,94,34,26,1,89,12,214,26,12,5,
   63,91,97,148,84,28,31,1,7136,22160,55,55,274,96,136,8,139,157,4,4,10,58,4,86,2,40,56,47,1,97,13,16,2,124,30,100,20,
   105,17,127,1,20285,1,136,17,155,242,127,1,42,32,22,35,1,19,1,4,4,5,1,9,130,101,122,7,1,7,13,2,258,3,4,45,3,88,1,13,
   3,1,47,45,228,27,36,4,123,1,48,1,414,1,743,41,39,9,75,33,3,1,31,1,124,20,2,46,64,9,7,9,36,35,40,1,34,12,66,7,24,8,
   24,8,25,4,12,7,330,6,352,31,46,1,111,10,42,9,44,4,59,7,123,7,4,20,85,2,1,4,126,4,48,2,79,27,1,20,67,6,107,1,417,17,
   1,1,104,1,250,23,105,3,28,13,76,1,128,6,251,1,174,9,81,3,155,1,92,8,83,9,414,5,20,19,3,2,645,2,199,50,13,1,1136,5,
   2940,2,14971,2,133,1,65,15,21,7,798,27,327,1,19641,4,4784,116,60,246,10,39,2,68,22,104,21,70,154,20,12,87,9,25,840,
   259,60,652,1731,1,431,1,1479,9,142,2,785,68,76,61,434,2,270,44,4,100,12,15,2,15,1,15,1,37,10,174,56,29,13,44,4,9,7,
   2,14,6,154,984,5,16,3,13,3,116,12,89,7,12,4,1,15,12,4,56,8,10,6,40,8,30,2,2,78,340,12,14,2,5,3,5,3,7,9,29,3,11,5,6,
   10,10,6,8,8,7,9,147,1,55]

def isPrintCode (code : Nat) : Bool := isNameCode code || printMoreRanges.has code

end TaskShell.Text
