import TaskShell.Text.Ranges

/-!
# Case tables

Rows for the one-to-one case mappings of Unicode 14 and lists for the mappings
to several characters.
-/

namespace TaskShell.Text

def upperRows : List CaseRow := CaseRow.ofGaps 0
  [97,26,1,-32,58,1,1,743,42,23,1,-32,1,7,1,-32,0,1,1,121,1,24,2,-1,1,1,1,-232,1,3,2,-1,2,8,2,-1,2,23,2,-1,2,3,2,-1,0,
   1,1,-300,0,1,1,195,2,2,2,-1,2,1,1,-1,3,1,1,-1,5,1,1,-1,2,1,1,97,3,1,1,-1,0,1,1,163,3,1,1,130,2,3,2,-1,2,1,1,-1,4,1,
   1,-1,2,1,1,-1,3,2,2,-1,2,1,1,-1,3,1,1,-1,1,1,1,56,5,1,1,-1,0,1,1,-2,1,1,1,-1,0,1,1,-2,1,1,1,-1,0,1,1,-2,1,8,2,-1,0,
   1,1,-79,1,9,2,-1,2,1,1,-1,0,1,1,-2,1,1,1,-1,3,20,2,-1,3,9,2,-1,8,1,1,-1,2,2,1,10815,1,1,1,-1,4,5,2,-1,0,1,1,10783,0,
   1,1,10780,0,1,1,10782,0,1,1,-210,0,1,1,-206,1,2,1,-205,1,1,1,-202,1,1,1,-203,0,1,1,42319,3,1,1,-205,0,1,1,42315,1,1,
   1,-207,1,1,1,42280,0,1,1,42308,1,1,1,-209,0,1,1,-211,0,1,1,42308,0,1,1,10743,0,1,1,42305,2,1,1,-211,1,1,1,10749,0,1,
   1,-213,2,1,1,-214,7,1,1,10727,2,1,1,-218,1,1,1,42307,0,1,1,-218,3,1,1,42282,0,1,1,-218,0,1,1,-69,0,2,1,-217,0,1,1,
   -71,5,1,1,-219,10,1,1,42261,0,1,1,42258,166,1,1,84,43,2,2,-1,3,1,1,-1,3,3,1,130,46,1,1,-38,0,3,1,-37,1,17,1,-32,0,1,
   1,-31,0,9,1,-32,0,1,1,-64,0,2,1,-63,1,1,1,-62,0,1,1,-57,3,1,1,-47,0,1,1,-54,0,1,1,-8,1,12,2,-1,0,1,1,-86,0,1,1,-80,
   0,1,1,7,0,1,1,-116,1,1,1,-96,2,1,1,-1,2,1,1,-1,52,32,1,-32,0,16,1,-80,1,17,2,-1,9,27,2,-1,2,7,2,-1,0,1,1,-15,1,48,2,
   -1,49,38,1,-48,2889,43,1,3008,2,3,1,3008,760,6,1,-8,2178,1,1,-6254,0,1,1,-6253,0,1,1,-6244,0,2,1,-6242,0,1,1,-6243,
   0,1,1,-6236,0,1,1,-6181,0,1,1,35266,240,1,1,35332,3,1,1,3814,16,1,1,35384,114,75,2,-1,5,1,1,-59,5,48,2,-1,0,8,1,8,8,
   6,1,8,10,8,1,8,8,8,1,8,8,6,1,8,11,4,2,8,8,8,1,8,8,2,1,74,0,4,1,86,0,2,1,100,0,2,1,128,0,2,1,112,0,2,1,126,50,2,1,8,
   12,1,1,-7205,17,2,1,8,14,2,1,8,3,1,1,7,360,1,1,-28,33,16,1,-16,4,1,1,-1,843,26,1,-26,1862,48,1,-48,1,1,1,-1,3,1,1,
   -10795,0,1,1,-10792,1,3,2,-1,6,1,1,-1,2,1,1,-1,10,50,2,-1,8,2,2,-1,4,1,1,-1,12,38,1,-7264,1,1,1,-7264,5,1,1,-7264,
   30995,23,2,-1,19,14,2,-1,135,7,2,-1,3,31,2,-1,10,2,2,-1,2,5,2,-1,4,1,1,-1,4,2,2,-1,0,1,1,48,2,10,2,-1,11,8,2,-1,4,2,
   2,-1,6,1,1,-1,5,2,2,-1,28,1,1,-1,860,1,1,-928,28,80,1,-38864,21377,26,1,-32,1229,40,1,-40,136,36,1,-40,155,11,1,-39,
   1,15,1,-39,1,7,1,-39,1,2,1,-39,1795,51,1,-64,3021,32,1,-32,21888,32,1,-32,31394,34,1,-34]

def lowerRows : List CaseRow := CaseRow.ofGaps 0
  [65,26,1,32,101,23,1,32,1,7,1,32,33,24,2,1,3,3,2,1,2,8,2,1,2,23,2,1,1,1,1,-121,0,3,2,1,3,1,1,210,0,2,2,1,1,1,1,206,0,
   1,1,1,1,2,1,205,0,1,1,1,2,1,1,79,0,1,1,202,0,1,1,203,0,1,1,1,1,1,1,205,0,1,1,207,1,1,1,211,0,1,1,209,0,1,1,1,3,1,1,
   211,0,1,1,213,1,1,1,214,0,3,2,1,1,1,1,218,0,1,1,1,1,1,1,218,2,1,1,1,1,1,1,218,0,1,1,1,1,2,1,217,0,2,2,1,1,1,1,219,0,
   1,1,1,3,1,1,1,7,1,1,2,0,1,1,1,1,1,1,2,0,1,1,1,1,1,1,2,0,9,2,1,2,9,2,1,2,1,1,2,0,2,2,1,1,1,1,-97,0,1,1,-56,0,20,2,1,
   1,1,1,-130,1,9,2,1,7,1,1,10795,0,1,1,1,1,1,1,-163,0,1,1,10792,2,1,1,1,1,1,1,-195,0,1,1,69,0,1,1,71,0,5,2,1,289,2,2,
   1,3,1,1,1,8,1,1,116,6,1,1,38,1,3,1,37,1,1,1,64,1,2,1,63,1,17,1,32,1,9,1,32,35,1,1,8,8,12,2,1,5,1,1,-60,2,1,1,1,1,1,
   1,-7,0,1,1,1,2,3,1,-130,0,16,1,80,0,32,1,32,48,17,2,1,9,27,2,1,1,1,1,15,0,7,2,1,2,48,2,1,2,38,1,48,2889,38,1,7264,1,
   1,1,7264,5,1,1,7264,722,80,1,38864,0,6,1,8,2202,43,1,-3008,2,3,1,-3008,320,75,2,1,9,1,1,-7615,1,48,2,1,9,8,1,-8,8,6,
   1,-8,10,8,1,-8,8,8,1,-8,8,6,1,-8,11,4,2,-8,8,8,1,-8,24,8,1,-8,8,8,1,-8,8,8,1,-8,8,2,1,-8,0,2,1,-74,0,1,1,-9,11,4,1,
   -86,0,1,1,-9,11,2,1,-8,0,2,1,-100,12,2,1,-8,0,2,1,-112,0,1,1,-7,11,2,1,-128,0,2,1,-126,0,1,1,-9,297,1,1,-7517,3,1,1,
   -8383,0,1,1,-8262,6,1,1,28,45,16,1,16,19,1,1,1,818,26,1,26,1840,48,1,48,48,1,1,1,1,1,1,-10743,0,1,1,-3814,0,1,1,
   -10727,2,3,2,1,1,1,1,-10780,0,1,1,-10749,0,1,1,-10783,0,1,1,-10782,1,1,1,1,2,1,1,1,8,2,1,-10815,0,50,2,1,8,2,2,1,4,
   1,1,1,31053,23,2,1,19,14,2,1,135,7,2,1,3,31,2,1,10,2,2,1,1,1,1,-35332,0,5,2,1,4,1,1,1,1,1,1,-42280,2,2,2,1,3,10,2,1,
   1,1,1,-42308,0,1,1,-42319,0,1,1,-42315,0,1,1,-42305,0,1,1,-42308,1,1,1,-42258,0,1,1,-42282,0,1,1,-42261,0,1,1,928,0,
   8,2,1,1,1,1,-48,0,1,1,-42307,0,1,1,-35384,0,2,2,1,6,1,1,1,5,2,2,1,28,1,1,1,22315,26,1,32,1221,40,1,40,136,36,1,40,
   156,11,1,39,1,15,1,39,1,7,1,39,1,2,1,39,1770,51,1,64,3053,32,1,32,21888,32,1,32,31392,34,1,34]

/-- Code points whose title case is one code point and not their upper case. -/
def titleOwnRows : List CaseRow :=
  [⟨0x1C4, 0x1CA, 3, 1⟩, ⟨0x1C5, 0x1CB, 3, 0⟩, ⟨0x1C6, 0x1CC, 3, -1⟩, ⟨0x1F1, 0x1F1, 1, 1⟩, ⟨0x1F2, 0x1F2, 1, 0⟩,
   ⟨0x1F3, 0x1F3, 1, -1⟩, ⟨0x10D0, 0x10FA, 1, 0⟩, ⟨0x10FD, 0x10FF, 1, 0⟩, ⟨0x1F80, 0x1F87, 1, 8⟩,
   ⟨0x1F90, 0x1F97, 1, 8⟩, ⟨0x1FA0, 0x1FA7, 1, 8⟩, ⟨0x1FB3, 0x1FB3, 1, 9⟩, ⟨0x1FC3, 0x1FC3, 1, 9⟩,
   ⟨0x1FF3, 0x1FF3, 1, 9⟩]

def titleRows : List CaseRow := titleOwnRows.merge upperRows fun a b => a.lo ≤ b.lo

/-- Code points whose upper and title case are the same several code points. -/
def sharedLong : List (Nat × List Nat) :=
  [(0x149, [0x2BC, 0x4E]), (0x1F0, [0x4A, 0x30C]), (0x390, [0x399, 0x308, 0x301]), (0x3B0, [0x3A5, 0x308, 0x301]),
   (0x1E96, [0x48, 0x331]), (0x1E97, [0x54, 0x308]), (0x1E98, [0x57, 0x30A]), (0x1E99, [0x59, 0x30A]),
   (0x1E9A, [0x41, 0x2BE]), (0x1F50, [0x3A5, 0x313]), (0x1F52, [0x3A5, 0x313, 0x300]),
   (0x1F54, [0x3A5, 0x313, 0x301]), (0x1F56, [0x3A5, 0x313, 0x342]), (0x1FB6, [0x391, 0x342]),
   (0x1FC6, [0x397, 0x342]), (0x1FD2, [0x399, 0x308, 0x300]), (0x1FD3, [0x399, 0x308, 0x301]),
   (0x1FD6, [0x399, 0x342]), (0x1FD7, [0x399, 0x308, 0x342]), (0x1FE2, [0x3A5, 0x308, 0x300]),
   (0x1FE3, [0x3A5, 0x308, 0x301]), (0x1FE4, [0x3A1, 0x313]), (0x1FE6, [0x3A5, 0x342]),
   (0x1FE7, [0x3A5, 0x308, 0x342]), (0x1FF6, [0x3A9, 0x342])]

/-- Vowels with a small iota, which stands behind their upper case: eight small
and eight capital ones from `first` on, whose upper case without it starts at
`plain`. -/
def iotaLong (first plain : Nat) : List (Nat × List Nat) :=
  (List.range 16).map fun i => (first + i, [plain + i % 8, 0x399])

def upperLong : List (Nat × List Nat) :=
  sharedLong ++ iotaLong 0x1F80 0x1F08 ++ iotaLong 0x1F90 0x1F28 ++ iotaLong 0x1FA0 0x1F68 ++
  [(0xDF, [0x53, 0x53]), (0x587, [0x535, 0x552]), (0x1FB2, [0x1FBA, 0x399]), (0x1FB3, [0x391, 0x399]),
   (0x1FB4, [0x386, 0x399]), (0x1FB7, [0x391, 0x342, 0x399]), (0x1FBC, [0x391, 0x399]), (0x1FC2, [0x1FCA, 0x399]),
   (0x1FC3, [0x397, 0x399]), (0x1FC4, [0x389, 0x399]), (0x1FC7, [0x397, 0x342, 0x399]), (0x1FCC, [0x397, 0x399]),
   (0x1FF2, [0x1FFA, 0x399]), (0x1FF3, [0x3A9, 0x399]), (0x1FF4, [0x38F, 0x399]), (0x1FF7, [0x3A9, 0x342, 0x399]),
   (0x1FFC, [0x3A9, 0x399]), (0xFB00, [0x46, 0x46]), (0xFB01, [0x46, 0x49]), (0xFB02, [0x46, 0x4C]),
   (0xFB03, [0x46, 0x46, 0x49]), (0xFB04, [0x46, 0x46, 0x4C]), (0xFB05, [0x53, 0x54]), (0xFB06, [0x53, 0x54]),
   (0xFB13, [0x544, 0x546]), (0xFB14, [0x544, 0x535]), (0xFB15, [0x544, 0x53B]), (0xFB16, [0x54E, 0x546]),
   (0xFB17, [0x544, 0x53D])]

def lowerLong : List (Nat × List Nat) :=
  [(0x130, [0x69, 0x307])]

def titleLong : List (Nat × List Nat) := sharedLong ++
  [(0xDF, [0x53, 0x73]), (0x587, [0x535, 0x582]), (0x1FB2, [0x1FBA, 0x345]), (0x1FB4, [0x386, 0x345]),
   (0x1FB7, [0x391, 0x342, 0x345]), (0x1FC2, [0x1FCA, 0x345]), (0x1FC4, [0x389, 0x345]),
   (0x1FC7, [0x397, 0x342, 0x345]), (0x1FF2, [0x1FFA, 0x345]), (0x1FF4, [0x38F, 0x345]),
   (0x1FF7, [0x3A9, 0x342, 0x345]), (0xFB00, [0x46, 0x66]), (0xFB01, [0x46, 0x69]), (0xFB02, [0x46, 0x6C]),
   (0xFB03, [0x46, 0x66, 0x69]), (0xFB04, [0x46, 0x66, 0x6C]), (0xFB05, [0x53, 0x74]), (0xFB06, [0x53, 0x74]),
   (0xFB13, [0x544, 0x576]), (0xFB14, [0x544, 0x565]), (0xFB15, [0x544, 0x56B]), (0xFB16, [0x54E, 0x576]),
   (0xFB17, [0x544, 0x56D])]

end TaskShell.Text
