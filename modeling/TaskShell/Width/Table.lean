import TaskShell.Text.Ranges

/-!
# Width tables

Which characters take two columns of a terminal and which take none, by version
of the Unicode standard.
-/

namespace TaskShell.Width

open Text

/-- The versions of the standard that are known, in order. -/
def versions : List (List Nat) :=
  [[4, 1, 0], [5, 0, 0], [5, 1, 0], [5, 2, 0], [6, 0, 0], [6, 1, 0], [6, 2, 0], [6, 3, 0], [7, 0, 0],
   [8, 0, 0], [9, 0, 0], [10, 0, 0], [11, 0, 0], [12, 0, 0], [12, 1, 0], [13, 0, 0], [14, 0, 0], [15, 0, 0],
   [15, 1, 0], [16, 0, 0], [17, 0, 0]]

/-- Characters that take a number of columns: by the version, counted from zero,
since which they do, and those that do so no longer after a version. -/
structure WidthTable where
  since : List (Nat × Ranges)
  ended : List (Nat × Ranges)

def zeroTable : WidthTable where
  since := [
  (0, .ofGaps 0
    [0,1,767,112,275,4,1,2,263,41,1,3,1,1,1,2,1,2,1,1,56,4,12,6,53,20,17,1,101,15,2,2,1,4,33,1,1,1,30,27,91,11,336,3,
     56,1,1,16,3,4,13,2,29,3,56,1,1,7,2,2,2,3,9,1,10,2,29,3,56,1,1,5,4,2,2,3,34,2,15,3,56,1,1,8,1,3,1,3,20,2,29,3,56,1,
     1,6,3,2,2,3,8,2,42,1,59,5,3,3,1,4,9,1,41,3,58,7,1,3,1,4,7,2,43,2,56,1,1,7,1,3,1,4,7,2,43,2,58,6,2,3,1,4,9,1,42,2,
     70,1,4,6,1,1,1,8,18,2,61,1,2,7,12,8,98,1,2,6,1,2,11,6,74,2,27,1,1,1,1,1,4,2,49,20,1,2,8,8,1,36,9,1,101,7,3,4,28,4,
     262,160,351,1,946,3,29,3,29,2,30,2,64,32,9,1,45,3,155,1,118,12,4,12,116,17,7,2,77,5,932,4,583,5,24,7,49,4,6,6,96,
     28,3902,6,105,2,30567,1,3,1,4,1,23,5,12168,80,8990,1,737,16,16,4,219,1,249,3,2565,3,1,2,5,4,40,3,4,1,50981,5,3,22,
     2,7,30,4,148,3,798140,1,30,96,128,240]),
  (1, .ofGaps 0
    [1466,1,560,9,1262,2,3612,5,47,17,38,9,592,7,51,2,748,4]),
  (2, .ofGaps 0
    [1159,1,398,5,1078,1,35,1,206,1,29,2,254,2,224,1,29,2,711,20,31,3,1,3,2,7,3,4,13,12,1,1,2800,3,30,10,121,20,403,28,
     637,1,139,1,3311,32,30831,4,9,2,514,2,50,17,97,8,25,13,213,14,12,1,8,2,21462,3,982,1]),
  (3, .ofGaps 0
    [2070,4,1,9,1,3,1,5,210,1,77,1,6,1,1860,4,2487,10,1,29,2,1,592,3,1,21,4,1,4,1,266,1,3825,3,31230,2,494,18,142,4,47,
     14,186,1,52,1,1,3,2,2,5,2,1,1,289,8,1,2,25746,3,45,11,2,1]),
  (4, .ofGaps 0
    [1631,1,505,3,222,2,19,1,6,2,1589,3,973,2,2183,14,520,1,3970,1,57984,3,53,15]),
  (5, .ofGaps 0
    [1540,1,735,27,4780,3,325,2,35199,8,35,1,1099,5,5,2,26121,3,36,14,75,3,48,14,1258,13,22681,46,16,4]),
  (7, .ofGaps 0
    [1564, 1, 4593, 1, 2135, 4]),
  (8, .ofGaps 0
    [1541,1,761,1,768,1,128,1,127,1,3502,15,569,2,237,15,35823,1,150,2,21417,7,1202,1,149,5,1898,2,1432,1,243,1,184,12,
     167,12,22,3,56,1,1,7,2,2,2,3,9,1,10,2,2,7,3,5,315,20,235,7,2,9,111,17,21679,5,59,7,20838,2,1,4,11308,7]),
  (9, .ofGaps 0
    [2275,1,40378,1,22415,2,5018,3,307,1,731,2,319,15,49876,55,4,50,8,1,14,1,22,5,1,15,6475,5]),
  (10, .ofGaps 0
    [2260,15,4002,2,1396,1,35529,1,27000,1,502,18,2024,8,1,8,82,22,1,14,49993,7,1,17,2,7,1,2,1,5,2329,7]),
  (11, .ofGaps 0
    [2810,6,512,1,58,2,4026,1,254,4,64519,10,40,7,1,4,8,1,9,11,46,16,663,6,3,1,1,2,1,7,1,1]),
  (12, .ofGaps 0
    [2045,1,213,1,298,1,517,1,40186,1,25636,4,542,11,380,1,119,2,130,1,369,1,290,1,973,15,1359,5,1,2,1,5,347,4]),
  (13, .ofGaps 0
    [3770,1,68374,7,2,7,3,1,6731,9,15126,1,47,9,29096,7,437,4]),
  (15, .ofGaps 0
    [2901,1,555,1,3389,2,36203,1,26238,2,801,2,1888,6,1,2,2,4,1,1,1,2,22176,1,11,2]),
  (16, .ofGaps 0
    [2192,2,6,8,42,9,873,1,2776,1,249,1,689,14,811,1,61831,4,234,1,2,2,77,1,48701,46,2,23,4967,1]),
  (17, .ofGaps 0
    [3315,1,474,1,65582,3,833,1,3262,2,1,1,48,7,3,5,5366,8,6,15,44089,1,1116,4]),
  (19, .ofGaps 0
    [2199,1,66769,5,398,1,1211,9,1,1,2,1,1,4,1,5,1,1,14,2,2935,1,16835,18,33982,2]),
  (20, .ofGaps 0
    [6863,15,2,12,62478,2,3172,8,52091,1,2,1,7,2,5,1])]
  ended := [(3, .ofGaps 0 [1758, 1]), (8, .ofGaps 0 [6576, 17, 7, 2]), (12, .ofGaps 0 [7410, 1, 0, 1])]

def wideTable : WidthTable where
  since := [
  (0, .ofGaps 0
    [4352,90,5,1,4553,2,2901,26,1,89,12,214,26,12,4,42,6,15,2,86,4,101,5,40,4,94,1,40,8,16,32,47,1,36,12,175,1,6838,74,
     20924,68,1165,3,55,1849,11172,8540,302,2,59,5,106,822,10,22,35,1,19,1,4,149,96,127,7,65561,65534,2,65534]),
  (2, .ofGaps 0
    [12589, 1, 162, 20, 28120, 8]),
  (3, .ofGaps 0
    [4442,5,8421,4,7022,10,20996,60,2400,29,20657,210,63232,1,15,34,14,9]),
  (4, .ofGaps 0
    [12728, 3, 97861, 2, 16895, 2, 47, 9, 21, 2]),
  (10, .ofGaps 0
    [8986,2,205,4,3,1,2,1,521,2,21,2,50,12,43,1,19,1,13,1,8,2,17,2,5,2,8,1,5,1,21,1,7,2,1,1,4,1,2,1,7,1,4,2,28,1,35,1,
     1,1,4,3,1,1,61,3,24,1,14,1,859,2,51,1,4,1,83082,1,31,6125,19,755,25873,1,202,1,190,1,2,10,160,1,196,33,12,9,1,70,
     1,22,12,43,4,5,12,17,3,1,3,3,5,63,1,1,1,187,2,63,13,4,1,24,18,1,26,2,13,1,86,85,48,70,6,1,3,3,24,2,7,3,537,15,1,8,
     8,1,2,12,1,12,4,15,33,18,46,1]),
  (11, .ofGaps 0
    [12590,1,81586,1,16416,285,81,396,16228,6,1169,2,550,20,25,1,18,13,38,6,56,23]),
  (12, .ofGaps 0
    [12591,1,87741,5,28423,1,595,36,2,4,3,1,1,39,13,10,7,2,36,25]),
  (13, .ofGaps 0
    [94178,2,6158,6,10584,3,17,4,17773,1,36,1,229,12,289,101,9,1,41,6,3,29,2,3,160,4,4,3,5,3,13,6]),
  (14, .ofGaps 0
    [13055, 1]),
  (15, .ofGaps 0
    [12731,5,88371,483,42,9,27085,2,35,2,527,109,42,41,168,1,14,4,15,19,7,7,9,3,13,7]),
  (16, .ofGaps 0
    [110576,4,1,7,1,2,288,4,17850,3,272,1,392,84,174,2,44,4,10,4,8,3,17,3,6,8,8,7]),
  (17, .ofGaps 0
    [110898,1,34,1,17798,1,920,3,15,2,36,17,1,1,14,14,12,1,14,2]),
  (18, .ofGaps 0
    [12284, 4, 495, 1]),
  (19, .ofGaps 0
    [9776,8,82,6,2900,2,7130,64,81663,1,17920,87,9,23,10002,1,5,56,21,1,2,11]),
  (20, .ofGaps 0
    [94194,5,6145,8,1289,22,97,115,26853,1,945,1,3,1,57,1,4,1,28,1,4,1])]
  ended := [(14, .ofGaps 0 [129339, 1, 10, 1])]

/-- Narrow characters that a sign after them turns into pictures of two
columns. -/
def presented : Ranges := .ofGaps 0
  [35,1,6,1,5,10,111,1,4,1,8077,1,12,1,216,1,22,1,90,6,15,2,381,1,166,1,29,3,1,2,5,3,199,1,231,2,10,1,9,1,58,2,3,5,9,1,
   2,1,6,1,4,1,2,1,1,2,2,1,3,1,3,2,8,3,5,1,1,1,28,2,2,1,1,2,1,1,18,1,2,1,19,1,1,4,1,1,1,2,3,1,6,1,8,2,22,1,6,1,1,1,1,1,
   21,1,6,2,2,1,2,3,8,1,5,2,2,2,1,1,2,1,1,1,1,1,6,1,3,1,17,2,15,1,2,1,27,2,60,1,402,2,463,3,116328,2,12,2,417,1,2,9,9,
   1,70,1,24,2,1,3,2,2,43,4,5,12,19,1,1,1,1,1,71,1,1,1,187,1,75,2,36,2,2,7,13,1,2,4,2,1,20,1,2,1,8,2,9,1,5,3,12,3,8,3,
   2,1,1,1,4,1,6,1,3,1,6,1,208,1,1,3,16,6,3,1,6,1,2,1]

end TaskShell.Width
