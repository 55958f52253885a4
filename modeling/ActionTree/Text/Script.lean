import ActionTree.Text.Blank

/-!
Scripts: the characters that are written in one of them only, those of several scripts, and the marks
that take the script of the character before.
-/

namespace ActionTree.Text

/-- The Latin script. -/
def latinRanges : List (Nat × Nat) :=
  [(65, 90), (97, 122), (170, 170), (186, 186), (192, 214), (216, 246), (248, 696), (736, 740),
   (7424, 7461), (7468, 7516), (7522, 7525), (7531, 7543), (7545, 7614), (7680, 7935),
   (8305, 8305), (8319, 8319), (8336, 8348), (8490, 8491), (8498, 8498), (8526, 8526),
   (8544, 8584), (11360, 11391), (42786, 42887), (42891, 42954), (42960, 42961), (42963, 42963),
   (42965, 42969), (42994, 43007), (43824, 43866), (43868, 43876), (43878, 43881),
   (64256, 64262), (65313, 65338), (65345, 65370), (67456, 67461), (67463, 67504),
   (67506, 67514), (122624, 122654), (122661, 122666)]

/-- The Greek script. -/
def greekRanges : List (Nat × Nat) :=
  [(880, 883), (885, 887), (890, 893), (895, 895), (900, 900), (902, 902), (904, 906),
   (908, 908), (910, 929), (931, 993), (1008, 1023), (7462, 7466), (7517, 7521), (7526, 7530),
   (7615, 7615), (7936, 7957), (7960, 7965), (7968, 8005), (8008, 8013), (8016, 8023),
   (8025, 8025), (8027, 8027), (8029, 8029), (8031, 8061), (8064, 8116), (8118, 8132),
   (8134, 8147), (8150, 8155), (8157, 8175), (8178, 8180), (8182, 8190), (8486, 8486),
   (43877, 43877), (65856, 65934), (65952, 65952), (119296, 119365)]

/-- The Cyrillic script. -/
def cyrillicRanges : List (Nat × Nat) :=
  [(1024, 1156), (1159, 1327), (7296, 7304), (7467, 7467), (7544, 7544), (11744, 11775),
   (42560, 42655), (65070, 65071), (122928, 122989), (123023, 123023)]

/-- The Armenian script. -/
def armenianRanges : List (Nat × Nat) :=
  [(1329, 1366), (1369, 1418), (1421, 1423), (64275, 64279)]

/-- The Hebrew script. -/
def hebrewRanges : List (Nat × Nat) :=
  [(1425, 1479), (1488, 1514), (1519, 1524), (64285, 64310), (64312, 64316), (64318, 64318),
   (64320, 64321), (64323, 64324), (64326, 64335)]

/-- The Arabic script. -/
def arabicRanges : List (Nat × Nat) :=
  [(1536, 1540), (1542, 1547), (1549, 1562), (1564, 1566), (1568, 1599), (1601, 1610),
   (1622, 1647), (1649, 1756), (1758, 1791), (1872, 1919), (2160, 2190), (2192, 2193),
   (2200, 2273), (2275, 2303), (64336, 64450), (64467, 64829), (64832, 64911), (64914, 64967),
   (64975, 64975), (65008, 65023), (65136, 65140), (65142, 65276), (69216, 69246),
   (69373, 69375), (126464, 126467), (126469, 126495), (126497, 126498), (126500, 126500),
   (126503, 126503), (126505, 126514), (126516, 126519), (126521, 126521), (126523, 126523),
   (126530, 126530), (126535, 126535), (126537, 126537), (126539, 126539), (126541, 126543),
   (126545, 126546), (126548, 126548), (126551, 126551), (126553, 126553), (126555, 126555),
   (126557, 126557), (126559, 126559), (126561, 126562), (126564, 126564), (126567, 126570),
   (126572, 126578), (126580, 126583), (126585, 126588), (126590, 126590), (126592, 126601),
   (126603, 126619), (126625, 126627), (126629, 126633), (126635, 126651), (126704, 126705)]

/-- The Devanagari script. -/
def devanagariRanges : List (Nat × Nat) :=
  [(2304, 2384), (2389, 2403), (2406, 2431), (43232, 43263), (72448, 72457)]

/-- The Bengali script. -/
def bengaliRanges : List (Nat × Nat) :=
  [(2432, 2435), (2437, 2444), (2447, 2448), (2451, 2472), (2474, 2480), (2482, 2482),
   (2486, 2489), (2492, 2500), (2503, 2504), (2507, 2510), (2519, 2519), (2524, 2525),
   (2527, 2531), (2534, 2558)]

/-- The Tamil script. -/
def tamilRanges : List (Nat × Nat) :=
  [(2946, 2947), (2949, 2954), (2958, 2960), (2962, 2965), (2969, 2970), (2972, 2972),
   (2974, 2975), (2979, 2980), (2984, 2986), (2990, 3001), (3006, 3010), (3014, 3016),
   (3018, 3021), (3024, 3024), (3031, 3031), (3046, 3066), (73664, 73713), (73727, 73727)]

/-- The Thai script. -/
def thaiRanges : List (Nat × Nat) :=
  [(3585, 3642), (3648, 3675)]

/-- The Tibetan script. -/
def tibetanRanges : List (Nat × Nat) :=
  [(3840, 3911), (3913, 3948), (3953, 3991), (3993, 4028), (4030, 4044), (4046, 4052),
   (4057, 4058)]

/-- The Georgian script. -/
def georgianRanges : List (Nat × Nat) :=
  [(4256, 4293), (4295, 4295), (4301, 4301), (4304, 4346), (4348, 4351), (7312, 7354),
   (7357, 7359), (11520, 11557), (11559, 11559), (11565, 11565)]

/-- The Hangul script. -/
def hangulRanges : List (Nat × Nat) :=
  [(4352, 4607), (12334, 12335), (12593, 12686), (12800, 12830), (12896, 12926), (43360, 43388),
   (44032, 55203), (55216, 55238), (55243, 55291), (65440, 65470), (65474, 65479),
   (65482, 65487), (65490, 65495), (65498, 65500)]

/-- The Ethiopic script. -/
def ethiopicRanges : List (Nat × Nat) :=
  [(4608, 4680), (4682, 4685), (4688, 4694), (4696, 4696), (4698, 4701), (4704, 4744),
   (4746, 4749), (4752, 4784), (4786, 4789), (4792, 4798), (4800, 4800), (4802, 4805),
   (4808, 4822), (4824, 4880), (4882, 4885), (4888, 4954), (4957, 4988), (4992, 5017),
   (11648, 11670), (11680, 11686), (11688, 11694), (11696, 11702), (11704, 11710),
   (11712, 11718), (11720, 11726), (11728, 11734), (11736, 11742), (43777, 43782),
   (43785, 43790), (43793, 43798), (43808, 43814), (43816, 43822), (124896, 124902),
   (124904, 124907), (124909, 124910), (124912, 124926)]

/-- The Cherokee script. -/
def cherokeeRanges : List (Nat × Nat) :=
  [(5024, 5109), (5112, 5117), (43888, 43967)]

/-- The Khmer script. -/
def khmerRanges : List (Nat × Nat) :=
  [(6016, 6109), (6112, 6121), (6128, 6137), (6624, 6655)]

/-- The Mongolian script. -/
def mongolianRanges : List (Nat × Nat) :=
  [(6144, 6145), (6148, 6148), (6150, 6169), (6176, 6264), (6272, 6314), (71264, 71276)]

/-- The Hiragana script. -/
def hiraganaRanges : List (Nat × Nat) :=
  [(12353, 12438), (12445, 12447), (110593, 110879), (110898, 110898), (110928, 110930),
   (127488, 127488)]

/-- The Katakana script. -/
def katakanaRanges : List (Nat × Nat) :=
  [(12449, 12538), (12541, 12543), (12784, 12799), (13008, 13054), (13056, 13143),
   (65382, 65391), (65393, 65437), (110576, 110579), (110581, 110587), (110589, 110590),
   (110592, 110592), (110880, 110882), (110933, 110933), (110948, 110951)]

/-- The Bopomofo script. -/
def bopomofoRanges : List (Nat × Nat) :=
  [(746, 747), (12549, 12591), (12704, 12735)]

/-- The Han script. -/
def hanRanges : List (Nat × Nat) :=
  [(11904, 11929), (11931, 12019), (12032, 12245), (12293, 12293), (12295, 12295),
   (12321, 12329), (12344, 12347), (13312, 19903), (19968, 40959), (63744, 64109),
   (64112, 64217), (94178, 94179), (94192, 94193), (131072, 173791), (173824, 177977),
   (177984, 178205), (178208, 183969), (183984, 191456), (194560, 195101), (196608, 201546),
   (201552, 205743)]

/-- Characters of several scripts. -/
def commonRanges : List (Nat × Nat) :=
  [(0, 64), (91, 96), (123, 169), (171, 185), (187, 191), (215, 215), (247, 247), (697, 735),
   (741, 745), (748, 767), (884, 884), (894, 894), (901, 901), (903, 903), (1541, 1541),
   (1548, 1548), (1563, 1563), (1567, 1567), (1600, 1600), (1757, 1757), (2274, 2274),
   (2404, 2405), (3647, 3647), (4053, 4056), (4347, 4347), (5867, 5869), (5941, 5942),
   (6146, 6147), (6149, 6149), (7379, 7379), (7393, 7393), (7401, 7404), (7406, 7411),
   (7413, 7415), (7418, 7418), (8192, 8203), (8206, 8292), (8294, 8304), (8308, 8318),
   (8320, 8334), (8352, 8384), (8448, 8485), (8487, 8489), (8492, 8497), (8499, 8525),
   (8527, 8543), (8585, 8587), (8592, 9254), (9280, 9290), (9312, 10239), (10496, 11123),
   (11126, 11157), (11159, 11263), (11776, 11869), (12272, 12283), (12288, 12292),
   (12294, 12294), (12296, 12320), (12336, 12343), (12348, 12351), (12443, 12444),
   (12448, 12448), (12539, 12540), (12688, 12703), (12736, 12771), (12832, 12895),
   (12927, 13007), (13055, 13055), (13144, 13311), (19904, 19967), (42752, 42785),
   (42888, 42890), (43056, 43065), (43310, 43310), (43471, 43471), (43867, 43867),
   (43882, 43883), (64830, 64831), (65040, 65049), (65072, 65106), (65108, 65126),
   (65128, 65131), (65279, 65279), (65281, 65312), (65339, 65344), (65371, 65381),
   (65392, 65392), (65438, 65439), (65504, 65510), (65512, 65518), (65529, 65533),
   (65792, 65794), (65799, 65843), (65847, 65855), (65936, 65948), (66000, 66044),
   (66273, 66299), (113824, 113827), (118608, 118723), (118784, 119029), (119040, 119078),
   (119081, 119142), (119146, 119162), (119171, 119172), (119180, 119209), (119214, 119274),
   (119488, 119507), (119520, 119539), (119552, 119638), (119648, 119672), (119808, 119892),
   (119894, 119964), (119966, 119967), (119970, 119970), (119973, 119974), (119977, 119980),
   (119982, 119993), (119995, 119995), (119997, 120003), (120005, 120069), (120071, 120074),
   (120077, 120084), (120086, 120092), (120094, 120121), (120123, 120126), (120128, 120132),
   (120134, 120134), (120138, 120144), (120146, 120485), (120488, 120779), (120782, 120831),
   (126065, 126132), (126209, 126269), (126976, 127019), (127024, 127123), (127136, 127150),
   (127153, 127167), (127169, 127183), (127185, 127221), (127232, 127405), (127462, 127487),
   (127489, 127490), (127504, 127547), (127552, 127560), (127568, 127569), (127584, 127589),
   (127744, 128727), (128732, 128748), (128752, 128764), (128768, 128886), (128891, 128985),
   (128992, 129003), (129008, 129008), (129024, 129035), (129040, 129095), (129104, 129113),
   (129120, 129159), (129168, 129197), (129200, 129201), (129280, 129619), (129632, 129645),
   (129648, 129660), (129664, 129672), (129680, 129725), (129727, 129733), (129742, 129755),
   (129760, 129768), (129776, 129784), (129792, 129938), (129940, 129994), (130032, 130041),
   (917505, 917505), (917536, 917631)]

/-- Marks that take the script of the character before. -/
def inheritedRanges : List (Nat × Nat) :=
  [(768, 879), (1157, 1158), (1611, 1621), (1648, 1648), (2385, 2388), (6832, 6862),
   (7376, 7378), (7380, 7392), (7394, 7400), (7405, 7405), (7412, 7412), (7416, 7417),
   (7616, 7679), (8204, 8205), (8400, 8432), (12330, 12333), (12441, 12442), (65024, 65039),
   (65056, 65069), (66045, 66045), (66272, 66272), (70459, 70459), (118528, 118573),
   (118576, 118598), (119143, 119145), (119163, 119170), (119173, 119179), (119210, 119213),
   (917760, 917999)]

end ActionTree.Text
