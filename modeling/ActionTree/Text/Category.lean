import ActionTree.Text.WordChar

/-!
The general categories of characters. Every character is in one of them; the letters, marks, numbers,
punctuation, symbols and separators that no narrower category takes are the other ones of their kind.
-/

namespace ActionTree.Text

/-- Is the character in one of the runs `first`, `first + stride`, … up to `last`? -/
def inRuns (runs : List (Nat × Nat × Nat)) (c : Char) : Bool :=
  runs.any fun (first, last, stride) =>
    first ≤ c.toNat && c.toNat ≤ last && (c.toNat - first) % stride == 0

/-- Capital letters. -/
def capitalRuns : List (Nat × Nat × Nat) :=
  [(65, 90, 1), (192, 214, 1), (216, 222, 1), (256, 310, 2), (313, 327, 2), (330, 376, 2),
   (377, 381, 2), (385, 386, 1), (388, 390, 2), (391, 393, 2), (394, 395, 1), (398, 401, 1),
   (403, 404, 1), (406, 408, 1), (412, 413, 1), (415, 416, 1), (418, 422, 2), (423, 425, 2),
   (428, 430, 2), (431, 433, 2), (434, 435, 1), (437, 439, 2), (440, 440, 1), (444, 444, 1),
   (452, 452, 1), (455, 455, 1), (458, 458, 1), (461, 475, 2), (478, 494, 2), (497, 497, 1),
   (500, 502, 2), (503, 504, 1), (506, 562, 2), (570, 571, 1), (573, 574, 1), (577, 579, 2),
   (580, 582, 1), (584, 590, 2), (880, 882, 2), (886, 886, 1), (895, 895, 1), (902, 904, 2),
   (905, 906, 1), (908, 910, 2), (911, 913, 2), (914, 929, 1), (931, 939, 1), (975, 975, 1),
   (978, 980, 1), (984, 1006, 2), (1012, 1012, 1), (1015, 1017, 2), (1018, 1018, 1),
   (1021, 1071, 1), (1120, 1152, 2), (1162, 1216, 2), (1217, 1229, 2), (1232, 1326, 2),
   (1329, 1366, 1), (4256, 4293, 1), (4295, 4295, 1), (4301, 4301, 1), (5024, 5109, 1),
   (7312, 7354, 1), (7357, 7359, 1), (7680, 7828, 2), (7838, 7934, 2), (7944, 7951, 1),
   (7960, 7965, 1), (7976, 7983, 1), (7992, 7999, 1), (8008, 8013, 1), (8025, 8031, 2),
   (8040, 8047, 1), (8120, 8123, 1), (8136, 8139, 1), (8152, 8155, 1), (8168, 8172, 1),
   (8184, 8187, 1), (8450, 8450, 1), (8455, 8455, 1), (8459, 8461, 1), (8464, 8466, 1),
   (8469, 8469, 1), (8473, 8477, 1), (8484, 8490, 2), (8491, 8493, 1), (8496, 8499, 1),
   (8510, 8511, 1), (8517, 8517, 1), (8579, 8579, 1), (11264, 11311, 1), (11360, 11362, 2),
   (11363, 11364, 1), (11367, 11373, 2), (11374, 11376, 1), (11378, 11378, 1), (11381, 11381, 1),
   (11390, 11392, 1), (11394, 11490, 2), (11499, 11501, 2), (11506, 11506, 1), (42560, 42604, 2),
   (42624, 42650, 2), (42786, 42798, 2), (42802, 42862, 2), (42873, 42877, 2), (42878, 42886, 2),
   (42891, 42893, 2), (42896, 42898, 2), (42902, 42922, 2), (42923, 42926, 1), (42928, 42932, 1),
   (42934, 42948, 2), (42949, 42951, 1), (42953, 42953, 1), (42960, 42960, 1), (42966, 42968, 2),
   (42997, 42997, 1), (65313, 65338, 1), (66560, 66599, 1), (66736, 66771, 1), (66928, 66938, 1),
   (66940, 66954, 1), (66956, 66962, 1), (66964, 66965, 1), (68736, 68786, 1), (71840, 71871, 1),
   (93760, 93791, 1), (119808, 119833, 1), (119860, 119885, 1), (119912, 119937, 1),
   (119964, 119966, 2), (119967, 119967, 1), (119970, 119970, 1), (119973, 119974, 1),
   (119977, 119980, 1), (119982, 119989, 1), (120016, 120041, 1), (120068, 120069, 1),
   (120071, 120074, 1), (120077, 120084, 1), (120086, 120092, 1), (120120, 120121, 1),
   (120123, 120126, 1), (120128, 120132, 1), (120134, 120134, 1), (120138, 120144, 1),
   (120172, 120197, 1), (120224, 120249, 1), (120276, 120301, 1), (120328, 120353, 1),
   (120380, 120405, 1), (120432, 120457, 1), (120488, 120512, 1), (120546, 120570, 1),
   (120604, 120628, 1), (120662, 120686, 1), (120720, 120744, 1), (120778, 120778, 1),
   (125184, 125217, 1)]

/-- Small letters. -/
def smallRuns : List (Nat × Nat × Nat) :=
  [(97, 122, 1), (181, 181, 1), (223, 246, 1), (248, 255, 1), (257, 311, 2), (312, 328, 2),
   (329, 375, 2), (378, 382, 2), (383, 384, 1), (387, 389, 2), (392, 392, 1), (396, 397, 1),
   (402, 402, 1), (405, 405, 1), (409, 411, 1), (414, 414, 1), (417, 421, 2), (424, 426, 2),
   (427, 429, 2), (432, 432, 1), (436, 438, 2), (441, 442, 1), (445, 447, 1), (454, 454, 1),
   (457, 457, 1), (460, 476, 2), (477, 495, 2), (496, 496, 1), (499, 501, 2), (505, 563, 2),
   (564, 569, 1), (572, 572, 1), (575, 576, 1), (578, 578, 1), (583, 591, 2), (592, 659, 1),
   (661, 687, 1), (881, 883, 2), (887, 887, 1), (891, 893, 1), (912, 912, 1), (940, 974, 1),
   (976, 977, 1), (981, 983, 1), (985, 1007, 2), (1008, 1011, 1), (1013, 1013, 1),
   (1016, 1016, 1), (1019, 1020, 1), (1072, 1119, 1), (1121, 1153, 2), (1163, 1215, 2),
   (1218, 1230, 2), (1231, 1327, 2), (1376, 1416, 1), (4304, 4346, 1), (4349, 4351, 1),
   (5112, 5117, 1), (7296, 7304, 1), (7424, 7467, 1), (7531, 7543, 1), (7545, 7578, 1),
   (7681, 7829, 2), (7830, 7837, 1), (7839, 7935, 2), (7936, 7943, 1), (7952, 7957, 1),
   (7968, 7975, 1), (7984, 7991, 1), (8000, 8005, 1), (8016, 8023, 1), (8032, 8039, 1),
   (8048, 8061, 1), (8064, 8071, 1), (8080, 8087, 1), (8096, 8103, 1), (8112, 8116, 1),
   (8118, 8119, 1), (8126, 8126, 1), (8130, 8132, 1), (8134, 8135, 1), (8144, 8147, 1),
   (8150, 8151, 1), (8160, 8167, 1), (8178, 8180, 1), (8182, 8183, 1), (8458, 8458, 1),
   (8462, 8463, 1), (8467, 8467, 1), (8495, 8495, 1), (8500, 8500, 1), (8505, 8505, 1),
   (8508, 8509, 1), (8518, 8521, 1), (8526, 8526, 1), (8580, 8580, 1), (11312, 11359, 1),
   (11361, 11361, 1), (11365, 11366, 1), (11368, 11372, 2), (11377, 11379, 2), (11380, 11382, 2),
   (11383, 11387, 1), (11393, 11491, 2), (11492, 11492, 1), (11500, 11502, 2), (11507, 11507, 1),
   (11520, 11557, 1), (11559, 11559, 1), (11565, 11565, 1), (42561, 42605, 2), (42625, 42651, 2),
   (42787, 42799, 2), (42800, 42801, 1), (42803, 42865, 2), (42866, 42872, 1), (42874, 42876, 2),
   (42879, 42887, 2), (42892, 42894, 2), (42897, 42899, 2), (42900, 42901, 1), (42903, 42921, 2),
   (42927, 42927, 1), (42933, 42947, 2), (42952, 42954, 2), (42961, 42969, 2), (42998, 42998, 1),
   (43002, 43002, 1), (43824, 43866, 1), (43872, 43880, 1), (43888, 43967, 1), (64256, 64262, 1),
   (64275, 64279, 1), (65345, 65370, 1), (66600, 66639, 1), (66776, 66811, 1), (66967, 66977, 1),
   (66979, 66993, 1), (66995, 67001, 1), (67003, 67004, 1), (68800, 68850, 1), (71872, 71903, 1),
   (93792, 93823, 1), (119834, 119859, 1), (119886, 119892, 1), (119894, 119911, 1),
   (119938, 119963, 1), (119990, 119993, 1), (119995, 119997, 2), (119998, 120003, 1),
   (120005, 120015, 1), (120042, 120067, 1), (120094, 120119, 1), (120146, 120171, 1),
   (120198, 120223, 1), (120250, 120275, 1), (120302, 120327, 1), (120354, 120379, 1),
   (120406, 120431, 1), (120458, 120485, 1), (120514, 120538, 1), (120540, 120545, 1),
   (120572, 120596, 1), (120598, 120603, 1), (120630, 120654, 1), (120656, 120661, 1),
   (120688, 120712, 1), (120714, 120719, 1), (120746, 120770, 1), (120772, 120777, 1),
   (120779, 120779, 1), (122624, 122633, 1), (122635, 122654, 1), (122661, 122666, 1),
   (125218, 125251, 1)]

/-- Punctuation. -/
def punctuationRanges : List (Nat × Nat) :=
  [(33, 35), (37, 42), (44, 47), (58, 59), (63, 64), (91, 93), (95, 95), (123, 123), (125, 125),
   (161, 161), (167, 167), (171, 171), (182, 183), (187, 187), (191, 191), (894, 894), (903, 903),
   (1370, 1375), (1417, 1418), (1470, 1470), (1472, 1472), (1475, 1475), (1478, 1478),
   (1523, 1524), (1545, 1546), (1548, 1549), (1563, 1563), (1565, 1567), (1642, 1645),
   (1748, 1748), (1792, 1805), (2039, 2041), (2096, 2110), (2142, 2142), (2404, 2405),
   (2416, 2416), (2557, 2557), (2678, 2678), (2800, 2800), (3191, 3191), (3204, 3204),
   (3572, 3572), (3663, 3663), (3674, 3675), (3844, 3858), (3860, 3860), (3898, 3901),
   (3973, 3973), (4048, 4052), (4057, 4058), (4170, 4175), (4347, 4347), (4960, 4968),
   (5120, 5120), (5742, 5742), (5787, 5788), (5867, 5869), (5941, 5942), (6100, 6102),
   (6104, 6106), (6144, 6154), (6468, 6469), (6686, 6687), (6816, 6822), (6824, 6829),
   (7002, 7008), (7037, 7038), (7164, 7167), (7227, 7231), (7294, 7295), (7360, 7367),
   (7379, 7379), (8208, 8231), (8240, 8259), (8261, 8273), (8275, 8286), (8317, 8318),
   (8333, 8334), (8968, 8971), (9001, 9002), (10088, 10101), (10181, 10182), (10214, 10223),
   (10627, 10648), (10712, 10715), (10748, 10749), (11513, 11516), (11518, 11519), (11632, 11632),
   (11776, 11822), (11824, 11855), (11858, 11869), (12289, 12291), (12296, 12305), (12308, 12319),
   (12336, 12336), (12349, 12349), (12448, 12448), (12539, 12539), (42238, 42239), (42509, 42511),
   (42611, 42611), (42622, 42622), (42738, 42743), (43124, 43127), (43214, 43215), (43256, 43258),
   (43260, 43260), (43310, 43311), (43359, 43359), (43457, 43469), (43486, 43487), (43612, 43615),
   (43742, 43743), (43760, 43761), (44011, 44011), (64830, 64831), (65040, 65049), (65072, 65106),
   (65108, 65121), (65123, 65123), (65128, 65128), (65130, 65131), (65281, 65283), (65285, 65290),
   (65292, 65295), (65306, 65307), (65311, 65312), (65339, 65341), (65343, 65343), (65371, 65371),
   (65373, 65373), (65375, 65381), (65792, 65794), (66463, 66463), (66512, 66512), (66927, 66927),
   (67671, 67671), (67871, 67871), (67903, 67903), (68176, 68184), (68223, 68223), (68336, 68342),
   (68409, 68415), (68505, 68508), (69293, 69293), (69461, 69465), (69510, 69513), (69703, 69709),
   (69819, 69820), (69822, 69825), (69952, 69955), (70004, 70005), (70085, 70088), (70093, 70093),
   (70107, 70107), (70109, 70111), (70200, 70205), (70313, 70313), (70731, 70735), (70746, 70747),
   (70749, 70749), (70854, 70854), (71105, 71127), (71233, 71235), (71264, 71276), (71353, 71353),
   (71484, 71486), (71739, 71739), (72004, 72006), (72162, 72162), (72255, 72262), (72346, 72348),
   (72350, 72354), (72448, 72457), (72769, 72773), (72816, 72817), (73463, 73464), (73539, 73551),
   (73727, 73727), (74864, 74868), (77809, 77810), (92782, 92783), (92917, 92917), (92983, 92987),
   (92996, 92996), (93847, 93850), (94178, 94178), (113823, 113823), (121479, 121483),
   (125278, 125279)]

/-- Symbols. -/
def symbolRanges : List (Nat × Nat) :=
  [(36, 36), (43, 43), (60, 62), (94, 94), (96, 96), (124, 124), (126, 126), (162, 166),
   (168, 169), (172, 172), (174, 177), (180, 180), (184, 184), (215, 215), (247, 247), (706, 709),
   (722, 735), (741, 747), (749, 749), (751, 767), (885, 885), (900, 901), (1014, 1014),
   (1154, 1154), (1421, 1423), (1542, 1544), (1547, 1547), (1550, 1551), (1758, 1758),
   (1769, 1769), (1789, 1790), (2038, 2038), (2046, 2047), (2184, 2184), (2546, 2547),
   (2554, 2555), (2801, 2801), (2928, 2928), (3059, 3066), (3199, 3199), (3407, 3407),
   (3449, 3449), (3647, 3647), (3841, 3843), (3859, 3859), (3861, 3863), (3866, 3871),
   (3892, 3892), (3894, 3894), (3896, 3896), (4030, 4037), (4039, 4044), (4046, 4047),
   (4053, 4056), (4254, 4255), (5008, 5017), (5741, 5741), (6107, 6107), (6464, 6464),
   (6622, 6655), (7009, 7018), (7028, 7036), (8125, 8125), (8127, 8129), (8141, 8143),
   (8157, 8159), (8173, 8175), (8189, 8190), (8260, 8260), (8274, 8274), (8314, 8316),
   (8330, 8332), (8352, 8384), (8448, 8449), (8451, 8454), (8456, 8457), (8468, 8468),
   (8470, 8472), (8478, 8483), (8485, 8485), (8487, 8487), (8489, 8489), (8494, 8494),
   (8506, 8507), (8512, 8516), (8522, 8525), (8527, 8527), (8586, 8587), (8592, 8967),
   (8972, 9000), (9003, 9254), (9280, 9290), (9372, 9449), (9472, 10087), (10132, 10180),
   (10183, 10213), (10224, 10626), (10649, 10711), (10716, 10747), (10750, 11123), (11126, 11157),
   (11159, 11263), (11493, 11498), (11856, 11857), (11904, 11929), (11931, 12019), (12032, 12245),
   (12272, 12283), (12292, 12292), (12306, 12307), (12320, 12320), (12342, 12343), (12350, 12351),
   (12443, 12444), (12688, 12689), (12694, 12703), (12736, 12771), (12800, 12830), (12842, 12871),
   (12880, 12880), (12896, 12927), (12938, 12976), (12992, 13311), (19904, 19967), (42128, 42182),
   (42752, 42774), (42784, 42785), (42889, 42890), (43048, 43051), (43062, 43065), (43639, 43641),
   (43867, 43867), (43882, 43883), (64297, 64297), (64434, 64450), (64832, 64847), (64975, 64975),
   (65020, 65023), (65122, 65122), (65124, 65126), (65129, 65129), (65284, 65284), (65291, 65291),
   (65308, 65310), (65342, 65342), (65344, 65344), (65372, 65372), (65374, 65374), (65504, 65510),
   (65512, 65518), (65532, 65533), (65847, 65855), (65913, 65929), (65932, 65934), (65936, 65948),
   (65952, 65952), (66000, 66044), (67703, 67704), (68296, 68296), (71487, 71487), (73685, 73713),
   (92988, 92991), (92997, 92997), (113820, 113820), (118608, 118723), (118784, 119029),
   (119040, 119078), (119081, 119140), (119146, 119148), (119171, 119172), (119180, 119209),
   (119214, 119274), (119296, 119361), (119365, 119365), (119552, 119638), (120513, 120513),
   (120539, 120539), (120571, 120571), (120597, 120597), (120629, 120629), (120655, 120655),
   (120687, 120687), (120713, 120713), (120745, 120745), (120771, 120771), (120832, 121343),
   (121399, 121402), (121453, 121460), (121462, 121475), (121477, 121478), (123215, 123215),
   (123647, 123647), (126124, 126124), (126128, 126128), (126254, 126254), (126704, 126705),
   (126976, 127019), (127024, 127123), (127136, 127150), (127153, 127167), (127169, 127183),
   (127185, 127221), (127245, 127405), (127462, 127490), (127504, 127547), (127552, 127560),
   (127568, 127569), (127584, 127589), (127744, 128727), (128732, 128748), (128752, 128764),
   (128768, 128886), (128891, 128985), (128992, 129003), (129008, 129008), (129024, 129035),
   (129040, 129095), (129104, 129113), (129120, 129159), (129168, 129197), (129200, 129201),
   (129280, 129619), (129632, 129645), (129648, 129660), (129664, 129672), (129680, 129725),
   (129727, 129733), (129742, 129755), (129760, 129768), (129776, 129784), (129792, 129938),
   (129940, 129994)]

/-- Separators. -/
def separatorRanges : List (Nat × Nat) :=
  [(32, 32), (160, 160), (5760, 5760), (8192, 8202), (8232, 8233), (8239, 8239), (8287, 8287),
   (12288, 12288)]

/-- Digraphs with a capital first letter. -/
def titleLetterRanges : List (Nat × Nat) :=
  [(453, 453), (456, 456), (459, 459), (498, 498), (8072, 8079), (8088, 8095), (8104, 8111),
   (8124, 8124), (8140, 8140), (8188, 8188)]

/-- Letters that modify the one before. -/
def modifierLetterRanges : List (Nat × Nat) :=
  [(688, 705), (710, 721), (736, 740), (748, 748), (750, 750), (884, 884), (890, 890),
   (1369, 1369), (1600, 1600), (1765, 1766), (2036, 2037), (2042, 2042), (2074, 2074),
   (2084, 2084), (2088, 2088), (2249, 2249), (2417, 2417), (3654, 3654), (3782, 3782),
   (4348, 4348), (6103, 6103), (6211, 6211), (6823, 6823), (7288, 7293), (7468, 7530),
   (7544, 7544), (7579, 7615), (8305, 8305), (8319, 8319), (8336, 8348), (11388, 11389),
   (11631, 11631), (11823, 11823), (12293, 12293), (12337, 12341), (12347, 12347),
   (12445, 12446), (12540, 12542), (40981, 40981), (42232, 42237), (42508, 42508),
   (42623, 42623), (42652, 42653), (42775, 42783), (42864, 42864), (42888, 42888),
   (42994, 42996), (43000, 43001), (43471, 43471), (43494, 43494), (43632, 43632),
   (43741, 43741), (43763, 43764), (43868, 43871), (43881, 43881), (65392, 65392),
   (65438, 65439), (67456, 67461), (67463, 67504), (67506, 67514), (92992, 92995),
   (94099, 94111), (94176, 94177), (94179, 94179), (110576, 110579), (110581, 110587),
   (110589, 110590), (122928, 122989), (123191, 123197), (124139, 124139), (125259, 125259)]

/-- Marks with a width of their own. -/
def spacingMarkRanges : List (Nat × Nat) :=
  [(2307, 2307), (2363, 2363), (2366, 2368), (2377, 2380), (2382, 2383), (2434, 2435),
   (2494, 2496), (2503, 2504), (2507, 2508), (2519, 2519), (2563, 2563), (2622, 2624),
   (2691, 2691), (2750, 2752), (2761, 2761), (2763, 2764), (2818, 2819), (2878, 2878),
   (2880, 2880), (2887, 2888), (2891, 2892), (2903, 2903), (3006, 3007), (3009, 3010),
   (3014, 3016), (3018, 3020), (3031, 3031), (3073, 3075), (3137, 3140), (3202, 3203),
   (3262, 3262), (3264, 3268), (3271, 3272), (3274, 3275), (3285, 3286), (3315, 3315),
   (3330, 3331), (3390, 3392), (3398, 3400), (3402, 3404), (3415, 3415), (3458, 3459),
   (3535, 3537), (3544, 3551), (3570, 3571), (3902, 3903), (3967, 3967), (4139, 4140),
   (4145, 4145), (4152, 4152), (4155, 4156), (4182, 4183), (4194, 4196), (4199, 4205),
   (4227, 4228), (4231, 4236), (4239, 4239), (4250, 4252), (5909, 5909), (5940, 5940),
   (6070, 6070), (6078, 6085), (6087, 6088), (6435, 6438), (6441, 6443), (6448, 6449),
   (6451, 6456), (6681, 6682), (6741, 6741), (6743, 6743), (6753, 6753), (6755, 6756),
   (6765, 6770), (6916, 6916), (6965, 6965), (6971, 6971), (6973, 6977), (6979, 6980),
   (7042, 7042), (7073, 7073), (7078, 7079), (7082, 7082), (7143, 7143), (7146, 7148),
   (7150, 7150), (7154, 7155), (7204, 7211), (7220, 7221), (7393, 7393), (7415, 7415),
   (12334, 12335), (43043, 43044), (43047, 43047), (43136, 43137), (43188, 43203),
   (43346, 43347), (43395, 43395), (43444, 43445), (43450, 43451), (43454, 43456),
   (43567, 43568), (43571, 43572), (43597, 43597), (43643, 43643), (43645, 43645),
   (43755, 43755), (43758, 43759), (43765, 43765), (44003, 44004), (44006, 44007),
   (44009, 44010), (44012, 44012), (69632, 69632), (69634, 69634), (69762, 69762),
   (69808, 69810), (69815, 69816), (69932, 69932), (69957, 69958), (70018, 70018),
   (70067, 70069), (70079, 70080), (70094, 70094), (70188, 70190), (70194, 70195),
   (70197, 70197), (70368, 70370), (70402, 70403), (70462, 70463), (70465, 70468),
   (70471, 70472), (70475, 70477), (70487, 70487), (70498, 70499), (70709, 70711),
   (70720, 70721), (70725, 70725), (70832, 70834), (70841, 70841), (70843, 70846),
   (70849, 70849), (71087, 71089), (71096, 71099), (71102, 71102), (71216, 71218),
   (71227, 71228), (71230, 71230), (71340, 71340), (71342, 71343), (71350, 71350),
   (71456, 71457), (71462, 71462), (71724, 71726), (71736, 71736), (71984, 71989),
   (71991, 71992), (71997, 71997), (72000, 72000), (72002, 72002), (72145, 72147),
   (72156, 72159), (72164, 72164), (72249, 72249), (72279, 72280), (72343, 72343),
   (72751, 72751), (72766, 72766), (72873, 72873), (72881, 72881), (72884, 72884),
   (73098, 73102), (73107, 73108), (73110, 73110), (73461, 73462), (73475, 73475),
   (73524, 73525), (73534, 73535), (73537, 73537), (94033, 94087), (94192, 94193),
   (119141, 119142), (119149, 119154)]

/-- Marks around the character before. -/
def enclosingMarkRanges : List (Nat × Nat) :=
  [(1160, 1161), (6846, 6846), (8413, 8416), (8418, 8420), (42608, 42610)]

/-- Numbers written as letters. -/
def letterNumberRanges : List (Nat × Nat) :=
  [(5870, 5872), (8544, 8578), (8581, 8584), (12295, 12295), (12321, 12329), (12344, 12346),
   (42726, 42735), (65856, 65908), (66369, 66369), (66378, 66378), (66513, 66517),
   (74752, 74862)]

/-- Punctuation that joins words. -/
def connectorRanges : List (Nat × Nat) :=
  [(95, 95), (8255, 8256), (8276, 8276), (65075, 65076), (65101, 65103), (65343, 65343)]

/-- Dashes. -/
def dashPunctuationRanges : List (Nat × Nat) :=
  [(45, 45), (1418, 1418), (1470, 1470), (5120, 5120), (6150, 6150), (8208, 8213),
   (11799, 11799), (11802, 11802), (11834, 11835), (11840, 11840), (11869, 11869),
   (12316, 12316), (12336, 12336), (12448, 12448), (65073, 65074), (65112, 65112),
   (65123, 65123), (65293, 65293), (69293, 69293)]

/-- Opening brackets. -/
def openingRanges : List (Nat × Nat) :=
  [(40, 40), (91, 91), (123, 123), (3898, 3898), (3900, 3900), (5787, 5787), (8218, 8218),
   (8222, 8222), (8261, 8261), (8317, 8317), (8333, 8333), (8968, 8968), (8970, 8970),
   (9001, 9001), (10088, 10088), (10090, 10090), (10092, 10092), (10094, 10094), (10096, 10096),
   (10098, 10098), (10100, 10100), (10181, 10181), (10214, 10214), (10216, 10216),
   (10218, 10218), (10220, 10220), (10222, 10222), (10627, 10627), (10629, 10629),
   (10631, 10631), (10633, 10633), (10635, 10635), (10637, 10637), (10639, 10639),
   (10641, 10641), (10643, 10643), (10645, 10645), (10647, 10647), (10712, 10712),
   (10714, 10714), (10748, 10748), (11810, 11810), (11812, 11812), (11814, 11814),
   (11816, 11816), (11842, 11842), (11861, 11861), (11863, 11863), (11865, 11865),
   (11867, 11867), (12296, 12296), (12298, 12298), (12300, 12300), (12302, 12302),
   (12304, 12304), (12308, 12308), (12310, 12310), (12312, 12312), (12314, 12314),
   (12317, 12317), (64831, 64831), (65047, 65047), (65077, 65077), (65079, 65079),
   (65081, 65081), (65083, 65083), (65085, 65085), (65087, 65087), (65089, 65089),
   (65091, 65091), (65095, 65095), (65113, 65113), (65115, 65115), (65117, 65117),
   (65288, 65288), (65339, 65339), (65371, 65371), (65375, 65375), (65378, 65378)]

/-- Closing brackets. -/
def closingRanges : List (Nat × Nat) :=
  [(41, 41), (93, 93), (125, 125), (3899, 3899), (3901, 3901), (5788, 5788), (8262, 8262),
   (8318, 8318), (8334, 8334), (8969, 8969), (8971, 8971), (9002, 9002), (10089, 10089),
   (10091, 10091), (10093, 10093), (10095, 10095), (10097, 10097), (10099, 10099),
   (10101, 10101), (10182, 10182), (10215, 10215), (10217, 10217), (10219, 10219),
   (10221, 10221), (10223, 10223), (10628, 10628), (10630, 10630), (10632, 10632),
   (10634, 10634), (10636, 10636), (10638, 10638), (10640, 10640), (10642, 10642),
   (10644, 10644), (10646, 10646), (10648, 10648), (10713, 10713), (10715, 10715),
   (10749, 10749), (11811, 11811), (11813, 11813), (11815, 11815), (11817, 11817),
   (11862, 11862), (11864, 11864), (11866, 11866), (11868, 11868), (12297, 12297),
   (12299, 12299), (12301, 12301), (12303, 12303), (12305, 12305), (12309, 12309),
   (12311, 12311), (12313, 12313), (12315, 12315), (12318, 12319), (64830, 64830),
   (65048, 65048), (65078, 65078), (65080, 65080), (65082, 65082), (65084, 65084),
   (65086, 65086), (65088, 65088), (65090, 65090), (65092, 65092), (65096, 65096),
   (65114, 65114), (65116, 65116), (65118, 65118), (65289, 65289), (65341, 65341),
   (65373, 65373), (65376, 65376), (65379, 65379)]

/-- Opening quotes. -/
def initialQuoteRanges : List (Nat × Nat) :=
  [(171, 171), (8216, 8216), (8219, 8220), (8223, 8223), (8249, 8249), (11778, 11778),
   (11780, 11780), (11785, 11785), (11788, 11788), (11804, 11804), (11808, 11808)]

/-- Closing quotes. -/
def finalQuoteRanges : List (Nat × Nat) :=
  [(187, 187), (8217, 8217), (8221, 8221), (8250, 8250), (11779, 11779), (11781, 11781),
   (11786, 11786), (11789, 11789), (11805, 11805), (11809, 11809)]

/-- Mathematical symbols. -/
def mathSymbolRanges : List (Nat × Nat) :=
  [(43, 43), (60, 62), (124, 124), (126, 126), (172, 172), (177, 177), (215, 215), (247, 247),
   (1014, 1014), (1542, 1544), (8260, 8260), (8274, 8274), (8314, 8316), (8330, 8332),
   (8472, 8472), (8512, 8516), (8523, 8523), (8592, 8596), (8602, 8603), (8608, 8608),
   (8611, 8611), (8614, 8614), (8622, 8622), (8654, 8655), (8658, 8658), (8660, 8660),
   (8692, 8959), (8992, 8993), (9084, 9084), (9115, 9139), (9180, 9185), (9655, 9655),
   (9665, 9665), (9720, 9727), (9839, 9839), (10176, 10180), (10183, 10213), (10224, 10239),
   (10496, 10626), (10649, 10711), (10716, 10747), (10750, 11007), (11056, 11076),
   (11079, 11084), (64297, 64297), (65122, 65122), (65124, 65126), (65291, 65291),
   (65308, 65310), (65372, 65372), (65374, 65374), (65506, 65506), (65513, 65516),
   (120513, 120513), (120539, 120539), (120571, 120571), (120597, 120597), (120629, 120629),
   (120655, 120655), (120687, 120687), (120713, 120713), (120745, 120745), (120771, 120771),
   (126704, 126705)]

/-- Currency symbols. -/
def currencyRanges : List (Nat × Nat) :=
  [(36, 36), (162, 165), (1423, 1423), (1547, 1547), (2046, 2047), (2546, 2547), (2555, 2555),
   (2801, 2801), (3065, 3065), (3647, 3647), (6107, 6107), (8352, 8384), (43064, 43064),
   (65020, 65020), (65129, 65129), (65284, 65284), (65504, 65505), (65509, 65510),
   (73693, 73696), (123647, 123647), (126128, 126128)]

/-- Symbols that modify the character before. -/
def modifierSymbolRanges : List (Nat × Nat) :=
  [(94, 94), (96, 96), (168, 168), (175, 175), (180, 180), (184, 184), (706, 709), (722, 735),
   (741, 747), (749, 749), (751, 767), (885, 885), (900, 901), (2184, 2184), (8125, 8125),
   (8127, 8129), (8141, 8143), (8157, 8159), (8173, 8175), (8189, 8190), (12443, 12444),
   (42752, 42774), (42784, 42785), (42889, 42890), (43867, 43867), (43882, 43883),
   (64434, 64450), (65342, 65342), (65344, 65344), (65507, 65507), (127995, 127999)]

/-- Characters that only direct the layout. -/
def formatRanges : List (Nat × Nat) :=
  [(173, 173), (1536, 1541), (1564, 1564), (1757, 1757), (1807, 1807), (2192, 2193),
   (2274, 2274), (6158, 6158), (8203, 8207), (8234, 8238), (8288, 8292), (8294, 8303),
   (65279, 65279), (65529, 65531), (69821, 69821), (69837, 69837), (78896, 78911),
   (113824, 113827), (119155, 119162), (917505, 917505), (917536, 917631)]

/-- Characters without a public meaning. -/
def privateUseRanges : List (Nat × Nat) :=
  [(57344, 63743), (983040, 1048573), (1048576, 1114109)]

/-- Letters that are drawn in a circle or a square are symbols. -/
def framedLetterRanges : List (Nat × Nat) :=
  [(9398, 9449), (127280, 127305), (127312, 127337), (127344, 127369)]

def isCapital (c : Char) : Bool := inRuns capitalRuns c

def isSmall (c : Char) : Bool := inRuns smallRuns c

def isMark (c : Char) : Bool := inRanges markRanges c

/-- A letter proper: what is alphabetic and no mark, number or symbol. -/
def isLetter (c : Char) : Bool :=
  isAlphabetic c && !isMark c && !isNumeric c && !inRanges framedLetterRanges c

/-- A capital letter, or a number or symbol in the form of one. -/
def isUppercase (c : Char) : Bool :=
  isCapital c || inRanges [(8544, 8559), (9398, 9423), (127280, 127305), (127312, 127337),
    (127344, 127369)] c

/-- A small letter, or a modifier, number or symbol in the form of one. -/
def isLowercase (c : Char) : Bool :=
  isSmall c || inRanges [(170, 170), (186, 186), (688, 696), (704, 705), (736, 740), (837, 837),
    (890, 890), (4348, 4348), (7468, 7530), (7544, 7544), (7579, 7615), (8305, 8305), (8319, 8319),
    (8336, 8348), (8560, 8575), (9424, 9449), (11388, 11389), (42652, 42653), (42864, 42864),
    (42994, 42996), (43000, 43001), (43868, 43871), (43881, 43881), (67456, 67456),
    (67459, 67461), (67463, 67504), (67506, 67514), (122928, 122989)] c

inductive Category where
  | capitalLetter | smallLetter | titleLetter | modifierLetter | otherLetter
  | nonspacingMark | spacingMark | enclosingMark
  | decimalDigit | letterNumber | otherNumber
  | connector | dash | opening | closing | initialQuote | finalQuote | otherPunctuation
  | mathSymbol | currency | modifierSymbol | otherSymbol
  | space | lineSeparator | paragraphSeparator
  | control | format | privateUse | unassigned
  deriving DecidableEq

/-- Has the character a general category? -/
def isAssigned (c : Char) : Bool :=
  isLetter c || isMark c || isNumeric c || isControl c ||
    [punctuationRanges, symbolRanges, separatorRanges, formatRanges, privateUseRanges].any
      fun ranges => inRanges ranges c

/-- Is the character in the category? -/
def Category.has (c : Char) : Category → Bool
  | capitalLetter => isCapital c
  | smallLetter => isSmall c
  | titleLetter => inRanges titleLetterRanges c
  | modifierLetter => inRanges modifierLetterRanges c
  | otherLetter => isLetter c && !(isCapital c || isSmall c ||
      inRanges titleLetterRanges c || inRanges modifierLetterRanges c)
  | nonspacingMark => isMark c && !(inRanges spacingMarkRanges c || inRanges enclosingMarkRanges c)
  | spacingMark => inRanges spacingMarkRanges c
  | enclosingMark => inRanges enclosingMarkRanges c
  | decimalDigit => isDecimalDigit c
  | letterNumber => inRanges letterNumberRanges c
  | otherNumber => isNumeric c && !(isDecimalDigit c || inRanges letterNumberRanges c)
  | connector => inRanges connectorRanges c
  | dash => inRanges dashPunctuationRanges c
  | opening => inRanges openingRanges c
  | closing => inRanges closingRanges c
  | initialQuote => inRanges initialQuoteRanges c
  | finalQuote => inRanges finalQuoteRanges c
  | otherPunctuation => inRanges punctuationRanges c &&
      [connectorRanges, dashPunctuationRanges, openingRanges, closingRanges, initialQuoteRanges,
        finalQuoteRanges].all fun ranges => !inRanges ranges c
  | mathSymbol => inRanges mathSymbolRanges c
  | currency => inRanges currencyRanges c
  | modifierSymbol => inRanges modifierSymbolRanges c
  | otherSymbol => inRanges symbolRanges c &&
      [mathSymbolRanges, currencyRanges, modifierSymbolRanges].all fun ranges => !inRanges ranges c
  | space => inRanges separatorRanges c && !inRanges [(8232, 8233)] c
  | lineSeparator => c.toNat == 8232
  | paragraphSeparator => c.toNat == 8233
  | control => isControl c
  | format => inRanges formatRanges c
  | privateUse => inRanges privateUseRanges c
  | unassigned => !isAssigned c

end ActionTree.Text
