import ActionTree.Text.Category

/-!
Further properties of characters: pictures, mathematics, dashes, ideographs, and what names of
programs may be made of.
-/

namespace ActionTree.Text

/-- Characters that may be shown as pictures. -/
def emojiRanges : List (Nat × Nat) :=
  [(35, 35), (42, 42), (48, 57), (169, 169), (174, 174), (8252, 8252), (8265, 8265),
   (8482, 8482), (8505, 8505), (8596, 8601), (8617, 8618), (8986, 8987), (9000, 9000),
   (9167, 9167), (9193, 9203), (9208, 9210), (9410, 9410), (9642, 9643), (9654, 9654),
   (9664, 9664), (9723, 9726), (9728, 9732), (9742, 9742), (9745, 9745), (9748, 9749),
   (9752, 9752), (9757, 9757), (9760, 9760), (9762, 9763), (9766, 9766), (9770, 9770),
   (9774, 9775), (9784, 9786), (9792, 9792), (9794, 9794), (9800, 9811), (9823, 9824),
   (9827, 9827), (9829, 9830), (9832, 9832), (9851, 9851), (9854, 9855), (9874, 9879),
   (9881, 9881), (9883, 9884), (9888, 9889), (9895, 9895), (9898, 9899), (9904, 9905),
   (9917, 9918), (9924, 9925), (9928, 9928), (9934, 9935), (9937, 9937), (9939, 9940),
   (9961, 9962), (9968, 9973), (9975, 9978), (9981, 9981), (9986, 9986), (9989, 9989),
   (9992, 9997), (9999, 9999), (10002, 10002), (10004, 10004), (10006, 10006), (10013, 10013),
   (10017, 10017), (10024, 10024), (10035, 10036), (10052, 10052), (10055, 10055),
   (10060, 10060), (10062, 10062), (10067, 10069), (10071, 10071), (10083, 10084),
   (10133, 10135), (10145, 10145), (10160, 10160), (10175, 10175), (10548, 10549),
   (11013, 11015), (11035, 11036), (11088, 11088), (11093, 11093), (12336, 12336),
   (12349, 12349), (12951, 12951), (12953, 12953), (126980, 126980), (127183, 127183),
   (127344, 127345), (127358, 127359), (127374, 127374), (127377, 127386), (127462, 127487),
   (127489, 127490), (127514, 127514), (127535, 127535), (127538, 127546), (127568, 127569),
   (127744, 127777), (127780, 127891), (127894, 127895), (127897, 127899), (127902, 127984),
   (127987, 127989), (127991, 128253), (128255, 128317), (128329, 128334), (128336, 128359),
   (128367, 128368), (128371, 128378), (128391, 128391), (128394, 128397), (128400, 128400),
   (128405, 128406), (128420, 128421), (128424, 128424), (128433, 128434), (128444, 128444),
   (128450, 128452), (128465, 128467), (128476, 128478), (128481, 128481), (128483, 128483),
   (128488, 128488), (128495, 128495), (128499, 128499), (128506, 128591), (128640, 128709),
   (128715, 128722), (128725, 128727), (128732, 128741), (128745, 128745), (128747, 128748),
   (128752, 128752), (128755, 128764), (128992, 129003), (129008, 129008), (129292, 129338),
   (129340, 129349), (129351, 129535), (129648, 129660), (129664, 129672), (129680, 129725),
   (129727, 129733), (129742, 129755), (129760, 129768), (129776, 129784)]

/-- Characters that are shown as pictures unless told otherwise. -/
def emojiPresentationRanges : List (Nat × Nat) :=
  [(8986, 8987), (9193, 9196), (9200, 9200), (9203, 9203), (9725, 9726), (9748, 9749),
   (9800, 9811), (9855, 9855), (9875, 9875), (9889, 9889), (9898, 9899), (9917, 9918),
   (9924, 9925), (9934, 9934), (9940, 9940), (9962, 9962), (9970, 9971), (9973, 9973),
   (9978, 9978), (9981, 9981), (9989, 9989), (9994, 9995), (10024, 10024), (10060, 10060),
   (10062, 10062), (10067, 10069), (10071, 10071), (10133, 10135), (10160, 10160),
   (10175, 10175), (11035, 11036), (11088, 11088), (11093, 11093), (126980, 126980),
   (127183, 127183), (127374, 127374), (127377, 127386), (127462, 127487), (127489, 127489),
   (127514, 127514), (127535, 127535), (127538, 127542), (127544, 127546), (127568, 127569),
   (127744, 127776), (127789, 127797), (127799, 127868), (127870, 127891), (127904, 127946),
   (127951, 127955), (127968, 127984), (127988, 127988), (127992, 128062), (128064, 128064),
   (128066, 128252), (128255, 128317), (128331, 128334), (128336, 128359), (128378, 128378),
   (128405, 128406), (128420, 128420), (128507, 128591), (128640, 128709), (128716, 128716),
   (128720, 128722), (128725, 128727), (128732, 128735), (128747, 128748), (128756, 128764),
   (128992, 129003), (129008, 129008), (129292, 129338), (129340, 129349), (129351, 129535),
   (129648, 129660), (129664, 129672), (129680, 129725), (129727, 129733), (129742, 129755),
   (129760, 129768), (129776, 129784)]

/-- Pictures, and code points kept for them. -/
def pictographRanges : List (Nat × Nat) :=
  [(169, 169), (174, 174), (8252, 8252), (8265, 8265), (8482, 8482), (8505, 8505), (8596, 8601),
   (8617, 8618), (8986, 8987), (9000, 9000), (9096, 9096), (9167, 9167), (9193, 9203),
   (9208, 9210), (9410, 9410), (9642, 9643), (9654, 9654), (9664, 9664), (9723, 9726),
   (9728, 9733), (9735, 9746), (9748, 9861), (9872, 9989), (9992, 10002), (10004, 10004),
   (10006, 10006), (10013, 10013), (10017, 10017), (10024, 10024), (10035, 10036),
   (10052, 10052), (10055, 10055), (10060, 10060), (10062, 10062), (10067, 10069),
   (10071, 10071), (10083, 10087), (10133, 10135), (10145, 10145), (10160, 10160),
   (10175, 10175), (10548, 10549), (11013, 11015), (11035, 11036), (11088, 11088),
   (11093, 11093), (12336, 12336), (12349, 12349), (12951, 12951), (12953, 12953),
   (126976, 127231), (127245, 127247), (127279, 127279), (127340, 127345), (127358, 127359),
   (127374, 127374), (127377, 127386), (127405, 127461), (127489, 127503), (127514, 127514),
   (127535, 127535), (127538, 127546), (127548, 127551), (127561, 127994), (128000, 128317),
   (128326, 128591), (128640, 128767), (128884, 128895), (128981, 129023), (129036, 129039),
   (129096, 129103), (129114, 129119), (129160, 129167), (129198, 129279), (129292, 129338),
   (129340, 129349), (129351, 129791), (130048, 131069)]

/-- Characters of mathematics. -/
def mathRanges : List (Nat × Nat) :=
  [(43, 43), (60, 62), (94, 94), (124, 124), (126, 126), (172, 172), (177, 177), (215, 215),
   (247, 247), (976, 978), (981, 981), (1008, 1009), (1012, 1014), (1542, 1544), (8214, 8214),
   (8242, 8244), (8256, 8256), (8260, 8260), (8274, 8274), (8289, 8292), (8314, 8318),
   (8330, 8334), (8400, 8412), (8417, 8417), (8421, 8422), (8427, 8431), (8450, 8450),
   (8455, 8455), (8458, 8467), (8469, 8469), (8472, 8477), (8484, 8484), (8488, 8489),
   (8492, 8493), (8495, 8497), (8499, 8504), (8508, 8521), (8523, 8523), (8592, 8615),
   (8617, 8622), (8624, 8625), (8630, 8631), (8636, 8667), (8669, 8669), (8676, 8677),
   (8692, 8959), (8968, 8971), (8992, 8993), (9084, 9084), (9115, 9141), (9143, 9143),
   (9168, 9168), (9180, 9186), (9632, 9633), (9646, 9655), (9660, 9665), (9670, 9671),
   (9674, 9675), (9679, 9683), (9698, 9698), (9700, 9700), (9703, 9708), (9720, 9727),
   (9733, 9734), (9792, 9792), (9794, 9794), (9824, 9827), (9837, 9839), (10176, 10239),
   (10496, 11007), (11056, 11076), (11079, 11084), (64297, 64297), (65121, 65126),
   (65128, 65128), (65291, 65291), (65308, 65310), (65340, 65340), (65342, 65342),
   (65372, 65372), (65374, 65374), (65506, 65506), (65513, 65516), (119808, 119892),
   (119894, 119964), (119966, 119967), (119970, 119970), (119973, 119974), (119977, 119980),
   (119982, 119993), (119995, 119995), (119997, 120003), (120005, 120069), (120071, 120074),
   (120077, 120084), (120086, 120092), (120094, 120121), (120123, 120126), (120128, 120132),
   (120134, 120134), (120138, 120144), (120146, 120485), (120488, 120779), (120782, 120831),
   (126464, 126467), (126469, 126495), (126497, 126498), (126500, 126500), (126503, 126503),
   (126505, 126514), (126516, 126519), (126521, 126521), (126523, 126523), (126530, 126530),
   (126535, 126535), (126537, 126537), (126539, 126539), (126541, 126543), (126545, 126546),
   (126548, 126548), (126551, 126551), (126553, 126553), (126555, 126555), (126557, 126557),
   (126559, 126559), (126561, 126562), (126564, 126564), (126567, 126570), (126572, 126578),
   (126580, 126583), (126585, 126588), (126590, 126590), (126592, 126601), (126603, 126619),
   (126625, 126627), (126629, 126633), (126635, 126651), (126704, 126705)]

/-- Dashes of all kinds. -/
def dashRanges : List (Nat × Nat) :=
  [(45, 45), (1418, 1418), (1470, 1470), (5120, 5120), (6150, 6150), (8208, 8213), (8275, 8275),
   (8315, 8315), (8331, 8331), (8722, 8722), (11799, 11799), (11802, 11802), (11834, 11835),
   (11840, 11840), (11869, 11869), (12316, 12316), (12336, 12336), (12448, 12448),
   (65073, 65074), (65112, 65112), (65123, 65123), (65293, 65293), (69293, 69293)]

/-- Ideographs. -/
def ideographRanges : List (Nat × Nat) :=
  [(12294, 12295), (12321, 12329), (12344, 12346), (13312, 19903), (19968, 40959),
   (63744, 64109), (64112, 64217), (94180, 94180), (94208, 100343), (100352, 101589),
   (101632, 101640), (110960, 111355), (131072, 173791), (173824, 177977), (177984, 178205),
   (178208, 183969), (183984, 191456), (194560, 195101), (196608, 201546), (201552, 205743)]

/-- Hexadecimal digits, wide forms included. -/
def hexDigitRanges : List (Nat × Nat) :=
  [(48, 57), (65, 70), (97, 102), (65296, 65305), (65313, 65318), (65345, 65350)]

/-- A character that may start a name: a letter, a number written as letters, or one of a few symbols
kept for names of old. -/
def startsIdentifier (c : Char) : Bool :=
  (isLetter c && c.toNat != 11823) || inRanges letterNumberRanges c ||
    inRanges [(6277, 6278), (8472, 8472), (8494, 8494), (12443, 12444)] c

/-- A character that may go on with a name: what may start one, a mark, a digit, a connector, or one of
a few signs between letters. -/
def continuesIdentifier (c : Char) : Bool :=
  startsIdentifier c || (isMark c && !inRanges enclosingMarkRanges c) || isDecimalDigit c ||
    inRanges connectorRanges c ||
    inRanges [(183, 183), (903, 903), (4969, 4977), (6618, 6618), (8204, 8205), (12539, 12539),
      (65381, 65381)] c

end ActionTree.Text
