import StackLattice.Text.Property
import StackLattice.Text.Script

/-!
Sets of characters that patterns refer to by name. Names are compared without case, blanks, `_`, `-` and
a leading `is`.
-/

namespace StackLattice.Text

/-- Lower-case characters that are no letters of that category. -/
private def otherLowercaseRanges : Array CodeRange :=
  #[⟨170, 170, 1⟩, ⟨186, 186, 1⟩, ⟨688, 696, 1⟩, ⟨704, 705, 1⟩, ⟨736, 740, 1⟩, ⟨837, 837, 1⟩,
    ⟨890, 890, 1⟩, ⟨4348, 4348, 1⟩, ⟨7468, 7530, 1⟩, ⟨7544, 7544, 1⟩, ⟨7579, 7615, 1⟩,
    ⟨8305, 8305, 1⟩, ⟨8319, 8319, 1⟩, ⟨8336, 8348, 1⟩, ⟨8560, 8575, 1⟩, ⟨9424, 9449, 1⟩,
    ⟨11388, 11389, 1⟩, ⟨42652, 42653, 1⟩, ⟨42864, 42864, 1⟩, ⟨42993, 42996, 1⟩, ⟨43000, 43001, 1⟩,
    ⟨43868, 43871, 1⟩, ⟨43881, 43881, 1⟩, ⟨67456, 67456, 1⟩, ⟨67459, 67461, 1⟩, ⟨67463, 67504, 1⟩,
    ⟨67506, 67514, 1⟩, ⟨122928, 122989, 1⟩]

/-- Upper-case characters that are no letters of that category. -/
private def otherUppercaseRanges : Array CodeRange :=
  #[⟨8544, 8559, 1⟩, ⟨9398, 9423, 1⟩, ⟨127280, 127305, 1⟩, ⟨127312, 127337, 1⟩, ⟨127344, 127369, 1⟩]

private def dashRanges : Array CodeRange :=
  #[⟨45, 45, 1⟩, ⟨1418, 1418, 1⟩, ⟨1470, 1470, 1⟩, ⟨5120, 5120, 1⟩, ⟨6150, 6150, 1⟩,
    ⟨8208, 8213, 1⟩, ⟨8275, 8275, 1⟩, ⟨8315, 8315, 1⟩, ⟨8331, 8331, 1⟩, ⟨8722, 8722, 1⟩,
    ⟨11799, 11799, 1⟩, ⟨11802, 11802, 1⟩, ⟨11834, 11835, 1⟩, ⟨11840, 11840, 1⟩, ⟨11869, 11869, 1⟩,
    ⟨12316, 12316, 1⟩, ⟨12336, 12336, 1⟩, ⟨12448, 12448, 1⟩, ⟨65073, 65074, 1⟩, ⟨65112, 65112, 1⟩,
    ⟨65123, 65123, 1⟩, ⟨65293, 65293, 1⟩, ⟨68974, 68974, 1⟩, ⟨69293, 69293, 1⟩]

private def emojiRanges : Array CodeRange :=
  #[⟨35, 35, 1⟩, ⟨42, 42, 1⟩, ⟨48, 57, 1⟩, ⟨169, 169, 1⟩, ⟨174, 174, 1⟩, ⟨8252, 8252, 1⟩,
    ⟨8265, 8265, 1⟩, ⟨8482, 8482, 1⟩, ⟨8505, 8505, 1⟩, ⟨8596, 8601, 1⟩, ⟨8617, 8618, 1⟩,
    ⟨8986, 8987, 1⟩, ⟨9000, 9000, 1⟩, ⟨9167, 9167, 1⟩, ⟨9193, 9203, 1⟩, ⟨9208, 9210, 1⟩,
    ⟨9410, 9410, 1⟩, ⟨9642, 9643, 1⟩, ⟨9654, 9654, 1⟩, ⟨9664, 9664, 1⟩, ⟨9723, 9726, 1⟩,
    ⟨9728, 9732, 1⟩, ⟨9742, 9742, 1⟩, ⟨9745, 9745, 1⟩, ⟨9748, 9749, 1⟩, ⟨9752, 9752, 1⟩,
    ⟨9757, 9757, 1⟩, ⟨9760, 9760, 1⟩, ⟨9762, 9763, 1⟩, ⟨9766, 9766, 1⟩, ⟨9770, 9770, 1⟩,
    ⟨9774, 9775, 1⟩, ⟨9784, 9786, 1⟩, ⟨9792, 9792, 1⟩, ⟨9794, 9794, 1⟩, ⟨9800, 9811, 1⟩,
    ⟨9823, 9824, 1⟩, ⟨9827, 9827, 1⟩, ⟨9829, 9830, 1⟩, ⟨9832, 9832, 1⟩, ⟨9851, 9851, 1⟩,
    ⟨9854, 9855, 1⟩, ⟨9874, 9879, 1⟩, ⟨9881, 9881, 1⟩, ⟨9883, 9884, 1⟩, ⟨9888, 9889, 1⟩,
    ⟨9895, 9895, 1⟩, ⟨9898, 9899, 1⟩, ⟨9904, 9905, 1⟩, ⟨9917, 9918, 1⟩, ⟨9924, 9925, 1⟩,
    ⟨9928, 9928, 1⟩, ⟨9934, 9935, 1⟩, ⟨9937, 9937, 1⟩, ⟨9939, 9940, 1⟩, ⟨9961, 9962, 1⟩,
    ⟨9968, 9973, 1⟩, ⟨9975, 9978, 1⟩, ⟨9981, 9981, 1⟩, ⟨9986, 9986, 1⟩, ⟨9989, 9989, 1⟩,
    ⟨9992, 9997, 1⟩, ⟨9999, 9999, 1⟩, ⟨10002, 10006, 2⟩, ⟨10013, 10013, 1⟩, ⟨10017, 10017, 1⟩,
    ⟨10024, 10024, 1⟩, ⟨10035, 10036, 1⟩, ⟨10052, 10052, 1⟩, ⟨10055, 10055, 1⟩, ⟨10060, 10060, 1⟩,
    ⟨10062, 10062, 1⟩, ⟨10067, 10069, 1⟩, ⟨10071, 10071, 1⟩, ⟨10083, 10084, 1⟩, ⟨10133, 10135, 1⟩,
    ⟨10145, 10145, 1⟩, ⟨10160, 10160, 1⟩, ⟨10175, 10175, 1⟩, ⟨10548, 10549, 1⟩, ⟨11013, 11015, 1⟩,
    ⟨11035, 11036, 1⟩, ⟨11088, 11088, 1⟩, ⟨11093, 11093, 1⟩, ⟨12336, 12336, 1⟩, ⟨12349, 12349, 1⟩,
    ⟨12951, 12951, 1⟩, ⟨12953, 12953, 1⟩, ⟨126980, 126980, 1⟩, ⟨127183, 127183, 1⟩,
    ⟨127344, 127345, 1⟩, ⟨127358, 127359, 1⟩, ⟨127374, 127374, 1⟩, ⟨127377, 127386, 1⟩,
    ⟨127462, 127487, 1⟩, ⟨127489, 127490, 1⟩, ⟨127514, 127514, 1⟩, ⟨127535, 127535, 1⟩,
    ⟨127538, 127546, 1⟩, ⟨127568, 127569, 1⟩, ⟨127744, 127777, 1⟩, ⟨127780, 127891, 1⟩,
    ⟨127894, 127895, 1⟩, ⟨127897, 127899, 1⟩, ⟨127902, 127984, 1⟩, ⟨127987, 127989, 1⟩,
    ⟨127991, 128253, 1⟩, ⟨128255, 128317, 1⟩, ⟨128329, 128334, 1⟩, ⟨128336, 128359, 1⟩,
    ⟨128367, 128368, 1⟩, ⟨128371, 128378, 1⟩, ⟨128391, 128391, 1⟩, ⟨128394, 128397, 1⟩,
    ⟨128400, 128400, 1⟩, ⟨128405, 128406, 1⟩, ⟨128420, 128421, 1⟩, ⟨128424, 128424, 1⟩,
    ⟨128433, 128434, 1⟩, ⟨128444, 128444, 1⟩, ⟨128450, 128452, 1⟩, ⟨128465, 128467, 1⟩,
    ⟨128476, 128478, 1⟩, ⟨128481, 128481, 1⟩, ⟨128483, 128483, 1⟩, ⟨128488, 128488, 1⟩,
    ⟨128495, 128495, 1⟩, ⟨128499, 128499, 1⟩, ⟨128506, 128591, 1⟩, ⟨128640, 128709, 1⟩,
    ⟨128715, 128722, 1⟩, ⟨128725, 128728, 1⟩, ⟨128732, 128741, 1⟩, ⟨128745, 128745, 1⟩,
    ⟨128747, 128748, 1⟩, ⟨128752, 128752, 1⟩, ⟨128755, 128764, 1⟩, ⟨128992, 129003, 1⟩,
    ⟨129008, 129008, 1⟩, ⟨129292, 129338, 1⟩, ⟨129340, 129349, 1⟩, ⟨129351, 129535, 1⟩,
    ⟨129648, 129660, 1⟩, ⟨129664, 129674, 1⟩, ⟨129678, 129734, 1⟩, ⟨129736, 129736, 1⟩,
    ⟨129741, 129756, 1⟩, ⟨129759, 129770, 1⟩, ⟨129775, 129784, 1⟩]

private def emojiPresentationRanges : Array CodeRange :=
  #[⟨8986, 8987, 1⟩, ⟨9193, 9196, 1⟩, ⟨9200, 9200, 1⟩, ⟨9203, 9203, 1⟩, ⟨9725, 9726, 1⟩,
    ⟨9748, 9749, 1⟩, ⟨9800, 9811, 1⟩, ⟨9855, 9855, 1⟩, ⟨9875, 9875, 1⟩, ⟨9889, 9889, 1⟩,
    ⟨9898, 9899, 1⟩, ⟨9917, 9918, 1⟩, ⟨9924, 9925, 1⟩, ⟨9934, 9934, 1⟩, ⟨9940, 9940, 1⟩,
    ⟨9962, 9962, 1⟩, ⟨9970, 9971, 1⟩, ⟨9973, 9973, 1⟩, ⟨9978, 9978, 1⟩, ⟨9981, 9981, 1⟩,
    ⟨9989, 9989, 1⟩, ⟨9994, 9995, 1⟩, ⟨10024, 10024, 1⟩, ⟨10060, 10060, 1⟩, ⟨10062, 10062, 1⟩,
    ⟨10067, 10069, 1⟩, ⟨10071, 10071, 1⟩, ⟨10133, 10135, 1⟩, ⟨10160, 10160, 1⟩, ⟨10175, 10175, 1⟩,
    ⟨11035, 11036, 1⟩, ⟨11088, 11088, 1⟩, ⟨11093, 11093, 1⟩, ⟨126980, 126980, 1⟩,
    ⟨127183, 127183, 1⟩, ⟨127374, 127374, 1⟩, ⟨127377, 127386, 1⟩, ⟨127462, 127487, 1⟩,
    ⟨127489, 127489, 1⟩, ⟨127514, 127514, 1⟩, ⟨127535, 127535, 1⟩, ⟨127538, 127542, 1⟩,
    ⟨127544, 127546, 1⟩, ⟨127568, 127569, 1⟩, ⟨127744, 127776, 1⟩, ⟨127789, 127797, 1⟩,
    ⟨127799, 127868, 1⟩, ⟨127870, 127891, 1⟩, ⟨127904, 127946, 1⟩, ⟨127951, 127955, 1⟩,
    ⟨127968, 127984, 1⟩, ⟨127988, 127988, 1⟩, ⟨127992, 128062, 1⟩, ⟨128064, 128064, 1⟩,
    ⟨128066, 128252, 1⟩, ⟨128255, 128317, 1⟩, ⟨128331, 128334, 1⟩, ⟨128336, 128359, 1⟩,
    ⟨128378, 128378, 1⟩, ⟨128405, 128406, 1⟩, ⟨128420, 128420, 1⟩, ⟨128507, 128591, 1⟩,
    ⟨128640, 128709, 1⟩, ⟨128716, 128716, 1⟩, ⟨128720, 128722, 1⟩, ⟨128725, 128728, 1⟩,
    ⟨128732, 128735, 1⟩, ⟨128747, 128748, 1⟩, ⟨128756, 128764, 1⟩, ⟨128992, 129003, 1⟩,
    ⟨129008, 129008, 1⟩, ⟨129292, 129338, 1⟩, ⟨129340, 129349, 1⟩, ⟨129351, 129535, 1⟩,
    ⟨129648, 129660, 1⟩, ⟨129664, 129674, 1⟩, ⟨129678, 129734, 1⟩, ⟨129736, 129736, 1⟩,
    ⟨129741, 129756, 1⟩, ⟨129759, 129770, 1⟩, ⟨129775, 129784, 1⟩]

private def ideographicRanges : Array CodeRange :=
  #[⟨12294, 12295, 1⟩, ⟨12321, 12329, 1⟩, ⟨12344, 12346, 1⟩, ⟨13312, 19903, 1⟩, ⟨19968, 40959, 1⟩,
    ⟨63744, 64109, 1⟩, ⟨64112, 64217, 1⟩, ⟨94180, 94180, 1⟩, ⟨94194, 94198, 1⟩, ⟨94208, 101589, 1⟩,
    ⟨101631, 101662, 1⟩, ⟨101760, 101874, 1⟩, ⟨110960, 111355, 1⟩, ⟨131072, 173791, 1⟩,
    ⟨173824, 178205, 1⟩, ⟨178208, 183981, 1⟩, ⟨183984, 191456, 1⟩, ⟨191472, 192093, 1⟩,
    ⟨194560, 195101, 1⟩, ⟨196608, 201546, 1⟩, ⟨201552, 210041, 1⟩]

private def hexDigitRanges : Array CodeRange :=
  #[⟨48, 57, 1⟩, ⟨65, 70, 1⟩, ⟨97, 102, 1⟩, ⟨65296, 65305, 1⟩, ⟨65313, 65318, 1⟩, ⟨65345, 65350, 1⟩]

private def quotationMarkRanges : Array CodeRange :=
  #[⟨34, 34, 1⟩, ⟨39, 39, 1⟩, ⟨171, 171, 1⟩, ⟨187, 187, 1⟩, ⟨8216, 8223, 1⟩, ⟨8249, 8250, 1⟩,
    ⟨11842, 11842, 1⟩, ⟨12300, 12303, 1⟩, ⟨12317, 12319, 1⟩, ⟨65089, 65092, 1⟩, ⟨65282, 65282, 1⟩,
    ⟨65287, 65287, 1⟩, ⟨65378, 65379, 1⟩]

/-- Characters of mathematics outside the category of its symbols. -/
private def otherMathRanges : Array CodeRange :=
  #[⟨94, 94, 1⟩, ⟨976, 978, 1⟩, ⟨981, 981, 1⟩, ⟨1008, 1009, 1⟩, ⟨1012, 1013, 1⟩, ⟨8214, 8214, 1⟩,
    ⟨8242, 8244, 1⟩, ⟨8256, 8256, 1⟩, ⟨8289, 8292, 1⟩, ⟨8317, 8318, 1⟩, ⟨8333, 8334, 1⟩,
    ⟨8400, 8412, 1⟩, ⟨8417, 8417, 1⟩, ⟨8421, 8422, 1⟩, ⟨8427, 8431, 1⟩, ⟨8450, 8450, 1⟩,
    ⟨8455, 8455, 1⟩, ⟨8458, 8467, 1⟩, ⟨8469, 8469, 1⟩, ⟨8473, 8477, 1⟩, ⟨8484, 8484, 1⟩,
    ⟨8488, 8489, 1⟩, ⟨8492, 8493, 1⟩, ⟨8495, 8497, 1⟩, ⟨8499, 8504, 1⟩, ⟨8508, 8511, 1⟩,
    ⟨8517, 8521, 1⟩, ⟨8597, 8601, 1⟩, ⟨8604, 8607, 1⟩, ⟨8609, 8610, 1⟩, ⟨8612, 8613, 1⟩,
    ⟨8615, 8615, 1⟩, ⟨8617, 8621, 1⟩, ⟨8624, 8625, 1⟩, ⟨8630, 8631, 1⟩, ⟨8636, 8653, 1⟩,
    ⟨8656, 8657, 1⟩, ⟨8659, 8659, 1⟩, ⟨8661, 8667, 1⟩, ⟨8669, 8669, 1⟩, ⟨8676, 8677, 1⟩,
    ⟨8968, 8971, 1⟩, ⟨9140, 9141, 1⟩, ⟨9143, 9143, 1⟩, ⟨9168, 9168, 1⟩, ⟨9186, 9186, 1⟩,
    ⟨9632, 9633, 1⟩, ⟨9646, 9654, 1⟩, ⟨9660, 9664, 1⟩, ⟨9670, 9671, 1⟩, ⟨9674, 9675, 1⟩,
    ⟨9679, 9683, 1⟩, ⟨9698, 9698, 1⟩, ⟨9700, 9700, 1⟩, ⟨9703, 9708, 1⟩, ⟨9733, 9734, 1⟩,
    ⟨9792, 9792, 1⟩, ⟨9794, 9794, 1⟩, ⟨9824, 9827, 1⟩, ⟨9837, 9838, 1⟩, ⟨10181, 10182, 1⟩,
    ⟨10214, 10223, 1⟩, ⟨10627, 10648, 1⟩, ⟨10712, 10715, 1⟩, ⟨10748, 10749, 1⟩, ⟨65121, 65121, 1⟩,
    ⟨65123, 65123, 1⟩, ⟨65128, 65128, 1⟩, ⟨65340, 65340, 1⟩, ⟨65342, 65342, 1⟩, ⟨119808, 119892, 1⟩,
    ⟨119894, 119964, 1⟩, ⟨119966, 119967, 1⟩, ⟨119970, 119970, 1⟩, ⟨119973, 119974, 1⟩,
    ⟨119977, 119980, 1⟩, ⟨119982, 119993, 1⟩, ⟨119995, 119995, 1⟩, ⟨119997, 120003, 1⟩,
    ⟨120005, 120069, 1⟩, ⟨120071, 120074, 1⟩, ⟨120077, 120084, 1⟩, ⟨120086, 120092, 1⟩,
    ⟨120094, 120121, 1⟩, ⟨120123, 120126, 1⟩, ⟨120128, 120132, 1⟩, ⟨120134, 120134, 1⟩,
    ⟨120138, 120144, 1⟩, ⟨120146, 120485, 1⟩, ⟨120488, 120512, 1⟩, ⟨120514, 120538, 1⟩,
    ⟨120540, 120570, 1⟩, ⟨120572, 120596, 1⟩, ⟨120598, 120628, 1⟩, ⟨120630, 120654, 1⟩,
    ⟨120656, 120686, 1⟩, ⟨120688, 120712, 1⟩, ⟨120714, 120744, 1⟩, ⟨120746, 120770, 1⟩,
    ⟨120772, 120779, 1⟩, ⟨120782, 120831, 1⟩, ⟨126464, 126467, 1⟩, ⟨126469, 126495, 1⟩,
    ⟨126497, 126498, 1⟩, ⟨126500, 126500, 1⟩, ⟨126503, 126503, 1⟩, ⟨126505, 126514, 1⟩,
    ⟨126516, 126519, 1⟩, ⟨126521, 126521, 1⟩, ⟨126523, 126523, 1⟩, ⟨126530, 126530, 1⟩,
    ⟨126535, 126541, 2⟩, ⟨126542, 126543, 1⟩, ⟨126545, 126546, 1⟩, ⟨126548, 126548, 1⟩,
    ⟨126551, 126561, 2⟩, ⟨126562, 126562, 1⟩, ⟨126564, 126564, 1⟩, ⟨126567, 126570, 1⟩,
    ⟨126572, 126578, 1⟩, ⟨126580, 126583, 1⟩, ⟨126585, 126588, 1⟩, ⟨126590, 126590, 1⟩,
    ⟨126592, 126601, 1⟩, ⟨126603, 126619, 1⟩, ⟨126625, 126627, 1⟩, ⟨126629, 126633, 1⟩,
    ⟨126635, 126651, 1⟩]

/-- The characters of a table. -/
def inTable (table : Array CodeRange) (c : Char) : Bool := CodeRange.memTable table c.toNat

def isLowercase (c : Char) : Bool := Category.has .lowercaseLetter c || inTable otherLowercaseRanges c

def isUppercase (c : Char) : Bool := Category.has .uppercaseLetter c || inTable otherUppercaseRanges c

def isHexDigit (c : Char) : Bool :=
  isAsciiDigit c || ('a' ≤ c && c ≤ 'f') || ('A' ≤ c && c ≤ 'F')

/-- Whether a character is in one of several categories. -/
def inCategories (ks : List Category) (c : Char) : Bool := ks.any (·.has c)

def letters : List Category :=
  [.uppercaseLetter, .lowercaseLetter, .titlecaseLetter, .modifierLetter, .otherLetter]

/-- Characters that names start with. -/
def startsName (c : Char) : Bool :=
  (inCategories letters c || Category.has .letterNumber c ||
    inTable #[⟨6277, 6278, 1⟩, ⟨8472, 8472, 1⟩, ⟨8494, 8494, 1⟩, ⟨12443, 12444, 1⟩] c) &&
    c.toNat != 11823

/-- Characters that names go on with. -/
def continuesName (c : Char) : Bool :=
  startsName c ||
    inCategories [.nonspacingMark, .spacingMark, .decimalNumber, .connectorPunctuation] c ||
    inTable #[⟨183, 183, 1⟩, ⟨903, 903, 1⟩, ⟨4969, 4977, 1⟩, ⟨6618, 6618, 1⟩, ⟨8204, 8205, 1⟩,
      ⟨12539, 12539, 1⟩, ⟨65381, 65381, 1⟩] c

/-- Names that start so do not all stay names when they are normalised. -/
private def unstableStart : Array CodeRange :=
  #[⟨890, 890, 1⟩, ⟨3635, 3635, 1⟩, ⟨3763, 3763, 1⟩, ⟨12443, 12444, 1⟩, ⟨64606, 64611, 1⟩,
    ⟨65018, 65019, 1⟩, ⟨65136, 65150, 2⟩, ⟨65438, 65439, 1⟩]

private def unstableContinue : Array CodeRange :=
  #[⟨890, 890, 1⟩, ⟨12443, 12444, 1⟩, ⟨64606, 64611, 1⟩, ⟨65018, 65019, 1⟩, ⟨65136, 65150, 2⟩]

/-- A name as names are compared. `isc` is kept, which would otherwise be the group of all others. -/
def looseName (name : List Char) : List Char :=
  let plain (cs : List Char) : List Char :=
    (cs.filter fun c => c.toNat < 0x80 && c ≠ ' ' && c ≠ '_' && c ≠ '-').map Char.toLower
  match name with
  | i :: s :: rest =>
    if (i = 'i' ∨ i = 'I') ∧ (s = 's' ∨ s = 'S') then
      if plain rest = ['c'] then ['i', 's', 'c'] else plain rest
    else plain name
  | _ => plain name

/-- Properties that are either had or not. -/
def property? : String → Option (Char → Bool)
  | "alphabetic" | "alpha" => some isAlphabetic
  | "lowercase" | "lower" => some isLowercase
  | "uppercase" | "upper" => some isUppercase
  | "cased" => some fun c => isLowercase c || isUppercase c || Category.has .titlecaseLetter c
  | "whitespace" | "wspace" | "space" => some isBlank
  | "asciihexdigit" | "ahex" => some isHexDigit
  | "hexdigit" | "hex" => some (inTable hexDigitRanges)
  | "dash" => some (inTable dashRanges)
  | "emoji" => some (inTable emojiRanges)
  | "emojipresentation" | "epres" => some (inTable emojiPresentationRanges)
  | "ideographic" | "ideo" => some (inTable ideographicRanges)
  | "quotationmark" | "qmark" => some (inTable quotationMarkRanges)
  | "joincontrol" | "joinc" => some fun c => c.toNat == 8204 || c.toNat == 8205
  | "regionalindicator" | "ri" => some fun c => 127462 ≤ c.toNat && c.toNat ≤ 127487
  | "math" => some fun c => Category.has .mathSymbol c || inTable otherMathRanges c
  | "graphemeextend" | "grext" => some extendsGrapheme
  | "idstart" | "ids" => some startsName
  | "idcontinue" | "idc" => some continuesName
  | "xidstart" | "xids" => some fun c => startsName c && !inTable unstableStart c
  | "xidcontinue" | "xidc" => some fun c => continuesName c && !inTable unstableContinue c
  | _ => none

/-- Categories and groups of them. -/
def category? : String → Option (Char → Bool)
  | "any" => some fun _ => true
  | "assigned" => some fun c => (categoryOf c).isSome
  | "ascii" => some fun c => c.toNat < 0x80
  | "l" | "letter" => some (inCategories letters)
  | "lc" | "casedletter" =>
    some (inCategories [.uppercaseLetter, .lowercaseLetter, .titlecaseLetter])
  | "lu" | "uppercaseletter" => some (Category.has .uppercaseLetter)
  | "ll" | "lowercaseletter" => some (Category.has .lowercaseLetter)
  | "lt" | "titlecaseletter" => some (Category.has .titlecaseLetter)
  | "lm" | "modifierletter" => some (Category.has .modifierLetter)
  | "lo" | "otherletter" => some (Category.has .otherLetter)
  | "m" | "mark" | "combiningmark" =>
    some (inCategories [.nonspacingMark, .spacingMark, .enclosingMark])
  | "mn" | "nonspacingmark" => some (Category.has .nonspacingMark)
  | "mc" | "spacingmark" => some (Category.has .spacingMark)
  | "me" | "enclosingmark" => some (Category.has .enclosingMark)
  | "n" | "number" => some (inCategories [.decimalNumber, .letterNumber, .otherNumber])
  | "nd" | "decimalnumber" | "digit" => some (Category.has .decimalNumber)
  | "nl" | "letternumber" => some (Category.has .letterNumber)
  | "no" | "othernumber" => some (Category.has .otherNumber)
  | "p" | "punctuation" | "punct" =>
    some (inCategories [.connectorPunctuation, .dashPunctuation, .openPunctuation, .closePunctuation,
      .initialPunctuation, .finalPunctuation, .otherPunctuation])
  | "pc" | "connectorpunctuation" => some (Category.has .connectorPunctuation)
  | "pd" | "dashpunctuation" => some (Category.has .dashPunctuation)
  | "ps" | "openpunctuation" => some (Category.has .openPunctuation)
  | "pe" | "closepunctuation" => some (Category.has .closePunctuation)
  | "pi" | "initialpunctuation" => some (Category.has .initialPunctuation)
  | "pf" | "finalpunctuation" => some (Category.has .finalPunctuation)
  | "po" | "otherpunctuation" => some (Category.has .otherPunctuation)
  | "s" | "symbol" =>
    some (inCategories [.mathSymbol, .currencySymbol, .modifierSymbol, .otherSymbol])
  | "sm" | "mathsymbol" => some (Category.has .mathSymbol)
  | "sc" | "currencysymbol" => some (Category.has .currencySymbol)
  | "sk" | "modifiersymbol" => some (Category.has .modifierSymbol)
  | "so" | "othersymbol" => some (Category.has .otherSymbol)
  | "z" | "separator" =>
    some (inCategories [.spaceSeparator, .lineSeparator, .paragraphSeparator])
  | "zs" | "spaceseparator" => some (Category.has .spaceSeparator)
  | "zl" | "lineseparator" => some (Category.has .lineSeparator)
  | "zp" | "paragraphseparator" => some (Category.has .paragraphSeparator)
  | "c" | "other" =>
    some fun c => inCategories [.control, .format, .privateUse] c || (categoryOf c).isNone
  | "cc" | "control" | "cntrl" => some (Category.has .control)
  | "cf" | "format" => some (Category.has .format)
  | "cn" | "unassigned" => some fun c => (categoryOf c).isNone
  | "co" | "privateuse" => some (Category.has .privateUse)
  | _ => none

def script? (name : String) : Option (Char → Bool) :=
  let matching := Script.all.find? fun s =>
    String.ofList (looseName s.name.toList) == name || String.ofList (looseName s.code.toList) == name
  matching.map Script.has

/-- The set that one name stands for: a property, a category or a script. Three names that are both are
    those of categories. -/
def namedSet? (name : List Char) : Option (Char → Bool) :=
  let name := String.ofList (looseName name)
  if name = "cf" ∨ name = "sc" ∨ name = "lc" then category? name
  else (property? name).or ((category? name).or (script? name))

/-- The set that a value of a property stands for. -/
def valueSet? (property value : List Char) : Option (Char → Bool) :=
  let value := String.ofList (looseName value)
  match String.ofList (looseName property) with
  | "gc" | "generalcategory" => category? value
  | "sc" | "script" => script? value
  | _ => none

end StackLattice.Text
