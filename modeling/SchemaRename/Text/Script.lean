import SchemaRename.Text.Runs

/-!
# Scripts

The script that every character belongs to.

A matching pattern can ask for the letters of one script by its name. Each
script has a mark in the table; the mark of a character that belongs to none
is a dot. A script goes by a long name and by one of four letters, and two of
them have an older one as well.

## Main definitions

* `scriptMark`: The mark of the script of a character.
* `scriptNames`: The marks of the scripts, by name.
-/

namespace SchemaRename.Text

/-- The scripts of all code points. -/
def scriptRuns : List Run :=
  decodeRuns (
    "C65L26C6L26C47LC15LC5L23CL31CL449C39L5C5y2C20I112G4CG3.2G4CG.4GCGCG3.G.G20.G63z14G16Y133I2" ++
    "Y169.R38.2R50.2R3.H55.8H27.4H6.11A5CA6CA14CA3CA32CA10I11A26IA108CA34q14.q60.2q3A48Ċ50.14Ø59" ++
    ".2Ø3Ù46.2Ù15.Ú28.2Ú.q11.5A31.A2.6A74CA29D81I4D15C2D26B4.B8.2B2.2B22.B7.B.3B4.2B9.2B2.2B4.8B" ++
    ".4B2.B5.2B25.2O3.O6.4O2.2O22.O7.O2.O2.O2.2O.O5.4O2.2O3.3O.7O4.O.7O17.10Q3.Q9.Q3.Q22.Q7.Q2.Q5" ++
    ".2Q10.Q3.Q3.2Q.15Q4.2Q12.7Q7.S3.S8.2S2.2S22.S7.S2.S5.2S9.2S2.2S3.7S3.4S2.S5.2S18.10M2.M6.3M3" ++
    ".M4.3M2.M.M2.3M2.3M3.3M12.4M5.3M3.M4.2M.6M.14M21.5V13.V3.V23.V16.2V9.V3.V4.7V2.V3.2V.2V4.2" ++
    "V10.7V9W13.W3.W23.W10.W5.2W9.W3.W4.7W2.6W2.W4.2W10.W3.12d13.d3.d51.d3.d6.4d16.2d26.X3.X18.3" ++
    "X24.X9.X.2X7.3X.4X6.X.X8.6X10.2X3.12T58.4CT28.37Z2.Z.Z5.Z24.Z.Z23.2Z5.Z.Z7.Z10.2Z4.32e72.e36" ++
    ".4e39.e36.e15.e7C4e2.37À160E38.E.5E.2E43CE4U256F73.F4.2F7.F.F4.2F41.F4.2F33.F4.2F7.F.F4.2F15" ++
    ".F57.F4.2F67.2F32.3F26.6Á86.2Á6.2Â640ċ29.3Û75C3Û11.7Ü22.9ÜČ21C2.9č20.12Ã13.Ã3.Ã2.12r94.2r10" ++
    ".6r10.6h2C2hCh20.6h89.7h43.5Â70.10l31.l12.4l12.4l.3l12Ý30.2Ý5.11s44.4s26.6s11.3s2r32Þ28.2Þ2" ++
    "m63.m29.2m11.6m10.6m14.2I31.49ß77.3ß47.à64á52.8á4Ä56.3Ä15.3Ä3Ď48Y9.7E43.2E3à8.8I3CI13CI7C4I" ++
    "C6IC3I2C.5L38G5YL49G5L4G5L13YL70GI64L256G22.2G6.2G38.2G6.2G8.G.G.G.G31.2G53.G15.G14.2G6.G19" ++
    ".2G3.G9.C12I2C87.C11L.2C11LC15.L13.3C33.15I33.15C38GC3L2C6LC27LC17L41C3.4C663.25C11.21C928" ++
    "ď256C628.2C32.C105i96L32z116.5z7E38.E.5E.2Å56.7Å2.14ÅF23.9F7.F7.F7.F7.F7.F7.F7.F7.Y32C94.34" ++
    "N26.N89.12N214.26C12.4C5NCNC25N9I4U2C8N4C4.J86.2I2C2J3CK90C2K3.5y43.U94.C16y32C36.12K16U31." ++
    "C64U31C81K47CK88C168N6592C64N20992â1165.3â55.9ã48Đ300.20Y96ä88.8C34L102C3L64.5L2.L.L5.24L14" ++
    "đ45.3C10.6Ē56.8å70.8å12.6D32æ46Cæç36.11çU29.3Æ78.CÆ10.4Æ2À31.t55.9t14.2t10.2t4À32è67.24è5Ç23" ++
    ".10F6.2F6.2F6.9F7.F7.L43CL9GL4C2.4Á80Ç46.2Ç10.6U11172.12U23.4U49.8452N366.2N106.38L7.12R5.5" ++
    "H26.H5.H.H2.H2.H10A115.16A363C2A80.2A54.7A.32A16I16C10.6I14Y2C35.C19.C4.4A5.A135.2C.C32L26C6" ++
    "L26C11K10CK45C2U31.3U6.2U6.2U6.2U3.3C7.C7.10C5.2f12.f26.f19.f2.f15.2f14.34f123.5C3.4C45.3C9" ++
    "G79.C13.3G.47C45I.130ē29.3Ĕ49.15IC27.4é36.9é3ĕ27.5Ė43.5ê30.êë36.4ë14.42ė80Ę48ì30.2ì10.6í36.4" ++
    "í36.4ę40.8î52.11îa11.a15.a7.a2.a11.a15.a7.a2.67È311.9È22.10È8.24L6.L42.L9.69j6.2j.j44.j2.3j" ++
    ".2jï22.ï9Ě32ð31.8ð9.48É19.É2.5É5ñ28.3ñò26.5ò.64ě32Ê24.4Ê20.2Ê46b4.b2.5b8.b3.b29.2b3.4b10.7b9" ++
    ".7Ĝ32ĝ32.32ó39.4ó12.9ô54.3ô7õ22.2õ8ö19.5ö8Ë18.7Ë4.12Ë7.80Ğ73.55Ì51.13Ì51.7Ì6ø40.8ø10.294A31." ++
    "Í42.Í3.2Í2.75A3ğ40.8Ġ42.22ġ26.38Ģ28.20ģ23.9Î78.4Î36.9Îù67.10ù.2ú25.7ú10.6û53.û18.8Ĥ39.9ĥ96." ++
    "X20.11ü18.ü47.62n7.n.n4.n15.n11.6ý59.5ý10.6P4.P8.2P2.2P22.P7.P2.P5.IP9.2P2.2P3.2P.6P.5P7.2P7" ++
    ".3P5.139þ92.þ5.30ÿ72.8ÿ10.166Ā54.2Ā38.34ā69.11ā10.6h13.19Ă58.6Ă10.54Ï27.2Ï15.4Ï23.185Ħ60.100" ++
    "ă83.12ăc7.2c.2c8.c2.c30.c2.2c12.9c10.70Ð8.2Ð46.2Ð11.27ħ72.8Ĩ83.13Â16ĩ57.7D10.246u9.u45.u14" ++
    ".10u29.3Ñ32.2Ñ22.Ñ14.73g7.g2.g44.3g.g2.g9.8g10.6k6.k2.k37.k2.k6.7k10.310Ī25.7Ò17.Ò41.3Ò28.86" ++
    "ã.15M50.13Mv922.102v111.v5.11v196.2636ī99.13Ĭ1110.4010ĭ583.8633ä569.7Ó31.Ó10.4Ó2Ą79.Ą10.6ą30" ++
    ".2ą6.10o70.10o10.o7.o21.5o19.688Į91.101Ô75.4Ô57.7Ô17.64wĆN2ć.11N2.14w6136.8w768ć470.42w9" ++
    ".8935K4.K7.K2.KJ287K3.15J.29J3.2K.14K4.8Ć396.2308p107.5p13.3p9.7p10.2p4C4.4700I46.2I23.9C116" ++
    ".60C246.10C39.2C62I3C17I8C2I7C30I4C61.21G70.122C20.12C20.12C87.9C25.135C85.C71.C2.2C.2C2.2C4" ++
    ".C12.C.C7.C65.C4.2C8.C7.C28.C4.C5.C.3C7.C340.2C292.2C50Õ652.15Õ5.Õ15.1104L31.6L6.213i7.i17.2" ++
    "i7.i2.i5.5Y62.33Y.112x45.3x14.2x10.4x2.320į31.17Ĉ58.5Ĉ.464İ42.742F7.F4.F2.F15.ĉ197.2ĉ16.41" ++
    "Ö76.4Ö10.4Ö2.785C68.76C61.194A4.A27.A2.A.2A.A10.A4.A.A.6A.4A.A.A.A3.A2.A.2A.A.A.A.A.A2.A.2A4" ++
    ".A7.A4.A4.A.A10.A17.5A3.A5.A17.52A2.270C44.4C100.12C15.2C15.C15.C37.10C174.56C26JC2.13C44.4" ++
    "C9.7C2.14C6.154C984.4C17.3C13.3C119.4C95.6C12.4C.15C12.4C56.8C10.6C40.8C30.2C2.78C340.12C14" ++
    ".2C13.3C9.7C46.C7.8C14.4C9.7C9.7C147.C55.37C10.1030N42720.32N4154.6N222.2N5762.14N7473.3103" ++
    "N542.1506N4939.5N4192.711761C.30C96.128I240.196112")

/-- The mark of the script of a character. -/
def scriptMark (c : Char) : Char :=
  (markAt scriptRuns c.toNat).getD '.'

/-- The marks of the scripts, by names in small letters without blanks. -/
def scriptNames : List (String × Char) :=
  [("adlam", 'Ö'), ("adlm", 'Ö'), ("ahom", 'Ï'), ("anatolianhieroglyphs", 'ĭ'), ("hluw", 'ĭ'),
   ("arabic", 'A'), ("arab", 'A'), ("armenian", 'R'), ("armn", 'R'), ("avestan", 'ô'),
   ("avst", 'ô'), ("balinese", 'ß'), ("bali", 'ß'), ("bamum", 'ä'), ("bamu", 'ä'),
   ("bassavah", 'ą'), ("bass", 'ą'), ("batak", 'á'), ("batk", 'á'), ("bengali", 'B'),
   ("beng", 'B'), ("bhaiksuki", 'u'), ("bhks", 'u'), ("bopomofo", 'y'), ("bopo", 'y'),
   ("brahmi", 'Î'), ("brah", 'Î'), ("braille", 'ď'), ("brai", 'ď'), ("buginese", 'Þ'),
   ("bugi", 'Þ'), ("buhid", 'č'), ("buhd", 'č'), ("canadianaboriginal", 'Â'), ("cans", 'Â'),
   ("carian", 'Ĕ'), ("cari", 'Ĕ'), ("caucasianalbanian", 'î'), ("aghb", 'î'), ("chakma", 'û'),
   ("cakm", 'û'), ("cham", 't'), ("cherokee", 'Á'), ("cher", 'Á'), ("chorasmian", 'Ģ'),
   ("chrs", 'Ģ'), ("common", 'C'), ("zyyy", 'C'), ("coptic", 'z'), ("copt", 'z'), ("qaac", 'z'),
   ("cuneiform", 'v'), ("xsux", 'v'), ("cypriot", 'j'), ("cprt", 'j'), ("cyprominoan", 'ī'),
   ("cpmn", 'ī'), ("cyrillic", 'Y'), ("cyrl", 'Y'), ("deseret", 'ė'), ("dsrt", 'ė'),
   ("devanagari", 'D'), ("deva", 'D'), ("divesakuru", 'c'), ("diak", 'c'), ("dogra", 'Ħ'),
   ("dogr", 'Ħ'), ("duployan", 'p'), ("dupl", 'p'), ("egyptianhieroglyphs", 'Ĭ'), ("egyp", 'Ĭ'),
   ("elbasan", 'ę'), ("elba", 'ę'), ("elymaic", 'ģ'), ("elym", 'ģ'), ("ethiopic", 'F'),
   ("ethi", 'F'), ("georgian", 'E'), ("geor", 'E'), ("glagolitic", 'i'), ("glag", 'i'),
   ("gothic", 'ĕ'), ("goth", 'ĕ'), ("grantha", 'P'), ("gran", 'P'), ("greek", 'G'),
   ("grek", 'G'), ("gujarati", 'Q'), ("gujr", 'Q'), ("gunjalagondi", 'k'), ("gong", 'k'),
   ("gurmukhi", 'O'), ("guru", 'O'), ("han", 'N'), ("hani", 'N'), ("hangul", 'U'),
   ("hang", 'U'), ("hanifirohingya", 'ø'), ("rohg", 'ø'), ("hanunoo", 'Č'), ("hano", 'Č'),
   ("hatran", 'É'), ("hatr", 'É'), ("hebrew", 'H'), ("hebr", 'H'), ("hiragana", 'J'),
   ("hira", 'J'), ("imperialaramaic", 'ï'), ("armi", 'ï'), ("inherited", 'I'), ("zinh", 'I'),
   ("qaai", 'I'), ("inscriptionalpahlavi", 'ö'), ("phli", 'ö'), ("inscriptionalparthian", 'õ'),
   ("prti", 'õ'), ("javanese", 'Æ'), ("java", 'Æ'), ("kaithi", 'ù'), ("kthi", 'ù'),
   ("kannada", 'W'), ("knda", 'W'), ("katakana", 'K'), ("kana", 'K'), ("kawi", 'Ò'),
   ("kayahli", 'æ'), ("kali", 'æ'), ("kharoshthi", 'b'), ("khar", 'b'),
   ("khitansmallscript", 'ć'), ("kits", 'ć'), ("khmer", 'r'), ("khmr", 'r'), ("khojki", 'ü'),
   ("khoj", 'ü'), ("khudawadi", 'ý'), ("sind", 'ý'), ("lao", 'Z'), ("laoo", 'Z'),
   ("latin", 'L'), ("latn", 'L'), ("lepcha", 'Ä'), ("lepc", 'Ä'), ("limbu", 'l'), ("limb", 'l'),
   ("lineara", 'È'), ("lina", 'È'), ("linearb", 'f'), ("linb", 'f'), ("lisu", 'ã'),
   ("lycian", 'ē'), ("lyci", 'ē'), ("lydian", 'ò'), ("lydi", 'ò'), ("mahajani", 'Ĥ'),
   ("mahj", 'Ĥ'), ("makasar", 'Ī'), ("maka", 'Ī'), ("malayalam", 'd'), ("mlym", 'd'),
   ("mandaic", 'Ú'), ("mand", 'Ú'), ("manichaean", 'ó'), ("mani", 'ó'), ("marchen", 'Ñ'),
   ("marc", 'Ñ'), ("masaramgondi", 'g'), ("gonm", 'g'), ("medefaidrin", 'Į'), ("medf", 'Į'),
   ("meeteimayek", 'Ç'), ("mtei", 'Ç'), ("mendekikakui", 'ĉ'), ("mend", 'ĉ'),
   ("meroiticcursive", 'Ê'), ("merc", 'Ê'), ("meroitichieroglyphs", 'ě'), ("mero", 'ě'),
   ("miao", 'Ô'), ("plrd", 'Ô'), ("modi", 'ā'), ("mongolian", 'h'), ("mong", 'h'), ("mro", 'Ó'),
   ("mroo", 'Ó'), ("multani", 'n'), ("mult", 'n'), ("myanmar", 'À'), ("mymr", 'À'),
   ("nabataean", 'ð'), ("nbat", 'ð'), ("nagmundari", 'İ'), ("nagm", 'İ'), ("nandinagari", 'Ð'),
   ("nand", 'Ð'), ("newtailue", 's'), ("talu", 's'), ("newa", 'þ'), ("nko", 'Ø'), ("nkoo", 'Ø'),
   ("nushu", 'Ć'), ("nshu", 'Ć'), ("nyiakengpuachuehmong", 'x'), ("hmnp", 'x'), ("ogham", 'ċ'),
   ("ogam", 'ċ'), ("olchiki", 'Ď'), ("olck", 'Ď'), ("oldhungarian", 'Ì'), ("hung", 'Ì'),
   ("olditalic", 'é'), ("ital", 'é'), ("oldnortharabian", 'ĝ'), ("narb", 'ĝ'),
   ("oldpermic", 'Ė'), ("perm", 'Ė'), ("oldpersian", 'ë'), ("xpeo", 'ë'), ("oldsogdian", 'ğ'),
   ("sogo", 'ğ'), ("oldsoutharabian", 'Ĝ'), ("sarb", 'Ĝ'), ("oldturkic", 'Ğ'), ("orkh", 'Ğ'),
   ("olduyghur", 'ġ'), ("ougr", 'ġ'), ("oriya", 'S'), ("orya", 'S'), ("osage", 'í'),
   ("osge", 'í'), ("osmanya", 'ì'), ("osma", 'ì'), ("pahawhhmong", 'o'), ("hmng", 'o'),
   ("palmyrene", 'Ě'), ("palm", 'Ě'), ("paucinhau", 'ĩ'), ("pauc", 'ĩ'), ("phagspa", 'Ē'),
   ("phag", 'Ē'), ("phoenician", 'ñ'), ("phnx", 'ñ'), ("psalterpahlavi", 'Ë'), ("phlp", 'Ë'),
   ("rejang", 'ç'), ("rjng", 'ç'), ("runic", 'Û'), ("runr", 'Û'), ("samaritan", 'Ù'),
   ("samr", 'Ù'), ("saurashtra", 'å'), ("saur", 'å'), ("sharada", 'ĥ'), ("shrd", 'ĥ'),
   ("shavian", 'Ę'), ("shaw", 'Ę'), ("siddham", 'Ā'), ("sidd", 'Ā'), ("signwriting", 'Õ'),
   ("sgnw", 'Õ'), ("sinhala", 'X'), ("sinh", 'X'), ("sogdian", 'Ġ'), ("sogd", 'Ġ'),
   ("sorasompeng", 'ú'), ("sora", 'ú'), ("soyombo", 'Ĩ'), ("soyo", 'Ĩ'), ("sundanese", 'à'),
   ("sund", 'à'), ("sylotinagri", 'đ'), ("sylo", 'đ'), ("syriac", 'q'), ("syrc", 'q'),
   ("tagalog", 'Ü'), ("tglg", 'Ü'), ("tagbanwa", 'Ã'), ("tagb", 'Ã'), ("taile", 'Ý'),
   ("tale", 'Ý'), ("taitham", 'm'), ("lana", 'm'), ("taiviet", 'è'), ("tavt", 'è'),
   ("takri", 'Ă'), ("takr", 'Ă'), ("tamil", 'M'), ("taml", 'M'), ("tangsa", 'Ą'), ("tnsa", 'Ą'),
   ("tangut", 'w'), ("tang", 'w'), ("telugu", 'V'), ("telu", 'V'), ("thaana", 'Ċ'),
   ("thaa", 'Ċ'), ("thai", 'T'), ("tibetan", 'e'), ("tibt", 'e'), ("tifinagh", 'Å'),
   ("tfng", 'Å'), ("tirhuta", 'ÿ'), ("tirh", 'ÿ'), ("toto", 'į'), ("ugaritic", 'ê'),
   ("ugar", 'ê'), ("vai", 'Đ'), ("vaii", 'Đ'), ("vithkuqi", 'a'), ("vith", 'a'),
   ("wancho", 'Ĉ'), ("wcho", 'Ĉ'), ("warangciti", 'ă'), ("wara", 'ă'), ("yezidi", 'Í'),
   ("yezi", 'Í'), ("yi", 'â'), ("yiii", 'â'), ("zanabazarsquare", 'ħ'), ("zanb", 'ħ')]

end SchemaRename.Text
