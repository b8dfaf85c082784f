import SchemaRename.Text.Runs

/-!
# General Categories

The general category of every character, and the classes built from it.

A matching pattern can ask for letters, digits and word characters, a
quoted text has to know which characters can be shown as they are, and a
group name is restricted to letters and numbers. Each of these is a union of
general categories and a short list of exceptions, so the categories are
tabled once and the classes are spelled out below.

The marks of the table are one per category: `u l t m o` for letters
(upper-case, lower-case, title-case, modifier, other), `n c e` for marks
(nonspacing, spacing, enclosing), `d r f` for numbers (decimal, letter,
other), `_ - ( ) < > !` for punctuation, `+ $ ^ *` for symbols, a space, `L`
and `P` for separators, and `C F S U .` for control, format, surrogate,
private use and unassigned.

## Main definitions

* `Category`: The thirty general categories.
* `category`: The general category of a character.
* `isAlphabetic`, `isNumeric`, `isWordChar`: Classes used by patterns.
* `isGraphemeExtend`: Characters that join the one before them.
-/

namespace SchemaRename.Text

/-- The general categories, in the order in which the standard lists them. -/
inductive Category where
  | upperLetter | lowerLetter | titleLetter | modifierLetter | otherLetter
  | nonspacingMark | spacingMark | enclosingMark
  | decimalNumber | letterNumber | otherNumber
  | connector | dash | openPunctuation | closePunctuation | initialQuote | finalQuote
  | otherPunctuation
  | mathSymbol | currencySymbol | modifierSymbol | otherSymbol
  | spaceSeparator | lineSeparator | paragraphSeparator
  | control | format | surrogate | privateUse | unassigned
deriving Repr, DecidableEq

/-- The category a mark of the table stands for. -/
def Category.ofMark : Char → Category
  | 'u' => .upperLetter
  | 'l' => .lowerLetter
  | 't' => .titleLetter
  | 'm' => .modifierLetter
  | 'o' => .otherLetter
  | 'n' => .nonspacingMark
  | 'c' => .spacingMark
  | 'e' => .enclosingMark
  | 'd' => .decimalNumber
  | 'r' => .letterNumber
  | 'f' => .otherNumber
  | '_' => .connector
  | '-' => .dash
  | '(' => .openPunctuation
  | ')' => .closePunctuation
  | '<' => .initialQuote
  | '>' => .finalQuote
  | '!' => .otherPunctuation
  | '+' => .mathSymbol
  | '$' => .currencySymbol
  | '^' => .modifierSymbol
  | '*' => .otherSymbol
  | ' ' => .spaceSeparator
  | 'L' => .lineSeparator
  | 'P' => .paragraphSeparator
  | 'C' => .control
  | 'F' => .format
  | 'S' => .surrogate
  | 'U' => .privateUse
  | _ => .unassigned

/-- Every category, for classes that are unions of categories. -/
def Category.isLetter : Category → Bool
  | .upperLetter | .lowerLetter | .titleLetter | .modifierLetter | .otherLetter => true
  | _ => false

/-- Marks: characters that combine with another one. -/
def Category.isMark : Category → Bool
  | .nonspacingMark | .spacingMark | .enclosingMark => true
  | _ => false

/-- Numbers of any kind. -/
def Category.isNumber : Category → Bool
  | .decimalNumber | .letterNumber | .otherNumber => true
  | _ => false

/-- Punctuation of any kind. -/
def Category.isPunctuation : Category → Bool
  | .connector | .dash | .openPunctuation | .closePunctuation | .initialQuote | .finalQuote
  | .otherPunctuation => true
  | _ => false

/-- Symbols of any kind. -/
def Category.isSymbol : Category → Bool
  | .mathSymbol | .currencySymbol | .modifierSymbol | .otherSymbol => true
  | _ => false

/-- Separators of any kind. -/
def Category.isSeparator : Category → Bool
  | .spaceSeparator | .lineSeparator | .paragraphSeparator => true
  | _ => false

/-- Everything that is not shown and does not separate: the remaining five. -/
def Category.isOther : Category → Bool
  | .control | .format | .surrogate | .privateUse | .unassigned => true
  | _ => false

/-- The general categories of all code points. -/
def categoryRuns : List Run :=
  decodeRuns (
    "C32 !3$!3()!+!-!2d10!2+3!2u26(!)^_^l26(+)+C33 !$4*!^*o<+F*^*+f2^l!2^fo>f3!u23+u7l24+l8ululul" ++
    "ululululululululululululululululululululululululul2ulululululululul2ulululululululululululul" ++
    "ulululululululululululu2lulul3u2lulu2lu3l2u4lu2lu3l3u2lu2lululu2lul2ulu2lu3lulu2l2oul3o4utlu" ++
    "tlutlulululululululul2ululululululululul2utlulu3lulululululululululululululululululululululu" ++
    "lululululululul7u2lu2l2ulu4lulululul69ol27m18^4m12^14m5^7m^m^17n112ululm^ul.2ml3!u.4^2u!u3.u" ++
    ".u2lu17.u9l35ul2u3l3ulululululululululululul5ul+ulu2l2u51l48ulululululululululululululululul" ++
    "ul*n5e2ulululululululululululululululululululululululululululu2lulululululul2ulululululululu" ++
    "lulululululululululululululululululululululululululululululululululululululululul.u38.2m!6" ++
    "l41!-.2*2$.n45-n!n2!n2!n.8o27.4o4!2.11F6+3!2$!2*2n11!F!3o32mo10n21d10!4o2no99!on7F*n6m2n2*n4" ++
    "o2d10o3*2o!14.Fono30n27.2o89n11o.14d10o33n9m2*!3m.2n$2o22n4mn9mn3mn5.2!15.o25n3.2!.o11.5o24^" ++
    "o6.F2.5n9o41mn24Fn32co54ncnoc3n8c4nc2on7o10n2!2d10!mo15nc2.o8.2o2.2o22.o7.o.3o4.2noc3n4.2c2" ++
    ".2c2no.8c.4o2.o3n2.2d10o2$2f6*$o!n.2n2c.o6.4o2.2o22.o7.o2.o2.o2.2n.c3n2.4n2.2n3.3n.7o4.o.7" ++
    "d10n2o3n!.10n2c.o9.o3.o22.o7.o2.o5.2noc3n5.n2c.c2n.2o.15o2n2.2d10!$.7on6.nc2.o8.2o2.2o22.o7." ++
    "o2.o5.2nocncn4.2c2.2c2n.7n2c.4o2.o3n2.2d10*of6.10no.o6.3o3.o4.3o2.o.o2.3o2.3o3.3o12.4c2nc2.3" ++
    "c3.c3n.2o.6c.14d10f3*6$*.5nc3no8.o3.o23.o16.2non3c4.n3.n4.7n2.o3.2o.2o2n2.2d10.7!f7*onc2!o8." ++
    "o3.o23.o10.o5.2nocnc5.nc2.c2n2.7c2.6o2.o2n2.2d10.o2c.12n2c2o9.o3.o41n2oc3n4.c3.c3no*.4o3cf7" ++
    "o3n2.2d10f9*o6.nc2.o18.3o24.o9.o.2o7.3n.4c3n3.n.c8.6d10.2c2!.12o48no2n7.4$o6mn8!d10!2.37o2.o" ++
    ".o5.o24.o.o10no2n9o.2o5.m.n7.d10.2o4.32o*3!15*!*3n2*6d10f10*n*n*n()()c2o8.o36.4n14cn5!n2o5" ++
    "n11.n36.*8n*6.*2!5*4!2.37o43c2n4cn6cn2c2n2od10!6o6c2n2o4n3oc3o2c7o3n4o13nc2n2c6nocd10c3n*2" ++
    "u38.u.5u.2l43!ml3o329.o4.2o7.o.o4.2o41.o4.2o33.o4.2o7.o.o4.2o15.o57.o4.2o67.2n3!9f20.3o16*10" ++
    ".6u86.2l6.2-o620*!o17 o26().3o75!3r3o8.7o18n3c.9o19n2c!2.9o18n2.12o13.o3.n2.12o52n2cn7c8nc2" ++
    "n11!3m!3$on.2d10.6f10.6!6-!4n3Fnd10.6o35mo53.7o5n2o34no.5o70.10o31.n3c4n2c3.4c2nc6n3.4*.3!2" ++
    "d10o30.2o5.11o44.4o26.6d10f.3*34o23n2c2n.2!2o53cncn7.ncnc2n8c6n10.2nd10.6d10.6!7m!6.2n14en16" ++
    ".49n4co47ncn5cnc5nc2o8.!2d10!7*10n9*9!3n2co30cn4c2n2cn3o2d10o44ncn2c3ncn3c2.8!4o36c8n8c2n2.3" ++
    "!5d10.3o3d10o30m6!2l9ul.5u43.2u3!8.8n3!n13cn7o4no6no2cn2o.5l44m63l13ml34m37n64ululululululul" ++
    "ulululululululululululululululululululululululululululululululululululululululululululululul" ++
    "ulululululululululululululululululululululul9ulululululululululululululululululululululululu" ++
    "lululululululululululululululululululululululululul9u8l6.2u6.2l8u8l8u8l6.2u6.2l8.u.u.u.ul8u8" ++
    "l14.2l8t8l8t8l8t8l5.l2u4t^l^3l3.l2u4t^3l4.2l2u4.^3l8u5^3.2l3.l2u4t^2. 11F5-6!2<>(<2>(<!8LPF5" ++
    " !9<>!4_2!3+()!11+!_!10 F5.F10fm.2f6+3()mf10+3().m13.3$33.15n13e4ne3n12.15*2u*4u*2lu3l2u3l*u" ++
    "*2+u5*6u*u*u*u4*lu4lo4l*2l2u2+5ul4*+*2l*f16r35ulr4f*2.4+5*5+2*4+*2+*2+*7+*31+2*2+*+*31+268*8" ++
    "()()*20+2*7()*81+*30+25*40+6*72.22*11.21f60*78f22*183+*9+*54+8*111+*248()()()()()()()f30*44" ++
    "+5()+31()()()()()+16*256+131()()()()()()()()()()()+63()()+32()+258*48+21*2+6*39.2*32.*105u48" ++
    "l48ulu3l2ulululu4lul2ul6m2u3lulululululululululululululululululululululululululululululululu" ++
    "lululululululululululululululululul2*6ululn3ul.5!4f!2l38.l.5l.2o56.7m!.14no23.9o7.o7.o7.o7." ++
    "o7.o7.o7.o7.n32!2<><>!3<>!<>!9-!2-!<>!2<>()()()()!5m!10-2!4-!(!13*2!3()()()()-.34*26.*89.12" ++
    "*214.26*16 !3*mor()()()()()*2()()()()-()2*r9n4c2-m5*2r3mo!*2.o86.2n2^2m2o-o90!m3o.5o43.o94." ++
    "*2f4*10o32*38.9*o16*31.f10*30f8*f15*32f10*39f15*320o6592*64o21013mo1143.3*55.9o40m6!2o268m!3" ++
    "o16d10o2.20ulululululululululululululululululululululululone3!n10!mululululululululululululu" ++
    "lulm2n2o70r10n2!6.8^23m9^2ululululululul3ulululululululululululululululululululululululululu" ++
    "lulululululml8ululu2lululululm^2ululoulul3ululululululululululu5lu5lulululululululu4lulu2l.2" ++
    "ul.l.lulululu.21m3ulom2lo7no3no4no23c2n2c*4n.3f6*2$*.6o52!4.8c2o50c16n2.8!2d10.6n18o6!3o!o2n" ++
    "d10o28n8!2o23n11c2.11!o29.3n3co47nc2n4c2n2c3!13.md10.4!2o5nmo9d10o5.o41n6c2n2c2n2.9o3no8nc.2" ++
    "d10.2!4o16mo6*3ocnco50non3o2n2o5n2ono.24o2m!2o11cn2c2!2om2cn.10o6.2o6.2o6.9o7.o7.l43^m4l9m^2" ++
    ".4l80o35c2nc2nc2!cn.2d10.6o11172.12o23.4o49.4S2048U6400o366.2o106.38l7.12l5.5ono10+o13.o5.o." ++
    "o2.o2.o108^17.16o363)(*16o64.2o54.7*.32o12$*3n16!7()!.6n16!-2_2()()()()()()()()!2()!4_3!3.!4" ++
    "-()()()!3+-+3.!$!2.4o5.o135.2F.!3$!3()!+!-!2d10!2+3!2u26(!)^_^l26(+)+()!()!2o10mo45m2o31.3o6" ++
    ".2o6.2o6.2o3.3$2+^*$2.*+4*2.10F3*2.2o12.o26.o19.o2.o15.2o14.34o123.5!3.4f45.3*9r53f4*17f2*3." ++
    "*13.3*.47*45n.130o29.3o49.15nf27.4o32f4.9o20ro8r.5o38n5.5o30.!o36.4o8!r5.42u40l40o78.2d10.6" ++
    "u36.4l36.4o40.8o52.11!u11.u15.u7.u2.l11.l15.l7.l2.3o52.12o311.9o22.10o8.24m6.m42.m9.69o6.2o." ++
    "o44.o2.3o.2o23.!f8o23*2f7o31.8f9.48o19.o2.5f5o22f6.3!o26.5!.64o56.4f2o2f16.2f46on3.n2.5n4o4." ++
    "o3.o29.2n3.4nf9.7!9.7o29f2!o29f3.32o8*o28n2.4f5!7.9o54.3!7o22.2f8o19.5f8o18.7!4.12f7.80o73" ++
    ".55u51.13l51.7f6o36n4.8d10.6d10o4mou22.3n5-ml22.8+2.208f31.o42.n2-.2o2.16o3.55n4o29f10o.8o22" ++
    "n11f4!5.22o18n4!4.38o21f7.20o23.9cnco53n15!7.4f20d10no2n2o.9n3co45c3n4c2n2!2F!4n.10F.2o25.7" ++
    "d10.6n3o36n5cn8.d10!4oc2o.8o35n!2o.9n2co48c3n9c2o4!4n4!cnd10o!o!3.f20.11o18.o25c3n3c2ncn2!6n" ++
    "o2n.62o7.o.o4.o15.o10!.6o47nc3n8.5d10.6n2c2.o8.2o2.2o22.o7.o2.o5.n2oc2nc4.2c2.2c3.2o.6c.5o5" ++
    "c2.2n7.3n5.11o10.o.2o.o38.oc3n6.c.2c.c4.c2ncnono!2.!2.8n2.29o53c3n8c2n3cno4!5d10!2.!no3.30" ++
    "o48c3n6cnc4n2cn2o2!o.8d10.166o47c3n4.2c4n2cn2!23o4n2.34o48c3n8c2ncn2!3o.11d10.6!13.19o43ncn" ++
    "c2n6cno!.6d10.6d20.28o27.2n3c2n4cn5.4d10f2!3*o7.185o44c3n9cn2!.100u32l32d10f9.12o8.2o.2o8.o2" ++
    ".o24c6.c2.2n2cnococn!3.9d10.70o8.2o39c3n4.2n2c4no!oc.27on10o40n6con4!8n.8on6c2n3o46n13cn2!3o" ++
    "!5.13o73.7!10.182o33!.14d10.6o9.o37cn7.n6cno!5.10d10f19.3!2o30.2n22.cn7cn2cn2.73o7.o2.o38n6" ++
    ".3n.n2.n7on.8d10.6o6.o2.o32c5.n2.c2ncno.7d10.310o19n2c2!2.7n2oco13.o34c2n5.3c2ncn!13d10.86o" ++
    ".15f21*8$4*17.13!o922.102r111.!5.11o196.2636o97!2.13o1072F16no6n15.10o3995.5o583.6841o30n12" ++
    "c3n3d10.1734o569.7o31.d10.4!2o79.d10.6o30.2n5!.10o48n7!5*4m4!*.10d10.f7.o21.5o19.432m3o40m2" ++
    "!3d10.198u32l32f23!4.101o75.4noc55.7n4m13.64m2!mn.11c2.14o6136.8o1238.42o9.8935m4.m7.m2.o291" ++
    ".15o.29o3.2o.14o4.8o396.2308o107.5o13.3o9.7o10.2*n2!F4.3932*240d10.6*436.76n46.2n23.9*116.60" ++
    "*246.10*39.2*60c2n3*3c6F8n8*2n7*30n4*61.21*66n3*.122f20.12f20.12*87.9f25.135u26l26u26l7.l18" ++
    "u26l26u.u2.2u.2u2.2u4.u8l4.l.l7.l11u26l26u2.u4.2u8.u7.l26u2.u4.u5.u.3u7.l26u26l26u26l26u26" ++
    "l26u26l26u26l26u26l28.2u25+l25+l6u25+l25+l6u25+l25+l6u25+l25+l6u25+l25+l6ul.2d50*512n55*4n50" ++
    "*8n*14n*2!5.15n5.n15.1104l10ol20.6l6.213n7.n17.2n7.n2.n5.5m62.33n.112o45.3n7m7.2d10.4o*.320" ++
    "o30n.17o44n4d10.5$.464o27mn4d10.214o30n2od10.4!.480o7.o4.o2.o15.o197.2f9n7.41u34l34n7m.4d10" ++
    ".4!2.785f59*f3$f4.76f45*f15.194o4.o27.o2.o.2o.o10.o4.o.o.6o.4o.o.o.o3.o2.o.2o.o.o.o.o.o2.o.2" ++
    "o4.o7.o4.o4.o.o10.o17.5o3.o5.o17.52+2.270*44.4*100.12*15.2*15.*15.*37.10f13*161.56*29.13*44" ++
    ".4*9.7*2.14*6.154*251^5*728.4*17.3*13.3*119.4*95.6*12.4*.15*12.4*56.8*10.6*40.8*30.2*12.4*2" ++
    ".62*340.12*14.2*13.3*10.5*56.7*15.2*11.6*9.7*147.*92d10.1030o42720.32o4154.6o222.2o5762.14" ++
    "o7473.15o622.2466o542.1506o4939.5o4192.711761F.30F96.128n240.65040U65534.2U65534.2")

/-- The marks that count as alphabetic: vowel signs and the like. -/
def alphabeticMarkRuns : List Run :=
  decodeRuns (
    ".837x.618x14.x.x2.x2.x.72x11.48x13.x7.16x.101x7.4x4.2x2.4x.35x.30x16.102x11.101x2.3x9.x3.x4" ++
    ".106x.60x12.3x7.6x20.54x2.2x15.x2.5x3.10x2.29x3.58x7.2x2.2x2.10x.10x2.29x3.58x5.4x2.2x2.4x" ++
    ".30x2.3x.11x3.58x8.x3.x2.21x2.22x3.4x3.58x7.2x2.2x2.9x2.10x2.30x.59x5.3x3.x3.10x.40x5.57x7." ++
    "x3.x3.8x2.11x2.29x3.58x7.x3.x3.8x2.11x2.15x.12x4.58x7.x3.x3.10x.10x2.29x3.75x6.x.x8.18x2.61x" ++
    ".2x7.18x.99x.2x6.x2.16x.163x19.9x11.x36.110x12.x.2x4.23x4.4x3.x3.2x7.3x4.13x12.x.10x4.1652x2" ++
    ".30x2.30x2.30x2.66x19.188x2.34x.118x12.4x9.222x5.57x10.2x20.74x2.11x3.49x5.48x15.60x3.30x9.2" ++
    "x2.57x11.50x19.432x14.4075x32.30836x8.34x2.354x.8x.23x5.88x2.50x16.x.57x.38x5.28x12.45x4.48" ++
    "x12.37x.67x14.12x.8x2.45x3.50x.x3.2x2.5x.44x5.5x.237x8.20275x.2135x5.1670x3.x2.5x4.788x4.65x" ++
    ".321x2.79x.259x3.53x14.45x2.11x3.45x9.9x.61x3.36x12.18x2.57x3.48x13.14x2.92x9.2x.6x.2x.157" ++
    "x10.23x4.58x7.2x2.2x2.10x.10x2.84x9.x.2x.x4.x2.103x13.x3.106x18.237x7.2x7.29x2.82x15.x.106" ++
    "x11.103x14.257x13.247x6.x2.2x2.3x.x.142x7.2x6.4x.28x10.42x5.x4.18x11.46x14.407x8.x7.83x22." ++
    "x14.122x6.3x.x2.x3.x.3x.66x5.x2.x4.348x4.9x2.x.48x7.3x3.16861x17.3616x.x55.7x4.93x2.19628x" ++
    ".9057x7.x17.2x7.x2.x5.100x.2231x")

/-- The general category of a character. -/
def category (c : Char) : Category :=
  match markAt categoryRuns c.toNat with
  | some mark => .ofMark mark
  | none => .unassigned

/-- Letters in a circle or a square, which are symbols by category and letters
    by use. -/
def isEnclosedLetter (c : Char) : Bool :=
  let n := c.toNat
  (0x24B6 ≤ n && n ≤ 0x24E9) || (0x1F130 ≤ n && n ≤ 0x1F149) ||
    (0x1F150 ≤ n && n ≤ 0x1F169) || (0x1F170 ≤ n && n ≤ 0x1F189)

/-- The property `Alphabetic`. -/
def isAlphabetic (c : Char) : Bool :=
  (category c).isLetter || category c == .letterNumber || isEnclosedLetter c ||
    markAt alphabeticMarkRuns c.toNat == some 'x'

/-- Characters with a numeric category. -/
def isNumeric (c : Char) : Bool :=
  (category c).isNumber

/-- Word characters: alphabetic characters, marks, decimal digits, connectors
    and the two joiners. -/
def isWordChar (c : Char) : Bool :=
  match category c with
  | .decimalNumber | .connector | .letterNumber => true
  | k => k.isLetter || k.isMark || isEnclosedLetter c || c.toNat == 0x200C || c.toNat == 0x200D

/-- The property `Lowercase`: lower-case letters and the letters that are small
    by shape. -/
def isLowercase (c : Char) : Bool :=
  let n := c.toNat
  category c == .lowerLetter ||
    [(0xAA, 0xAA), (0xBA, 0xBA), (0x2B0, 0x2B8), (0x2C0, 0x2C1), (0x2E0, 0x2E4),
     (0x345, 0x345), (0x37A, 0x37A), (0x10FC, 0x10FC), (0x1D2C, 0x1D6A), (0x1D78, 0x1D78),
     (0x1D9B, 0x1DBF), (0x2071, 0x2071), (0x207F, 0x207F), (0x2090, 0x209C),
     (0x2170, 0x217F), (0x24D0, 0x24E9), (0x2C7C, 0x2C7D), (0xA69C, 0xA69D),
     (0xA770, 0xA770), (0xA7F2, 0xA7F4), (0xA7F8, 0xA7F9), (0xAB5C, 0xAB5F),
     (0xAB69, 0xAB69), (0x10780, 0x10780), (0x10783, 0x10785), (0x10787, 0x107B0),
     (0x107B2, 0x107BA), (0x1E030, 0x1E06D)].any fun (lo, hi) => lo ≤ n && n ≤ hi

/-- The property `Uppercase`: upper-case letters, the large roman numerals and
    the large enclosed letters. -/
def isUppercase (c : Char) : Bool :=
  let n := c.toNat
  category c == .upperLetter || (0x2160 ≤ n && n ≤ 0x216F) || (0x24B6 ≤ n && n ≤ 0x24CF) ||
    (0x1F130 ≤ n && n ≤ 0x1F149) || (0x1F150 ≤ n && n ≤ 0x1F169) ||
    (0x1F170 ≤ n && n ≤ 0x1F189)

/-- The property `Grapheme_Extend`: nonspacing and enclosing marks, and the
    characters the standard adds to them. -/
def isGraphemeExtend (c : Char) : Bool :=
  let n := c.toNat
  match category c with
  | .nonspacingMark | .enclosingMark => true
  | _ =>
    [0x9BE, 0x9D7, 0xB3E, 0xB57, 0xBBE, 0xBD7, 0xCC2, 0xCD5, 0xCD6, 0xD3E, 0xD57, 0xDCF,
     0xDDF, 0x1B35, 0x200C, 0x302E, 0x302F, 0xFF9E, 0xFF9F, 0x1133E, 0x11357, 0x114B0,
     0x114BD, 0x115AF, 0x11930, 0x1D165].contains n ||
      (0x1D16E ≤ n && n ≤ 0x1D172) || (0xE0020 ≤ n && n ≤ 0xE007F)

end SchemaRename.Text
