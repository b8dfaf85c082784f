import SchemaRename.Text.Runs

/-!
# Listed Properties

Properties of characters that the standard gives as lists.

These have no shorter description than their ranges. A table starts with the
characters that do not have the property; from there on the two kinds
alternate, `-` for those without it and `+` for those with it.

## Main definitions

* `listedProperties`: The tables, by the name of the property.
* `hasListed`: Whether a character has a property.
* `listedNames`: The names by which the properties are asked for.
-/

namespace SchemaRename.Text

/-- The tables of the listed properties. -/
def listedProperties : List (String × List Run) :=
  [("asciihexdigit", decodeRuns (
    "-48+10-7+6-26+6")),
   ("bidicontrol", decodeRuns (
    "-1564+-6641+2-26+5-55+4")),
   ("bidimirrored", decodeRuns (
    "-40+2-18+-+-28+-+-29+-+-45+-15+-3710+4-1885+2-2460+2-10+2-54+2-14+2-177+-192+4-3+6-3" ++
    "+-3+2-3+4-+4-+-+-4+9-5+-+18-5+4-9+2-+-+8-2+31-2+4-5+-9+2-2+19-5+2-9+5-2+2-4+24-2+16" ++
    "-8+4-20+2-7+2-1085+14-74+-2+4-+2-+3-5+4-5+3-3+14-403+22-2+6-+14-8+-7+6-3+-4+5-+2-2+5" ++
    "-4+-+3-2+2-10+6-2+2-12+19-+4-2+-+-2+-+4-5+2-6+3-24+2-11+2-4+4-+2-2+2-4+43-2+8-+40-5+" ++
    "-+-3+5-5+3-4+-3+5-+-256+-515+4-3+2-+2-14+2-2+10-43+8-427+10-2+8-52797+6-5+2-162+2-18" ++
    "+-+-28+-+-29+-+-+2-+2-55159+-57+-57+-57+-57+")),
   ("changeswhencasefolded", decodeRuns (
    "-65+26-90+-10+23-+8-32+-+-+-+-+-+-+-+-+-+-+-+-+-+-+-+-+-+-+-+-+-+-+-+-+-+-+-+-2+-+-+" ++
    "-+-+-+-+-+-+2-+-+-+-+-+-+-+-+-+-+-+-+-+-+-+-+-+-+-+-+-+-+-+2-+-+-+-+2-+-+2-+3-2+4-+2" ++
    "-+3-3+2-+2-+-+-+2-+-2+-+2-+3-+-+2-3+-7+2-+2-+2-+-+-+-+-+-+-+-+-2+-+-+-+-+-+-+-+-+-2" ++
    "+2-+-+3-+-+-+-+-+-+-+-+-+-+-+-+-+-+-+-+-+-+-+-+-+-+-+-+-+-+-+-+-+-7+2-+2-2+-+4-+-+-+" ++
    "-+-246+-42+-+-3+-8+-6+-+3-+-+2-+17-+9-22+-12+3-3+2-+-+-+-+-+-+-+-+-+-+-+-+-+2-2+2-+-" ++
    "+2-2+51-48+-+-+-+-+-+-+-+-+-+-+-+-+-+-+-+-+-9+-+-+-+-+-+-+-+-+-+-+-+-+-+-+-+-+-+-+-+" ++
    "-+-+-+-+-+-+-+-+2-+-+-+-+-+-+-2+-+-+-+-+-+-+-+-+-+-+-+-+-+-+-+-+-+-+-+-+-+-+-+-+-+-+" ++
    "-+-+-+-+-+-+-+-+-+-+-+-+-+-+-+-+-+-+-+-+-+-2+38-48+-2840+38-+-5+-810+6-2178+9-7+43-2" ++
    "+3-320+-+-+-+-+-+-+-+-+-+-+-+-+-+-+-+-+-+-+-+-+-+-+-+-+-+-+-+-+-+-+-+-+-+-+-+-+-+-+-" ++
    "+-+-+-+-+-+-+-+-+-+-+-+-+-+-+-+-+-+-+-+-+-+-+-+-+-+-+-+-+-+-+-+-+-+-+-+-5+2-2+-+-+-+" ++
    "-+-+-+-+-+-+-+-+-+-+-+-+-+-+-+-+-+-+-+-+-+-+-+-+-+-+-+-+-+-+-+-+-+-+-+-+-+-+-+-+-+-+" ++
    "-+-+-+-9+8-8+6-10+8-8+8-8+6-11+-+-+-+-8+8-16+48-2+3-2+6-5+3-2+6-11+4-12+5-5+3-2+6" ++
    "-297+-3+2-6+-45+16-19+-818+26-1840+48-48+-+3-2+-+-+-+4-+-2+-8+3-+-+-+-+-+-+-+-+-+-+-" ++
    "+-+-+-+-+-+-+-+-+-+-+-+-+-+-+-+-+-+-+-+-+-+-+-+-+-+-+-+-+-+-+-+-+-+-+-+-+-+-+-8+-+-4" ++
    "+-31053+-+-+-+-+-+-+-+-+-+-+-+-+-+-+-+-+-+-+-+-+-+-+-19+-+-+-+-+-+-+-+-+-+-+-+-+-+" ++
    "-135+-+-+-+-+-+-+-3+-+-+-+-+-+-+-+-+-+-+-+-+-+-+-+-+-+-+-+-+-+-+-+-+-+-+-+-+-+-+-10+" ++
    "-+-+2-+-+-+-+-4+-+-2+-+-3+-+-+-+-+-+-+-+-+-+-+5-+5-+-+-+-+-+-+-+-+4-+-6+-5+-+-28+" ++
    "-890+80-20288+7-12+5-1033+26-1221+40-136+36-156+11-+15-+7-+2-1770+51-3053+32-21888" ++
    "+32-31392+34")),
   ("changeswhencasemapped", decodeRuns (
    "-65+26-6+26-58+-10+23-+31-+64-+84-+13-+14-2+14-2+2-+-4+93-+18-6+27-+2-+-+2-3+2-+-+2-" ++
    "+5-2+-+2-2+-7+-2+-+2-3+6-5+-10+2-166+-42+4-2+2-3+3-+-6+-+3-+-+20-+47-3+33-+5-+133-8" ++
    "+166-+38-10+39-2840+38-+-5+-2+43-2+3-672+86-2+6-2178+9-7+43-2+3-185+-3+-16+-113+156" ++
    "-2+-+118-2+6-2+38-2+6-2+8-+-+-+-+31-2+53-+7-+-3+3-+7-3+4-2+6-4+13-5+3-+7-297+-3+2-6+" ++
    "-27+-17+32-3+2-817+52-1814+113-+2-+2-7+102-7+4-3+2-12+38-+-5+-30994+46-18+28-134+14" ++
    "-2+62-9+15-3+3-2+5-+25-+27-5+2-4+4-27+2-860+-28+80-20288+7-12+5-1033+26-6+26-1189+80" ++
    "-96+36-4+36-116+11-+15-+7-+2-+11-+15-+7-+2-1731+51-13+51-2989+64-21856+64-31360+68")),
   ("changeswhenlowercased", decodeRuns (
    "-65+26-101+23-+7-33+-+-+-+-+-+-+-+-+-+-+-+-+-+-+-+-+-+-+-+-+-+-+-+-+-+-+-+-2+-+-+-+-" ++
    "+-+-+-+-2+-+-+-+-+-+-+-+-+-+-+-+-+-+-+-+-+-+-+-+-+-+-+-+2-+-+-3+2-+-+2-+3-2+4-+2-+3" ++
    "-3+2-+2-+-+-+2-+-2+-+2-+3-+-+2-3+-7+2-+2-+2-+-+-+-+-+-+-+-+-2+-+-+-+-+-+-+-+-+-2+2-+" ++
    "-+3-+-+-+-+-+-+-+-+-+-+-+-+-+-+-+-+-+-+-+-+-+-+-+-+-+-+-+-+-+-7+2-+2-2+-+4-+-+-+-+" ++
    "-289+-+-3+-8+-6+-+3-+-+2-+17-+9-35+-8+-+-+-+-+-+-+-+-+-+-+-+-5+-2+-+2-2+51-48+-+-+-+" ++
    "-+-+-+-+-+-+-+-+-+-+-+-+-+-9+-+-+-+-+-+-+-+-+-+-+-+-+-+-+-+-+-+-+-+-+-+-+-+-+-+-+-+2" ++
    "-+-+-+-+-+-+-2+-+-+-+-+-+-+-+-+-+-+-+-+-+-+-+-+-+-+-+-+-+-+-+-+-+-+-+-+-+-+-+-+-+-+-" ++
    "+-+-+-+-+-+-+-+-+-+-+-+-+-2+38-2889+38-+-5+-722+86-2202+43-2+3-320+-+-+-+-+-+-+-+-+-" ++
    "+-+-+-+-+-+-+-+-+-+-+-+-+-+-+-+-+-+-+-+-+-+-+-+-+-+-+-+-+-+-+-+-+-+-+-+-+-+-+-+-+-+-" ++
    "+-+-+-+-+-+-+-+-+-+-+-+-+-+-+-+-+-+-+-+-+-+-+-+-9+-+-+-+-+-+-+-+-+-+-+-+-+-+-+-+-+-+" ++
    "-+-+-+-+-+-+-+-+-+-+-+-+-+-+-+-+-+-+-+-+-+-+-+-+-+-+-+-+-+-+-+-9+8-8+6-10+8-8+8-8+6" ++
    "-11+-+-+-+-8+8-24+8-8+8-8+8-8+5-11+5-11+4-12+5-11+5-297+-3+2-6+-45+16-19+-818+26" ++
    "-1840+48-48+-+3-2+-+-+-+4-+-2+-8+3-+-+-+-+-+-+-+-+-+-+-+-+-+-+-+-+-+-+-+-+-+-+-+-+-+" ++
    "-+-+-+-+-+-+-+-+-+-+-+-+-+-+-+-+-+-+-+-+-+-+-+-+-8+-+-4+-31053+-+-+-+-+-+-+-+-+-+-+-" ++
    "+-+-+-+-+-+-+-+-+-+-+-+-19+-+-+-+-+-+-+-+-+-+-+-+-+-+-135+-+-+-+-+-+-+-3+-+-+-+-+-+-" ++
    "+-+-+-+-+-+-+-+-+-+-+-+-+-+-+-+-+-+-+-+-+-+-+-+-+-10+-+-+2-+-+-+-+-4+-+-2+-+-3+-+-+-" ++
    "+-+-+-+-+-+-+-+5-+5-+-+-+-+-+-+-+-+4-+-6+-5+-+-28+-22315+26-1221+40-136+36-156+11-" ++
    "+15-+7-+2-1770+51-3053+32-21888+32-31392+34")),
   ("changeswhentitlecased", decodeRuns (
    "-97+26-58+-41+24-+8-+-+-+-+-+-+-+-+-+-+-+-+-+-+-+-+-+-+-+-+-+-+-+-+-+-+-+-+-2+-+-+-+" ++
    "-+-+-+-+2-+-+-+-+-+-+-+-+-+-+-+-+-+-+-+-+-+-+-+-+-+-+-+-2+-+-+3-2+-+-2+-3+-5+-2+-3+2" ++
    "-3+-2+-+-+-2+-4+-2+-3+-+-2+-3+-+-4+-+2-+2-+-+-+-+-+-+-+-+-+2-+-+-+-+-+-+-+-+-+3-+-+" ++
    "-3+-+-+-+-+-+-+-+-+-+-+-+-+-+-+-+-+-+-+-+-3+-+-+-+-+-+-+-+-+-8+-2+2-+-4+-+-+-+-+6-+2" ++
    "-+-+2-3+2-+-+2-+5-2+-+2-2+-7+-2+-+2-3+6-5+-10+2-166+-43+-+-3+-3+3-18+-27+35-+2-3+3-+" ++
    "-+-+-+-+-+-+-+-+-+-+-+5-+-2+-2+-52+48-+-+-+-+-+-+-+-+-+-+-+-+-+-+-+-+-+-9+-+-+-+-+-+" ++
    "-+-+-+-+-+-+-+-+-+-+-+-+-+-+-+-+-+-+-+-+-+-2+-+-+-+-+-+-+2-+-+-+-+-+-+-+-+-+-+-+-+-+" ++
    "-+-+-+-+-+-+-+-+-+-+-+-+-+-+-+-+-+-+-+-+-+-+-+-+-+-+-+-+-+-+-+-+-+-+-+-49+39-3696+6" ++
    "-2178+9-240+-3+-16+-114+-+-+-+-+-+-+-+-+-+-+-+-+-+-+-+-+-+-+-+-+-+-+-+-+-+-+-+-+-+-+" ++
    "-+-+-+-+-+-+-+-+-+-+-+-+-+-+-+-+-+-+-+-+-+-+-+-+-+-+-+-+-+-+-+-+-+-+-+-+-+-+-+-+-+-+" ++
    "-+-+7-5+-+-+-+-+-+-+-+-+-+-+-+-+-+-+-+-+-+-+-+-+-+-+-+-+-+-+-+-+-+-+-+-+-+-+-+-+-+-+" ++
    "-+-+-+-+-+-+-+-+-+9-8+6-10+8-8+8-8+6-10+8-8+8-8+14-2+8-8+8-8+8-8+5-+2-6+-3+3-+2-8+4" ++
    "-2+2-8+8-10+3-+2-342+-33+16-4+-843+26-1862+48-+-3+2-+-+-+-6+-2+-10+-+-+-+-+-+-+-+-+-" ++
    "+-+-+-+-+-+-+-+-+-+-+-+-+-+-+-+-+-+-+-+-+-+-+-+-+-+-+-+-+-+-+-+-+-+-+-+-+-+-+-+-+-8+" ++
    "-+-4+-12+38-+-5+-30995+-+-+-+-+-+-+-+-+-+-+-+-+-+-+-+-+-+-+-+-+-+-+-19+-+-+-+-+-+-+-" ++
    "+-+-+-+-+-+-+-135+-+-+-+-+-+-+-3+-+-+-+-+-+-+-+-+-+-+-+-+-+-+-+-+-+-+-+-+-+-+-+-+-+-" ++
    "+-+-+-+-+-10+-+-2+-+-+-+-+-4+-4+-+2-2+-+-+-+-+-+-+-+-+-+-11+-+-+-+-+-+-+-+-4+-+-6+-5" ++
    "+-+-28+-860+-28+80-20288+7-12+5-1065+26-1229+40-136+36-155+11-+15-+7-+2-1795+51-3021" ++
    "+32-21888+32-31394+34")),
   ("changeswhenuppercased", decodeRuns (
    "-97+26-58+-41+24-+8-+-+-+-+-+-+-+-+-+-+-+-+-+-+-+-+-+-+-+-+-+-+-+-+-+-+-+-+-2+-+-+-+" ++
    "-+-+-+-+2-+-+-+-+-+-+-+-+-+-+-+-+-+-+-+-+-+-+-+-+-+-+-+-2+-+-+3-2+-+-2+-3+-5+-2+-3+2" ++
    "-3+-2+-+-+-2+-4+-2+-3+-+-2+-3+-+-5+2-+2-+2-+-+-+-+-+-+-+-+2-+-+-+-+-+-+-+-+-+2-+2-+" ++
    "-3+-+-+-+-+-+-+-+-+-+-+-+-+-+-+-+-+-+-+-+-3+-+-+-+-+-+-+-+-+-8+-2+2-+-4+-+-+-+-+6-+2" ++
    "-+-+2-3+2-+-+2-+5-2+-+2-2+-7+-2+-+2-3+6-5+-10+2-166+-43+-+-3+-3+3-18+-27+35-+2-3+3-+" ++
    "-+-+-+-+-+-+-+-+-+-+-+5-+-2+-2+-52+48-+-+-+-+-+-+-+-+-+-+-+-+-+-+-+-+-+-9+-+-+-+-+-+" ++
    "-+-+-+-+-+-+-+-+-+-+-+-+-+-+-+-+-+-+-+-+-+-2+-+-+-+-+-+-+2-+-+-+-+-+-+-+-+-+-+-+-+-+" ++
    "-+-+-+-+-+-+-+-+-+-+-+-+-+-+-+-+-+-+-+-+-+-+-+-+-+-+-+-+-+-+-+-+-+-+-+-49+39-2888+43" ++
    "-2+3-760+6-2178+9-240+-3+-16+-114+-+-+-+-+-+-+-+-+-+-+-+-+-+-+-+-+-+-+-+-+-+-+-+-+-+" ++
    "-+-+-+-+-+-+-+-+-+-+-+-+-+-+-+-+-+-+-+-+-+-+-+-+-+-+-+-+-+-+-+-+-+-+-+-+-+-+-+-+-+-+" ++
    "-+-+-+-+-+-+-+7-5+-+-+-+-+-+-+-+-+-+-+-+-+-+-+-+-+-+-+-+-+-+-+-+-+-+-+-+-+-+-+-+-+-+" ++
    "-+-+-+-+-+-+-+-+-+-+-+-+-+-+9-8+6-10+8-8+8-8+6-10+8-8+8-8+14-2+53-+2-4+-+-3+3-+2-4+" ++
    "-3+4-2+2-8+8-10+3-+2-4+-337+-33+16-4+-843+26-1862+48-+-3+2-+-+-+-6+-2+-10+-+-+-+-+-+" ++
    "-+-+-+-+-+-+-+-+-+-+-+-+-+-+-+-+-+-+-+-+-+-+-+-+-+-+-+-+-+-+-+-+-+-+-+-+-+-+-+-+-+-+" ++
    "-+-+-8+-+-4+-12+38-+-5+-30995+-+-+-+-+-+-+-+-+-+-+-+-+-+-+-+-+-+-+-+-+-+-+-19+-+-+-+" ++
    "-+-+-+-+-+-+-+-+-+-+-135+-+-+-+-+-+-+-3+-+-+-+-+-+-+-+-+-+-+-+-+-+-+-+-+-+-+-+-+-+-+" ++
    "-+-+-+-+-+-+-+-+-10+-+-2+-+-+-+-+-4+-4+-+2-2+-+-+-+-+-+-+-+-+-+-11+-+-+-+-+-+-+-+-4+" ++
    "-+-6+-5+-+-28+-860+-28+80-20288+7-12+5-1065+26-1229+40-136+36-155+11-+15-+7-+2-1795" ++
    "+51-3021+32-21888+32-31394+34")),
   ("dash", decodeRuns (
    "-45+-1372+-51+-3649+-1029+-2057+6-61+-39+-15+-390+-3076+-2+-31+2-4+-28+-446+-19+-111" ++
    "+-52624+2-37+-10+-169+-3999+")),
   ("defaultignorablecodepoint", decodeRuns (
    "-173+-673+-716+-2882+2-1619+2-85+5-2043+5-26+5-49+16-4340+-52379+16-239+-160+-79+9" ++
    "-48295+4-5327+8-798341+4096")),
   ("deprecated", decodeRuns (
    "-329+-1321+-2307+-+-2089+2-2245+6-697+2-908502+")),
   ("diacritic", decodeRuns (
    "-94+-+-71+-6+-4+-2+2-503+159-+8-5+6-17+2-4+-9+2-253+5-209+-55+17-+27-+-+2-+-134+8-4" ++
    "+2-134+2-4+2-3+3-67+27-91+11-58+11-34+2-126+8-41+10-16+28-61+-16+-3+4-28+-74+-16+" ++
    "-110+-16+-110+-16+-47+3-60+-16+-7+-119+-110+-16+-110+-16+-109+2-16+-124+-124+6-+-107" ++
    "+-13+5-75+2-27+-+-+-4+2-66+3-+2-62+-112+-+2-40+2-4+5-25+7-+-10+2-705+3-948+2-179+11" ++
    "-9+-347+3-313+8-2+-48+15-2+11-104+-15+-38+9-54+2-138+2-64+6-82+25-4+-6+-2+3-50+63-89" ++
    "+12-37+11-445+-+3-11+3-13+3-13+3-13+2-3312+3-317+-506+6-105+4-95+-30066+-12+2-+-28+2" ++
    "-82+2-14+34-102+3-109+2-202+-27+18-57+4-36+-95+-12+-36+-149+3-65+4-51+-100+5-9+3-128" ++
    "+2-20272+-769+16-270+-+-47+-45+2-67+-764+-1183+6-+42-+9-810+2-571+6-469+3-70+11-49+4" ++
    "-192+-41+-72+2-120+2-62+-76+-9+3-104+2-178+2-81+-16+-24+7-3+5-205+-3+-123+2-251+2" ++
    "-126+-118+2-115+-269+2-258+2-4+-156+-83+-18+-81+-421+-258+-+2-81+-5807+15-13978+5-59" ++
    "+7-1112+17-80+2-16382+4-+7-+2-7937+46-2+23-544+3-3+6-8+8-2+7-30+4-3714+62-194+7-375+" ++
    "-61+4-1504+7-109+3-+3")),
   ("emoji", decodeRuns (
    "-35+-6+-5+10-111+-4+-8077+-12+-216+-22+-90+6-15+2-367+2-12+-166+-25+11-4+3-199+-231" ++
    "+2-10+-9+-58+4-+5-9+-2+-2+2-2+-4+-2+-+2-2+-3+-3+2-8+3-5+-+-5+12-11+2-2+-+2-+-18+-2+2" ++
    "-18+6-+-+2-3+2-5+-2+2-4+2-11+2-5+2-2+-5+2-+-+2-20+2-5+6-+4-2+-4+-2+-2+6-+-2+-+-+-6+" ++
    "-3+-6+-10+2-15+-2+-4+-+-4+3-+-11+2-48+3-9+-14+-14+-372+2-463+3-19+2-51+-4+-1242+-12+" ++
    "-601+-+-114026+-202+-160+2-12+2-14+-2+10-75+26-+2-23+-20+-2+9-21+2-174+34-2+112-2+2-" ++
    "+3-2+83-2+3-+263-+63-11+6-+24-7+2-2+8-12+-2+4-2+-4+2-13+2-2+-8+2-9+-5+3-12+3-8+3-2+-" ++
    "+-4+-6+-3+-6+86-48+70-5+8-2+3-4+10-3+-+2-3+-2+10-227+12-4+-283+47-+10-+185-112+13-3" ++
    "+9-7+46-+7-8+14-4+9-7+9")),
   ("emojicomponent", decodeRuns (
    "-35+-6+-5+10-8147+-213+-56619+-62422+26-507+5-1456+4-788076+96")),
   ("emojimodifier", decodeRuns (
    "-127995+5")),
   ("emojimodifierbase", decodeRuns (
    "-9757+-219+-16+4-117879+-60+3-2+-2+3-117+2-2+11-21+19-3+-4+3-+3-7+-+-24+-201+2-4+-21" ++
    "+-4+2-174+3-3+5-83+-16+3-9+-11+-575+-2+-8+8-6+-9+10-2+3-56+-61+2-+2-+-17+3-+13-229+3" ++
    "-42+9")),
   ("emojipresentation", decodeRuns (
    "-8986+2-205+4-3+-2+-521+2-21+2-50+12-43+-19+-13+-8+2-17+2-5+2-8+-5+-21+-7+2-+-4+-2+" ++
    "-7+-4+2-28+-35+-+-4+3-+-61+3-24+-14+-859+2-51+-4+-115886+-202+-190+-2+10-75+26-+-24+" ++
    "-20+-2+5-+3-21+2-174+33-12+9-+70-+22-12+43-4+5-12+17-3+-3+71-+-+187-2+63-13+4-+24-18" ++
    "+-26+2-13+-86+85-48+70-6+-3+3-2+3-4+4-11+2-7+9-227+12-4+-283+47-+10-+185-112+13-3+9" ++
    "-7+46-+7-8+14-4+9-7+9")),
   ("extendedpictographic", decodeRuns (
    "-169+-4+-8077+-12+-216+-22+-90+6-15+2-367+2-12+-95+-70+-25+11-4+3-199+-231+2-10+-9+" ++
    "-58+4-+6-+12-+114-10+118-2+11-+-+-6+-3+-6+-10+2-15+-2+-4+-+-4+3-+-11+5-45+3-9+-14+" ++
    "-14+-372+2-463+3-19+2-51+-4+-1242+-12+-601+-+-114022+256-13+3-31+-60+6-12+2-14+-2+10" ++
    "-18+57-27+15-10+-20+-2+9-+4-9+434-5+318-8+266-48+128-116+12-85+43-12+4-56+8-10+6-40" ++
    "+8-30+82-12+47-+10-+441-256+1022")),
   ("extender", decodeRuns (
    "-183+-536+2-878+-441+-858+-752+-127+-2371+-56+-611+-398+-68+-5001+-43+5-103+2-93+3" ++
    "-28438+-1526+-962+-22+-137+-108+-21+2-21627+-2064+2-3034+-616+3-1231+-20649+2-1180+2" ++
    "-+-29016+2-2054+3")),
   ("hexdigit", decodeRuns (
    "-48+10-7+6-26+6-65193+10-7+6-26+6")),
   ("idsbinaryoperator", decodeRuns (
    "-12272+2-2+8")),
   ("idstrinaryoperator", decodeRuns (
    "-12274+2")),
   ("ideographic", decodeRuns (
    "-12294+2-25+9-14+3-965+6592-64+20992-22784+366-2+106-29962+-27+6136-8+1238-42+9-9319" ++
    "+396-19716+42720-32+4154-6+222-2+5762-14+7473-3103+542-1506+4939-5+4192")),
   ("joincontrol", decodeRuns (
    "-8204+2")),
   ("logicalorderexception", decodeRuns (
    "-3648+5-123+5-2800+3-2+-37114+2-2+-+2")),
   ("math", decodeRuns (
    "-43+-16+3-31+-29+-+-45+-4+-37+-31+-728+3-2+-26+2-2+3-527+3-6669+-27+3-11+-3+-13+-14" ++
    "+4-21+5-11+5-65+13-4+-3+2-4+5-18+-4+-2+10-+-2+6-6+-3+2-2+2-+3-+6-3+14-+-68+24-+6-+2" ++
    "-4+2-4+32-+-6+2-14+268-8+4-20+2-90+-30+27-+-24+-11+7-445+2-12+10-4+6-4+2-2+2-3+5-14+" ++
    "-+-2+6-11+8-5+2-57+-+-29+4-9+3-336+64-256+512-48+21-2+6-53212+-823+6-+-162+-16+3-29+" ++
    "-+-29+-+-131+-6+4-54291+85-+71-+2-2+-2+2-2+4-+12-+-+7-+65-+4-2+8-+7-+28-+4-+5-+-3+7-" ++
    "+340-2+292-2+50-5632+4-+27-+2-+-2+-+10-+4-+-+-6+-4+-+-+-+3-+2-+-2+-+-+-+-+-+2-+-2+4-" ++
    "+7-+4-+4-+-+10-+17-5+3-+5-+17-52+2")),
   ("noncharactercodepoint", decodeRuns (
    "-64976+32-526+2-65534+2-65534+2-65534+2-65534+2-65534+2-65534+2-65534+2-65534+2" ++
    "-65534+2-65534+2-65534+2-65534+2-65534+2-65534+2-65534+2-65534+2")),
   ("patternsyntax", decodeRuns (
    "-33+15-10+7-26+4-+-26+4-34+7-+-+2-+-+2-4+-4+-3+-23+-31+-7960+24-8+15-2+19-+10-305" ++
    "+720-160+630-30+1132-512+128-385+3-4+25-15+-52493+2-261+2")),
   ("patternwhitespace", decodeRuns (
    "-9+5-18+-100+-8072+2-24+2")),
   ("prependedconcatenationmark", decodeRuns (
    "-1536+6-215+-49+-384+2-80+-67546+-15+")),
   ("quotationmark", decodeRuns (
    "-34+-4+-131+-15+-8028+8-25+2-3591+-457+4-13+3-52769+4-189+-4+-90+2")),
   ("radical", decodeRuns (
    "-11904+26-+89-12+214")),
   ("regionalindicator", decodeRuns (
    "-127462+26")),
   ("sentenceterminal", decodeRuns (
    "-33+-12+-16+-1353+-147+3-180+-43+3-246+-61+-+-3+2-293+2-1764+2-790+-4+2-773+-198+2" ++
    "-204+-5+-314+2-354+4-174+2-2+2-29+2-188+2-65+2-956+2-9+3-3556+-13+-22+2-429+-29948+" ++
    "-270+2-227+-3+-382+2-86+2-95+-152+2-147+3-144+2-249+-21094+-3+2-169+-12+-16+-65+" ++
    "-2804+2-1277+5-44+4-189+2-117+4-127+3-129+2-6+-16+2-88+2-+2-108+-417+2-373+2-5+15" ++
    "-105+2-249+3-517+-+-251+2-87+2-420+2-692+2-74+2-19241+2-133+-65+2-11+-851+-19974+" ++
    "-7656+")),
   ("softdotted", decodeRuns (
    "-105+2-196+-281+-30+-52+-20+-320+-98+-+-6409+-51+-13+-3+-132+-157+-421+-214+2-2866+" ++
    "-108453+2-50+2-50+2-50+2-50+2-50+2-50+2-50+2-50+2-50+2-50+2-50+2-50+2-2182+-305+2-26" ++
    "+")),
   ("terminalpunctuation", decodeRuns (
    "-33+-10+-+-11+2-3+-830+-8+-513+-57+-72+-14+-+3-180+-43+11-+-235+2-54+15-31+-261+2" ++
    "-1268+2-172+-4+6-311+2-789+8-773+-124+3-71+2-157+3-3+-39+4-2+2-314+2-354+4-174+2-+3" ++
    "-29+2-188+5-62+2-956+2-9+3-3556+-13+-4+-10+-+2-3+2-428+2-29947+2-269+3-227+5-382+2" ++
    "-86+2-95+-151+3-147+3-127+-16+2-249+-21092+3-+4-169+-10+-+-11+2-3+-65+-2+-1082+-48+" ++
    "-1158+-199+-310+2-152+6-68+6-89+4-952+5-44+4-189+7-112+4-127+3-129+2-6+-16+2-88+5" ++
    "-108+-417+3-12+2-358+4-3+15-105+2-249+3-517+-+-251+2-87+2-4+2-414+3-45+-645+2-74+2" ++
    "-1323+5-17913+2-133+-65+3-10+-850+2-19974+-7655+4")),
   ("unifiedideograph", decodeRuns (
    "-13312+6592-64+20992-23054+2-+-+2-10+-+-+2-2+3-67030+42720-32+4154-6+222-2+5762-14" ++
    "+7473-5151+4939-5+4192")),
   ("variationselector", decodeRuns (
    "-6155+3-+-58864+16-852720+240"))]

/-- Whether a character has a listed property. -/
def hasListed (property : String) (c : Char) : Bool :=
  (listedProperties.lookup property).any fun runs => markAt runs c.toNat == some '+'

/-- The listed properties by all their names, in small letters without
    blanks. -/
def listedNames : List (String × String) :=
  [("asciihexdigit", "asciihexdigit"), ("ahex", "asciihexdigit"),
   ("bidicontrol", "bidicontrol"), ("bidic", "bidicontrol"), ("bidimirrored", "bidimirrored"),
   ("bidim", "bidimirrored"), ("changeswhencasefolded", "changeswhencasefolded"),
   ("cwcf", "changeswhencasefolded"), ("changeswhencasemapped", "changeswhencasemapped"),
   ("cwcm", "changeswhencasemapped"), ("changeswhenlowercased", "changeswhenlowercased"),
   ("cwl", "changeswhenlowercased"), ("changeswhentitlecased", "changeswhentitlecased"),
   ("cwt", "changeswhentitlecased"), ("changeswhenuppercased", "changeswhenuppercased"),
   ("cwu", "changeswhenuppercased"), ("dash", "dash"),
   ("defaultignorablecodepoint", "defaultignorablecodepoint"),
   ("di", "defaultignorablecodepoint"), ("deprecated", "deprecated"), ("dep", "deprecated"),
   ("diacritic", "diacritic"), ("dia", "diacritic"), ("emoji", "emoji"),
   ("emojicomponent", "emojicomponent"), ("ecomp", "emojicomponent"),
   ("emojimodifier", "emojimodifier"), ("emod", "emojimodifier"),
   ("emojimodifierbase", "emojimodifierbase"), ("ebase", "emojimodifierbase"),
   ("emojipresentation", "emojipresentation"), ("epres", "emojipresentation"),
   ("extendedpictographic", "extendedpictographic"), ("extpict", "extendedpictographic"),
   ("extender", "extender"), ("ext", "extender"), ("hexdigit", "hexdigit"), ("hex", "hexdigit"),
   ("idsbinaryoperator", "idsbinaryoperator"), ("idsb", "idsbinaryoperator"),
   ("idstrinaryoperator", "idstrinaryoperator"), ("idst", "idstrinaryoperator"),
   ("ideographic", "ideographic"), ("ideo", "ideographic"), ("joincontrol", "joincontrol"),
   ("joinc", "joincontrol"), ("logicalorderexception", "logicalorderexception"),
   ("loe", "logicalorderexception"), ("math", "math"),
   ("noncharactercodepoint", "noncharactercodepoint"), ("nchar", "noncharactercodepoint"),
   ("patternsyntax", "patternsyntax"), ("patsyn", "patternsyntax"),
   ("patternwhitespace", "patternwhitespace"), ("patws", "patternwhitespace"),
   ("prependedconcatenationmark", "prependedconcatenationmark"),
   ("pcm", "prependedconcatenationmark"), ("quotationmark", "quotationmark"),
   ("qmark", "quotationmark"), ("radical", "radical"),
   ("regionalindicator", "regionalindicator"), ("ri", "regionalindicator"),
   ("sentenceterminal", "sentenceterminal"), ("sterm", "sentenceterminal"),
   ("softdotted", "softdotted"), ("sd", "softdotted"),
   ("terminalpunctuation", "terminalpunctuation"), ("term", "terminalpunctuation"),
   ("unifiedideograph", "unifiedideograph"), ("uideo", "unifiedideograph"),
   ("variationselector", "variationselector"), ("vs", "variationselector")]

end SchemaRename.Text
