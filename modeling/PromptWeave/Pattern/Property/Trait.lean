import PromptWeave.Pattern.Property.Category

/-!
# Traits

The properties that a character has or has not, by the tables of Unicode 16. A trait that the
standard derives from others is derived here, too.
-/
namespace PromptWeave.Pattern.Property

open PromptWeave.Text

/-- The ASCII characters of hexadecimal numbers. -/
def asciiHexDigit : CharSet := .ofSteps ["BwkhgBag"]

/-- Characters that steer the direction of writing. -/
def bidiControl : CharSet := .ofSteps ["CIebJVlcBafCde"]

/-- Characters that are mirrored from right to left. -/
def bidiMirrored : CharSet := .ofSteps [
  "BocsbbbBcbbbBdbbbBtbpbFMseCUncDQqckcCccocGvbHkedgdbdcdebebbbbejfbbsfejcbbbibBgcefbjcctfcjfc",
  "ceycqieuchcBPtoCwbcebcbdfefddoPnwcgboibhgdbefbccfebbdcckgccmtbecbbbcbbefcgdyclceebccceBrcib",
  "BofbbbdffdebdfbbJwbTvedcbcocckBriQlkciDACrgfcGgcsbbbBcbbbBdbbbbcbcDDPnbCfbCfbCfbCfb"]

/-- Dashes. -/
def dash : CharSet := .ofSteps [
  "BtbCAubBzbFKjbBNpbDBdgCjbBnbpbPabEOibcbBfcebBcbRebtbEhbCZWacBlbkbGnbFLobMgb"]

/-- Characters that should no longer be used. -/
def deprecated : CharSet := .ofSteps ["MrbBYvbDKtbbbDCjcDIjgBAvcBZRYkb"]

/-- Characters that change the value of another. -/
def diacritic : CharSet := .ofSteps [
  "DqbbbCtbgbebccTjGdbifgrcebjcJtfIbbCdrbBbbbbcbbFeiecFececddCpBbDnlCglBicEwiBpkqBcCjbqbdeBcb",
  "CwbqbEgbqbEgbqbBvdCibqbhbEpbEgbqbEgbqbEfcqbEubEhbmgbbEdbnfCxcBbbbbbbecCodbcCkbEibbcBocefzhb",
  "bkcBBddBKmcBebFsljbNjdLgbuicbBwpclEabpbBmjCccCgblcCocCmgDezebgbcdByClDlmBllRdbbdldndndncEXk",
  "dMfbTmgEbeDrbBSMkbmcbbBccDecoBiDydEfcmbBlbFvbBbsCfeBkbDrbmbBkbFtdCneBzbDwfjdEycBDZsbBDpqKkb",
  "bbBvbBtcCpbBDkbBTngbBqbjYndebGjcVzgBmbBafPjdCslBxeHkbBpbCucEqcCkbCybjdEacGwcDccqbyhdfDldbcn",
  "cDrbdbEtcJrcEwbEocElbKjcJycebGabDfbsbDdbQfbJybbcDdbQjcxbHYapQZpbDSafChhVscVarDccYGcebhbcLTh",
  "BucxUyddgiichBeeFMwCkHmhOlbCjeBDmcBCihEfdbd"]

/-- Emoji. -/
def emoji : CharSet := .ofSteps [
  "BjbgbfkEhbebLYrbmbIibwbDmgpcOdcmbGkbzledHrbIxckbjbCgebfjbcbcccbebcbbccbdbdcidfbbbfmlccbbcbb",
  "sbccsgbbbcdcfbcceclcfccbfcbbbcucfgbecbebcbcgbbcbbbbbgbdbgbkcpbcbebbbedbblcBwdjbobobOicRvdtc",
  "BzbebBVubmbXdbbbGMRqbHubGecmcobckCxBabcxbubcjvcGsBicEiccbdcDfcdbKdbCllgbyhccimbcecbecnccbic",
  "jbfdmdidcbbbebgbdbgDiBwCsficdekdbbcdbckItmebKxBvbkbHdEindkfCehpclgj"]

/-- Parts of emoji. -/
def emojiComponent : CharSet := .ofSteps ["BjbgbfkMBjbIfbDFTrbDOIwBaTnfCEaeBSVUqDs"]

/-- Modifiers of emoji. -/
def emojiModifier : CharSet := .ofSteps ["HHIxf"]

/-- Emoji that can be modified. -/
def emojiModifierBase : CharSet := .ofSteps [
  "OLhbIlbqeGSJvbCidcbcdEncclvtdbedbdhbbbybHtcebvbecGsddfDfbqdjblbWdbcbiigbjkcdCebCjcbcbbrdbn",
  "IvdBqj"]

/-- Characters that are shown as emoji. -/
def emojiPresentation : CharSet := .ofSteps [
  "NHqcHxedbcbUbcvcBymBrbtbnbicrcfcibfbvbhcbbebcbhbecBcbBjbbbedbbCjdybobBHbcBzbebGPLebHubHibck",
  "CxBabbybubcfbdvcGsBhmjbCsbwmBrefmrdbdCtbbbHfcClnebysbBacnbDiDhBwCsgbddcdeelchjItmebKxBvbkb",
  "HdEindkfCehpclgj"]

/-- Pictures, and code points kept for them. -/
def extendedPictographic : CharSet := .ofSteps [
  "GnbebLYrbmbIibwbDmgpcOdcmbDrbCsbzledHrbIxckbjbCgebgbmbEkkEoclbbbbgbdbgbkcpbcbebbbedbblfBtdj",
  "bobobOicRvdtcBzbebBVubmbXdbbbGMRmJwndBfbCigmcobcksCfBbpkbubcjbejQsfMgiKgBwEyEmmDhBrmeCeikg",
  "BoiBeDemBvbkbQzJwBNi"]

/-- Characters that lengthen another. -/
def extender : CharSet := .ofSteps [
  "HbbUqcBHubQzbYgbFhbDlbBCybExbDNfbCebXnbPibCqbHKjbBrfDzcDpdBQBubCGsbBLabwbFhbEebvcBFZvbDBkc",
  "CFbbBbbebBVbbLhbEmcTedBVjbBEOfcBTkcbbBQYacBUfbBGud"]

/-- Characters that link letters. -/
def graphemeLink : CharSet := .ofSteps [
  "DNpbExbExbExbExbExbExbExbEfcqbEubEhbExbHtbGycCPlcBebGbbZdbItbDxcCscGQtbBUKkbBlbFvbFmbEebLxb",
  "JmbBJSrbCHibBpbobCfbErcFjbEmbGybDubEydEjbExbJsbExbEobEmbKjbJzcGfbDfbsbDdbQfbKacDdbQjcYZcb"]

/-- The characters of hexadecimal numbers. -/
def hexDigit : CharSet := .ofSteps ["BwkhgBagDSLlkhgBag"]

/-- Hyphens. -/
def hyphen : CharSet := .ofSteps ["BtbExbBVwbGZzbDBdcFIbbBClbCZUlbGnbDjb"]

/-- Signs of mathematics that may follow in a name. -/
def compatMathContinue : CharSet := .ofSteps ["GwcfbMAgbdlbpOhbebwbGJJebzbBfbzbBfbzbBfbzbBfbzb"]

/-- Signs of mathematics that may begin a name. -/
def compatMathStart : CharSet := .ofSteps ["MWwbebwbGJJebzbBfbzbBfbzbBfbzbBfbzb"]

/-- Ideographs. -/
def ideographic : CharSet := .ofSteps [
  "SEwczjodBLdJToCmBFBkBHSiOccEcBSIkbBbJCaiBVqBpkNUlPgBDEiCLFcBgGDugIocINqoLBlpXyDQwUwCFyHHzf",
  "GFg"]

/-- Operators that describe an ideograph by two others. -/
def binaryDescription : CharSet := .ofSteps ["SEacckTdb"]

/-- Operators that describe an ideograph by three others. -/
def trinaryDescription : CharSet := .ofSteps ["SEcc"]

/-- Operators that describe an ideograph by another. -/
def unaryDescription : CharSet := .ofSteps ["SEoc"]

/-- Characters that join letters or keep them apart. -/
def joinControl : CharSet := .ofSteps ["MDoc"]

/-- Vowels that are written before the consonant they follow. -/
def logicalOrderException : CharSet := .ofSteps ["FKifEtfEDsdcbCCXmccbbc"]

/-- Marks that count as part of a letter. -/
def combiningModifier : CharSet := .ofSteps ["CKiccbFbbgbdcSncbddbBfb"]

/-- What is alphabetic besides letters. -/
def otherAlphabetic : CharSet := .ofSteps [
  "BGfbBdnWeobbbcbcbbCulBwnbhqbDxheeccebBjbBeqDylDxcdjbdbeEcbCimdhguCcccpbcfdkcBddCghcccckbkc",
  "BddCgfecccebBecdbldCgibdbcvcwdedCghccccjckcBebChfddbdkbBofCfhbdbdiclcBddCghbdbdiclcpbmeCghb",
  "dbdkbkcBddCxgbbbiscCjbchsbDvbcgbcqbGhtjlbBkEgmbbcexeedbdchdenmbbkeCLocBecBecBecCotHgcBibEom",
  "ejIofCfkcuCwcldBxfBwpCidBejccCflBytPwBiCOnCaDKgBgBTQaiBicNqbibxfDkcByqbbCfbBmfBcmBteBwmBlb",
  "CpombicBtdBybbdccfbBsffbJdiBDZvbDEdfCMgdbcfeBEieCnbMjcDbbJzdCboBtcldBtjjbCjdBkmscCfdBwnocDo",
  "jcbgbcbGbkxeCghcccckbkcDgjbbcbbebcDznbdEcsJdhchBdcDepbbEclDzoJxnJngbcccdbbbFmhcgebBckBqfbes",
  "lBuoPribhDfwboEsgdbbcbdbbdbCofbcbeNkejcbbBwhddYYnrFJcbbCdheDpcBDAybNKjhbrchbcbfDwbDHvbCZwBa",
  "gBagBa"]

/-- What is not shown besides controls. -/
def otherIgnorable : CharSet := .ofSteps ["BGpbFIlcCKhcDHnbGLibDACpbDbjBWMIhbbBeDsEyJgFIm"]

/-- What extends a character besides marks. -/
def otherGraphemeExtend : CharSet := .ofSteps [
  "DRybybNubybDybybIybbbecbcjcDzbybEpbpbDMrbBebBNkbfbbbfcDxbCtcBOibGCvcBTWtbEebBGNlcGWmbEmbKeb",
  "objbDsbjbcbbdfbIqbmbJhbKcbYjbmbCHfbBEOkcBKXncggBTLAzDs"]

/-- What may follow in a name besides letters. -/
def otherNameContinue : CharSet := .ofSteps ["HbbBBrbGAjjCLcbCIzcGKrbDAEjb"]

/-- What may begin a name besides letters. -/
def otherNameStart : CharSet := .ofSteps ["JHlcDGjbvbFVwc"]

/-- What is in small letters besides letters. -/
def otherLowercase : CharSet := .ofSteps [
  "GobpbThjhcBefDsbCabFCzbEPzClnbBiBlBAnbnbqnIdqBGqBaCWocBUGkcIcbEzddcBHiejbBIWsbcdbBqbjDDZhCk"]

/-- What belongs to mathematics besides its signs. -/
def otherMath : CharSet := .ofSteps [
  "DqbBHxdcbBacccKQybBbdlbBgeycocCnnebdcefsbebckbbdfgbdcccbdbgdeffCxfcebcbcbbbfccecesccbbbhbbg",
  "cLeeGmcbbybrbRdcmjfffcccdfobbbcgycCfbbbBdejcNecBfkPnwCleBgcDCLfbbbebIdbbbDCOvDhbCtbccbccceb",
  "mbbbhbCnbecibhbBcbebfbbdhbNcczbzbBfbzbBfbzbBfbzbBfbzbicByIIqebBbbcbbcbbkbebbbbgbebbbbbbdbcb",
  "bcbbbbbbbbbbcbbcebhbebebbbkbrfdbfbr"]

/-- What is in capitals besides letters. -/
def otherUppercase : CharSet := .ofSteps ["MQqqBGgBaGSIyBagBagBa"]

/-- Signs kept for the grammar of patterns. -/
def patternSigns : CharSet := .ofSteps [
  "BhpkhBaebbBaeBihbbbcbbbcebebdbxbBfbLUeyipctbkLtBBsGeYgBeBRoTsEyOvdezpbCZQzcKbc"]

/-- Blanks in patterns. -/
def patternSpace : CharSet := .ofSteps ["jfsbDwbLYmcyc"]

/-- Marks that stand before what they go with. -/
def prepended : CharSet := .ofSteps ["CHcgIhbBxbOucDcbDVXybpb"]

/-- Quotation marks. -/
def quotationMark : CharSet := .ofSteps ["BibebFbbpbLWuizcFIdbRpendDABpeHhbebDmc"]

/-- Parts of ideographs. -/
def radical : CharSet := .ofSteps ["RPwBabDlmIg"]

/-- Letters of flags. -/
def regionalIndicator : CharSet := .ofSteps ["HGOkBa"]

/-- Letters that lose their dot under a mark. -/
def softDotted : CharSet := .ofSteps [
  "EbcHobKvbBebCabubMibDubbbJMnbBzbnbdbFcbGbbQfbIgcEGgbGELhcBycBycBycBycBycBycBycBycBycBycByc",
  "BycDFybLtcBab"]

/-- Punctuation that ends a sentence. -/
def sentenceTerminal : CharSet := .ofSteps [
  "BhbmbqbCAbbFrdGybBrdJmbCjbbbdcLhcCPwcBEkbecBDtbHqcGbcBtbfbMccNqeGgckcccBddHfcCncBJwbxcjdEUx",
  "dLubnbwcQnbBSHwbKkcItbdbOscDicDrbFwcFrdFocJpbBFCwbccChbdcGnbmbqbCnbEDwcBXdfBseHhcEneExdEzcg",
  "bqcDkcbcEebLmcEncOjcfpEbcJpdTxbbbJrcDjcQecBAqcCwcBCMbcFdbCnclbVhcLkbBDOgbLImb"]

/-- Punctuation that ends a part of a text. -/
def terminalPunctuation : CharSet := .ofSteps [
  "BhbkbbblcdbBFybibTtbCfbCubobbdGybBrlbbJbcCcgbiBfbKbcBWucGqbegLzcBEjiBDtbEudCtcGbddbBneccMcc",
  "NqeGgckcbdBddHffCkcBJwbxcjdEUxdLubnbebkbbcdcQmcBSHvcKjdItfOscDicDrbFvdFrdExbqcJpbBFCwbccCfd",
  "beGnbkbbblcdbCnbcbBPqbBwbBSobHrbLycFwgCqgDleBKqfBseHhhEieExdEzcgbqcDkfEebLmcEndmcNuedpEbcJp",
  "dTxbbbJrcDjcecPydBtbYvcCwcBYxfBAMzcFdbCndkbVhcLjcBDOgbLIle"]

/-- Ideographs of the unified repertoire. -/
def unifiedIdeograph : CharSet :=
  .ofSteps ["TSaJToCmBFBkBICscbbbckbbbbccdDVEcCLFcBgGDugIocINqoLBlpXyGRqHHzfGFg"]

/-- Characters that choose a variant of another. -/
def variationSelector : CharSet := .ofSteps ["JCtdbbDJCaqBWNKyJg"]

/-- Letters, numbers that are letters, and what goes with them in words. -/
def alphabetic : CharSet := .unions [letter, letterNumber, otherAlphabetic]

/-- What is in small letters. -/
def lowercase : CharSet := .union lowercaseLetter otherLowercase

/-- What is in capitals. -/
def uppercase : CharSet := .union uppercaseLetter otherUppercase

/-- What is in small letters, in capitals or in both. -/
def cased : CharSet := .unions [lowercase, uppercase, titlecaseLetter]

/-- Punctuation inside words, which does not end them for case. -/
def innerPunctuation : CharSet :=
  .ofSteps ["BnbgblbEubBBrbSdbFsbJXjckbcbDGBbbCkbcbGvbgblb"]

/-- What is passed over in telling whether a word goes on for case. -/
def caseIgnorable : CharSet :=
  .unions [nonspacingMark, enclosingMark, formatControl, modifierLetter, modifierSymbol,
    innerPunctuation]

/-- What changes in small letters. -/
def changesWhenLowercased : CharSet :=
  .symmDiff (.union uppercase titlecaseLetter) (.ofSteps [
    "BLqdLBhbebddcdcbdfgbdbdcccbbkcfbGIQkBaBaBaBaBaBabbccbcccebiBaBaBacbecibhBbcbebfbbdhBbBaBa",
    "BaBaBaBaBaBaBaBaBaBezBhzBhzBhzBhzBhbJQbBagBagBa"])

/-- What changes in capitals. -/
def changesWhenUppercased : CharSet :=
  .symmDiff (.union lowercase titlecaseLetter) (.ofSteps [
    "GobpbEvbDgbBccobdbDubsgBbbcbbbcdcbebfcbbccbhbcbbcdgfbbbicBahcBefFtbEzbNrbBnbEItbEOhErbdbq",
    "bBxImcbbRxbnbqnEfbdcdbBbbebebccieEFvbcbchDybBUClcFqcCkjvbgbzbBjbbbBcdddBFpBjbhboBIWsbcdb",
    "BqbjCZKhBaBahbsBaBaBaebbbhblBaBaBaBaBaBaBaBaBaBaBaBaBaBaBaBaBaBcBczbgBazbgBazbgBazbgBazbg",
    "bbCSykbuggKbCk"])

/-- What changes at the start of a title. -/
def changesWhenTitlecased : CharSet :=
  .symmDiff changesWhenUppercased (.ofSteps ["RkcbcbcBlcFQjBrcdFNciiiiimbpbBvb"])

/-- What changes by full case folding. -/
def changesWhenCasefolded : CharSet :=
  .symmDiff changesWhenLowercased (.ofSteps [
    "GzbBpbEbbCbbRlbEubncdczcdbPlbFIuDicgDFujUjcIuiiiiikdcbkdcbBqdcbCAVgDcBEAihmf"])

/-- What changes by any change of case. -/
def changesWhenCasemapped : CharSet :=
  .unions [changesWhenLowercased, changesWhenUppercased, changesWhenTitlecased]

/-- What extends the character before it. -/
def graphemeExtend : CharSet := .unions [nonspacingMark, enclosingMark, otherGraphemeExtend]

/-- What begins a character as a reader sees it. -/
def graphemeBase : CharSet :=
  .compl (.unions [otherCategory, lineSeparator, paragraphSeparator, graphemeExtend])

/-- White space. -/
def whiteSpace : CharSet := .unions [separator, .range 0x09 0x0D, .range 0x85 0x85]

/-- What is not shown. -/
def defaultIgnorable : CharSet :=
  .diff (.unions [otherIgnorable, formatControl, variationSelector])
    (.unions [whiteSpace, prepended, .range 0xFFF9 0xFFFB, .range 0x13430 0x13440])

/-- Code points that will never stand for a character. -/
def nonCharacter : CharSet :=
  .unions (.range 0xFDD0 0xFDEF ::
    (List.range 17).map fun plane => .range (plane * 0x10000 + 0xFFFE) (plane * 0x10000 + 0xFFFF))

/-- The signs of mathematics and what goes with them. -/
def mathematical : CharSet := .union mathSymbol otherMath

/-- What may begin a name. -/
def nameStart : CharSet :=
  .diff (.unions [letter, letterNumber, otherNameStart]) (.union patternSigns patternSpace)

/-- What may follow in a name. -/
def nameContinue : CharSet :=
  .diff
    (.unions [nameStart, nonspacingMark, spacingMark, decimalNumber, connectorPunctuation,
      otherNameContinue])
    (.union patternSigns patternSpace)

/-- What may begin a name before and after it is brought into a normal form. -/
def stableNameStart : CharSet :=
  .diff nameStart (.ofSteps ["BIgbEBobExbMVvcCZEfgPqcEmbbbbbbbbbbbbbbbLbc"])

/-- What may follow in a name before and after it is brought into a normal form. -/
def stableNameContinue : CharSet :=
  .diff nameContinue (.ofSteps ["BIgbRCicCZEfgPqcEmbbbbbbbbbbbbbbb"])

/-- What may stand in a word. -/
def wordPart : CharSet :=
  .unions [alphabetic, mark, decimalNumber, connectorPunctuation, joinControl]

/-- The traits, each with its names. -/
def traits : List (List String × CharSet) := [
  (["ahex", "asciihexdigit"], asciiHexDigit),
  (["bidic", "bidicontrol"], bidiControl),
  (["bidim", "bidimirrored"], bidiMirrored),
  (["dash"], dash),
  (["dep", "deprecated"], deprecated),
  (["dia", "diacritic"], diacritic),
  (["emoji"], emoji),
  (["ecomp", "emojicomponent"], emojiComponent),
  (["emod", "emojimodifier"], emojiModifier),
  (["ebase", "emojimodifierbase"], emojiModifierBase),
  (["epres", "emojipresentation"], emojiPresentation),
  (["extpict", "extendedpictographic"], extendedPictographic),
  (["ext", "extender"], extender),
  (["grlink", "graphemelink"], graphemeLink),
  (["hex", "hexdigit"], hexDigit),
  (["hyphen"], hyphen),
  (["idcompatmathcontinue"], compatMathContinue),
  (["idcompatmathstart"], compatMathStart),
  (["ideo", "ideographic"], ideographic),
  (["idsb", "idsbinaryoperator"], binaryDescription),
  (["idst", "idstrinaryoperator"], trinaryDescription),
  (["idsu", "idsunaryoperator"], unaryDescription),
  (["joinc", "joincontrol"], joinControl),
  (["loe", "logicalorderexception"], logicalOrderException),
  (["mcm", "modifiercombiningmark"], combiningModifier),
  (["oalpha", "otheralphabetic"], otherAlphabetic),
  (["odi", "otherdefaultignorablecodepoint"], otherIgnorable),
  (["ogrext", "othergraphemeextend"], otherGraphemeExtend),
  (["oidc", "otheridcontinue"], otherNameContinue),
  (["oids", "otheridstart"], otherNameStart),
  (["olower", "otherlowercase"], otherLowercase),
  (["omath", "othermath"], otherMath),
  (["oupper", "otheruppercase"], otherUppercase),
  (["patsyn", "patternsyntax"], patternSigns),
  (["patws", "patternwhitespace"], patternSpace),
  (["pcm", "prependedconcatenationmark"], prepended),
  (["qmark", "quotationmark"], quotationMark),
  (["radical"], radical),
  (["ri", "regionalindicator"], regionalIndicator),
  (["sd", "softdotted"], softDotted),
  (["sterm", "sentenceterminal"], sentenceTerminal),
  (["term", "terminalpunctuation"], terminalPunctuation),
  (["uideo", "unifiedideograph"], unifiedIdeograph),
  (["vs", "variationselector"], variationSelector),
  (["alpha", "alphabetic"], alphabetic),
  (["lower", "lowercase"], lowercase),
  (["upper", "uppercase"], uppercase),
  (["cased"], cased),
  (["ci", "caseignorable"], caseIgnorable),
  (["cwl", "changeswhenlowercased"], changesWhenLowercased),
  (["cwu", "changeswhenuppercased"], changesWhenUppercased),
  (["cwt", "changeswhentitlecased"], changesWhenTitlecased),
  (["cwcf", "changeswhencasefolded"], changesWhenCasefolded),
  (["cwcm", "changeswhencasemapped"], changesWhenCasemapped),
  (["grext", "graphemeextend"], graphemeExtend),
  (["grbase", "graphemebase"], graphemeBase),
  (["space", "wspace", "whitespace"], whiteSpace),
  (["di", "defaultignorablecodepoint"], defaultIgnorable),
  (["nchar", "noncharactercodepoint"], nonCharacter),
  (["math"], mathematical),
  (["ids", "idstart"], nameStart),
  (["idc", "idcontinue"], nameContinue),
  (["xids", "xidstart"], stableNameStart),
  (["xidc", "xidcontinue"], stableNameContinue)]

end PromptWeave.Pattern.Property
