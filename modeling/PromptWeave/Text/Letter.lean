import PromptWeave.Text.CharTable

/-!
# Letters

Which characters are letters or numbers, by the tables of Unicode 17. ASCII is answered without a
table.
-/
namespace PromptWeave.Text

/-- Letters and what goes with them in words. -/
def CharSet.alphabetic : CharSet := .ofSteps [
  "CnBagBaBvbkbebfxbBfbRqemofhbbbDibBdsbccebbgbbdbbbubDfbFjiGkbBmcbgBpBnobbbcbcbbiBbeeBdlfCebh",
  "oDybieiedkdcbqBwnDxyBhjcebfycttzhlfybhhbiBqkmdhgCybqbdepntbicccwbhbbdediccccbbibecbfmckbedb",
  "geccwbhbcbcbcefecccebhebbrgldbjbdbwbhbcbfdjbdbcdbpeveedbicccwbhbcbfdiccccjcecbfnbqcbgddbedc",
  "bbbcdcdddmefddbddbgbBonbdbxbqdibdbdicbdbcceBcebibdbxbkbfdibdbdicfdbendmnbdbBpcibdbdbbfehfwg",
  "bdbsdybjbbchigbbbiscnCgfhgbBzcbbbfbybbbtbdcfbbgboeBgbClibBketeqbBkCpCdbbcfqCmkecBmbbfbcBrb",
  "MvbechbbbecBpbecBhbechbbbecpbCfbecCpBlqqDicgdXwcrbBafCxdlhulvmumnbdbcmCactobebCpDlhBrfCskBf",
  "bmejxBecflBseBaCcBceClcuBybxcldBxCabpbiBzBqcekBsbloCdwdkBkclfBrcdBpebgbcdbfHktBilKscgcBmcgc",
  "ibbbbbbbBfcCbbhbbddbhdecgenfdbhEmbnbqnDxbebckbbdfgbbbbbbeblceffebrBpBFhCaCRuIvgedcmBmbbfbc",
  "CehbqxjhbhbhbhbhbhbhbhbBgBvbSbdzjhfcfeDigdbDmbefBrbDqrBgBwqTsJToCmBGUfCpBucKjdqkcuBvfidEjBn",
  "jcDzcDeuvbBhyCamCqbbBsgdbbdkBhfBjnBddBzbmpbqqkfbCdjosxdCrbbbbydcqcelgcgcgjhbhbBrbogEtvQNsmx",
  "eBxMNcOccEcBmhmffmbnbfbbbcbcbEeBhNzsCmcCcBomEmfbFfBkBagBalDldgcgcgcdBjmbBabtbcbpcoBiEtCrCb",
  "KhBddBxBvBgnBefBrfBecBkeibfBqGcsBkeBkeBoiCamlbpbhbcblbpbhbcdCamLzjwkiygbBqbjCrgcbbBsbcdbcxk",
  "xjBfCntbckwkBagBaBmCegcCmebcfibdbBdBqBddBdBjibBcBbCckwktnsEgCvCdBznBznBoBiBcdbfxJqBqbcdcqg",
  "ByddBdkbiwBqsBuvBbxjCsBrfkCfjbnzxBzreiBjdbjCmbejckbbbBjsbBicbgeCkhbbbebpbkhCfxebicccwbhbcbf",
  "diccccdbgbfhBckbbcbbBmbkbbcbbebcdbbbBsCobdbeudBeCoccbbHcCcchzgBiClbbdbChCccbCtBbcovhHdCfDz",
  "CmBficbcibcbBebcccceDpicBucgbbbcBbBzckrCufbsCvDziDkBhBfjbBtbhbbBxBecwboCvhbcbBsdbbcbdbbccyg",
  "bcbBlbcbebbxBsKaxjrbBpddEhbDbBJmDyEhrHoDXkDtpBPgrgzFXrfWlKDdBvCPdVxhBfrDbrBesBwqeBfvftQqBt",
  "IdCmBgzczBsCxeCfhrCmcbbmhjKXyBpBgDtElMWrebhbcbLfpbBddcboeiPgDKuEdfndjhkebIWfDhbCtbccbcccebm",
  "bbbhbCnbecibhbBcbebfbbdhbNcczbzbBfbzbBfbzbBfbzbBfbzbiCSyBfggIfhbrchbcbffCkBhbEiBtkhqbMjBes",
  "BsSqBcIuBecbHzBfbwicIqhbebcbpbHpChCqdbdbBUiebBbbcbbcbbkbebbbbgbebbbbbbdbcbbcbbbbbbbbbbcbbce",
  "bhbebebbbkbrfdbfbrYeBagBagBaFMkCLFcBgGMocIOccLBlpXyDQwUwCFyHHzfMOo"]

/-- Numbers. -/
def CharSet.numeric : CharSet := .ofSteps [
  "BwkEqcfbcdCDlkFekHqkPwkEokegEekEokEokcgEgnElkihDzkEahhtEfkDskEokCsuKikCskBBruBHxdJfkgkwkLok",
  "EylGjkgkHakDikFekgkBOgbdggkHqBzcfBByCiDawYgBeCBhbBDxbzjodNfeFikBeibpBgkBnpBRSakHgkMigFykBmk",
  "HqkwkDikPqkBFMckSzBtmCfrcNdBbBkeBdbibFefHukBKgizhBnjCxfwgGeccqcBuCmjCacBedCxfEaiyiBphMsgBwk",
  "gkKsBfGckBqeEihFeBeEykCikFokhuJrkNekEokOkkDykguCymQetDpkZmkDiBdItkCskCckNukDyvBPbEhXAfkDMck",
  "DikFekbhUgkKcxNldBJFlkCEwumuEezBQrByDNckQgkTikJnkBBojEykBElChbdbeCyBtbpBLanEDfk"]

/-- Letters, to be looked up. -/
def letterTable : CharTable := .ofSet .alphabetic

/-- Letters and numbers, to be looked up. -/
def letterOrNumberTable : CharTable := .ofSet (.union .alphabetic .numeric)

/-- Whether a character is alphabetic. -/
def isLetter (c : Char) : Bool :=
  if c.toNat < 128 then c.isAlpha else letterTable.contains c

/-- Whether a character is alphabetic or a number. -/
def isLetterOrNumber (c : Char) : Bool :=
  if c.toNat < 128 then c.isAlphanum else letterOrNumberTable.contains c

end PromptWeave.Text
