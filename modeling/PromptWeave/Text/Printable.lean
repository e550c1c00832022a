import PromptWeave.Text.CharSet

/-!
# Characters that can be shown

Which characters stand for themselves in a quoted text, by the tables of Unicode 17. Those that
would not be seen, or not apart from their neighbour, are written by their code point.
-/
namespace PromptWeave.Text

/-- Controls, separators but the plain space, code points that stand for no character or are for
private use, what extends the character before it, and what is not shown. -/
def CharSet.hidden : CharSet := .ofSteps [
  "aBgDrBimbWwEiicgehbbbubIqhGkbBmcBycdBubbbcbcbjBbegrklbbBuvqbDxibgccbeBgcbbBeBdDllboBrjhdyeb",
  "jbdbhpbzfbblfBgqBqCfCdbbbeiebdhkcBdbcbicccwbhbbdedbbcgcccbbncbdeyfbbgeccwbhbcbcbcedyebbhkcd",
  "bbmbbjbdbwbhbcbfdeibbcdbpcemhbicbicccwbhbcbfdbcbgcccpcbdeslbbgddbedcbbbcdcdddmfbbcddbddbvvg",
  "dbibdbxbqdbdetdbcccekhkblbdbxbkbfdccbbcxdbcekbdolbdbBpcbbcfdbdbcedbkeBaccbsdybjbbchjcghhkcd",
  "mBwbcliinBlcbbbfbybbbkbcjbcfbbjkceBgycBbbbbbbobBksbfbcfBxibgbnBlBtebgbccczcedqenbccgbpbBobb",
  "fbcFncIybechbbbecBpbecBhbechbbbecpbCfbecCpfBddBagDicgcYqbBcdDlhsntdcjsonbdpCacbhibcljdkgkgl",
  "fkgDlhfcBibbfCskBfeecdecbghbdBqcflBseBagldCfccdCebbjbbcignkgkgoDiBwkedibBdjmcBgecgCebbcdbbn",
  "BwicfpdCkfBrcllbnbhebgbdcbfHkCmKscgcBmcgcibbbbbbbBfcCbbpbocgbtcdbjryiBvrccBbbndBiCkFkeZqwlv",
  "CRscOndcfBtbbfbcCehcpxjhbhbhbhbhbhbhbhBhDqBiBabDlmIgBaqbBpgqbDieDxfBrbBzbBqbDijBwbBRIrdCdj",
  "NkuBvebkBgcDccgiInurbdbebzcfekgCeiCqkmynbBmizlbmBegBwbcecccbnblehbzbBpgcccldbibbckcBgbBzbbd",
  "ccfcbbbyrcilgcgcgjhbhbCieEnbcbedkgQNsmxeBxMNcOccEcBmhmffbbybfbbbcbcbZaBgqqkwBjbtbeefbFfeGbd",
  "BedgcgcgcddhbhnccmbBabtbcbpcoBiEtfdeBtdDkbndbBvBtFbBddBxqBbeBkjBefBmkBebBleoBqGcckgBkeBkeBo",
  "iCalmbpbhbcblbpbhbcdCamLzjwkiygbBqbjCrgcbbBsbcdbcxbCuijBwtbcfBhdBbfBbBmCeeucBvpebdbBdkjhjh",
  "CmBgBlgmjCcdBdcBbfBahemhDcCvCdBznBzhBqmkgBmiyicIaBfbBqdbccqgijBnBoiwljwseeBmBcuxjbbCcpheBeb",
  "ccbmBxecccbeozhkjBkfbjsiBjbdlCajbbiecbqbulsbBcdcegbcClhbbbebpblgBvbdnkicbicccwbhbcbfdbbbbec",
  "cccdbmhBckbbcbbBmbbbcpbbcdbbdbcBnCeicdbbvbbbdBeBwbcgbbcbbcbceikGkBvbcgecbcBbBkBzicbbcelkgnt",
  "BrbbbcicgkguBcBbdbbcebjxHdBvjbcbDwDfmicbcibcbybfbcgebdjkCsicBqiebeBbbkBogceijbgcdBunbcjnCvh",
  "kDjbdbbbDkBiokgjbBmobbgkBddBgzbhbcbCxhbcbBmvbjkggbcbBlecbbbbhkgBsekJmtcejpbBkicdxDibpBynBJn",
  "DyEhbflHoDXkDvnBPgrgzFXrfWlKDdBemddkCOsVxhBfbkeDdbkgBehbkBwhpkkbhbvftQqCgHqDnfzczBsCxfCeln",
  "CmeofjKXyBpBgDtElMWrebhbcbLfpbBddcboeiPgDKuEdfndjhkcbcbFVkJtdQugxprDrEmCiJmkBncCifdwchBeeCj",
  "vCodbEsumumDjjzFfDhbCtbccbcccebmbbbhbCnbecibhbBcbebfbbdhbNccLgcVqCdeByibobhBRwBfggKbCkFqBtk",
  "hckecMiBesBsekfbRwBcekIgBeclebHkBfbdbcbhcfjcIqhbebcbpbHpcjBwCqhbekecBEfCqCyCjHmebBbbcbbcbbk",
  "bebbbbgbebbbbbbdbcbbcbbbbbbbbbbcbbcebhbebebbbkbrfdbfbrCacKkBseDwmpcpbpbBlkGsCeBdnBsejhcogFy",
  "BLxdrdndIkgmebpmeCeikgBoiBecmecojBnNgiocndldCfbbeqcmekhFrbDzBNpCLFcBgGMocIOccLBlpXyDQwUwCFy",
  "HHzfMOo"]

/-- Whether a character can be shown. -/
def isShown (c : Char) : Bool := !CharSet.hidden.contains c

end PromptWeave.Text
