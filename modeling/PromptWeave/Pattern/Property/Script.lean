import PromptWeave.Text.CharSet

/-!
# Scripts

The characters of each script, and those that it shares with other scripts, by the tables of
Unicode 16.
-/
namespace PromptWeave.Pattern.Property

open PromptWeave.Text

/-- A script: its names, its characters, and those in which its characters and the characters that
are used with it differ. -/
structure Script where
  names : List String
  steps : List String
  changes : List String := []

namespace Script

/-- The characters of a script. -/
def members (s : Script) : CharSet := .ofSteps s.steps

/-- The characters that are used with a script. -/
def extended (s : Script) : CharSet := .symmDiff s.members (.ofSteps s.changes)

end Script

/-- The scripts. -/
def scripts : List Script := [
  { names := ["adlm", "adlam"]
    steps := ["HDEuCyekec"]
    changes := ["CIhbBgbJWobFHhb"] },
  { names := ["ahom"]
    steps := ["EBRcBbcpex"] },
  { names := ["hluw", "anatolianhieroglyphs"]
    steps := ["ESSeWl"] },
  { names := ["arab", "arabic"]
    steps := [
      "CHcfbgbobdbBgbklBabEebBiDcBwJgBfbcfCxbBdDNTwElqNzcDccCchbBgqEifbFfFVnBfCpdCdeDGLsebBbbc",
      "bbcbbkbebbbbgbebbbbbbdbcbbcbbbbbbbbbbcbbcebhbebebbbkbrfdbfbrCac"]
    changes := ["CHobobdbBgbklBabJUsbFHhbDAKacCDkBc"] },
  { names := ["armn", "armenian"]
    steps := ["BZdBmcBycdDOZjf"]
    changes := ["BDwb"] },
  { names := ["avst", "avestan"]
    steps := ["DXCyCcdh"]
    changes := ["HbbRFsc"] },
  { names := ["bali", "balinese"]
    steps := ["KFwCzbBy"] },
  { names := ["bamu", "bamum"]
    steps := ["CLCqDkCVCqVx"] },
  { names := ["bass", "bassavah"]
    steps := ["FHKiBecg"] },
  { names := ["batk", "batak"]
    steps := ["KNgCaie"] },
  { names := ["beng", "bengali"]
    steps := ["DPoebicccwbhbbdecjccceibecbfcz"]
    changes := ["BAybCMucrcHJebbbccbbibibcbebcdCBAfb"] },
  { names := ["bhks", "bhaiksuki"]
    steps := ["EDOijbBtbokBd"] },
  { names := ["bopo", "bopomofo"]
    steps := ["BCscRLxBrEiBg"]
    changes := ["BBjbbdnbRCpdekbnkecbgbHnbCZThcKwf"] },
  { names := ["brah", "brahmi"]
    steps := ["DZAeDaeBkjb"] },
  { names := ["brai", "braille"]
    steps := ["PDwJw"] },
  { names := ["bugi", "buginese"]
    steps := ["JWaBccc"]
    changes := ["CMHzb"] },
  { names := ["buhd", "buhid"]
    steps := ["IUyu"]
    changes := ["IUnc"] },
  { names := ["cans", "canadianaboriginal"]
    steps := ["HOyYqVoCsDTPqq"] },
  { names := ["cari", "carian"]
    steps := ["DTYmBx"]
    changes := ["HbbLZmbcbFGdb"] },
  { names := ["aghb", "caucasianalbanian"]
    steps := ["DUXsCalb"]
    changes := ["BDsbBsbBsb"] },
  { names := ["cakm", "chakma"]
    steps := ["DZKaCbbs"]
    changes := ["DTmkCKek"] },
  { names := ["cham"]
    steps := ["CMJwCdjockce"] },
  { names := ["cher", "cherokee"]
    steps := ["HLgDicgCFJeDc"]
    changes := ["BDodbbgcwclc"] },
  { names := ["chrs", "chorasmian"]
    steps := ["DYXcBc"] },
  { names := ["zyyy", "common"]
    steps := [
      "aCnBagBaBvbpbfxbBfbRhBnffcuEmbjbgbbbYnbgbobdbBgbGabTwbEzcBVtbPpeLebCGldCtcHvcbbBVhbnbhe",
      "bgbdcbBDtmcDjbldlbprBhClBmbdcgbBbbrBpdeZqwlvBJsJwYecBgbEbTsDqPmvbbbzpieeDncdbDmcFrqBgBm",
      "jbBwCmBfDdBvbDkGmJToCmBHSiBiDydGjkJkbGebPfbocBEZqcIakwBjbtbeFrbbBgBagBalkbBtcCmhbhkfJyd",
      "eBtdjDcnBzBtIuBbCSHweFVgJqgQuGaEmCiJmkBncCkdrichBeeCjIfumumDjjzFfDhbCtbccbcccebmbbbhbCn",
      "becibhbBcbebfbbdhbNccLgcByHThCqCyCjBBeBseDwmpcpbpbBlkGsCeBabcnBsejhcogFyBLwerdndEpeDrgm",
      "ebpmeCeikgBoiBecmecCkNcmocndkfCehpclgjhFrbDyBSUXbbBeDs"]
    changes := [
      "HbbTwbkbbdbbjbbbFybZnbobdbBgbBExcCWrbCGldCtcHvcbbBVhbnbhebgbdcbBFobBfbkbcbFFdbyckbebbb",
      "QmqbdcbbkbnqgbbeeDncdbDmcFrqBgBmjbBwBoCeBxpmBzbDkzkfDsBfBROjiLkkJkbGebBFPmcKbcKwfkbBtc",
      "NodeBtdjQbBbCSHweIPwsLRyc"] },
  { names := ["copt", "qaac", "coptic"]
    steps := ["BMgoPJkEmfh"]
    changes := ["HbbWmbdcbbEecQDtbDCPcBc"] },
  { names := ["xsux", "cuneiform"]
    steps := ["EFBsBJmDyEhbflHo"] },
  { names := ["cprt", "cypriot"]
    steps := ["DVZkgcbbBsbcdbcb"]
    changes := ["DTImdeBtdj"] },
  { names := ["cpmn", "cyprominoan"]
    steps := ["EKYyDv"]
    changes := ["DTImc"] },
  { names := ["cyrl", "cyrillic"]
    steps := ["BNkFdcGnIVolGebCybGFnBgBTOaDsBHEccDHPgCkBhb"]
    changes := ["BAybCpdbbbbbbcbfbOhcJQnbGEkb"] },
  { names := ["dsrt", "deseret"]
    steps := ["DUMaDc"] },
  { names := ["deva", "devanagari"]
    steps := ["DKqDdepcBaCIJgBgBREmk"]
    changes := ["BAybCMucrcHJeBnbcBNabBZFrk"] },
  { names := ["diak", "divesakuru"]
    steps := ["ECKuhcbcibcbBebccmjk"] },
  { names := ["dogr", "dogra"]
    steps := ["ECAyCi"]
    changes := ["DOmmCIDck"] },
  { names := ["dupl", "duployan"]
    steps := ["GMDsEdfndjhkce"]
    changes := ["HbbWtcbbycQIhbFUWpe"] },
  { names := ["egyp", "egyptianhieroglyphs"]
    steps := ["ELDgBQskFXr"] },
  { names := ["elba", "elbasan"]
    steps := ["DUVwBo"]
    changes := ["HbbWrb"] },
  { names := ["elym", "elymaic"]
    steps := ["DYYyx"] },
  { names := ["ethi", "ethiopic"]
    steps := [
      "GVgCvbechbbbecBpbecBhbechbbbecpbCfbecCpcBgdBaJVaxjhbhbhbhbhbhbhbhBVKcgcgcgjhbhEPYfhbebc",
      "bp"]
    changes := ["BEcb"] },
  { names := ["gara", "garay"]
    steps := ["DXZcBmdBdic"]
    changes := ["CHobobdb"] },
  { names := ["geor", "georgian"]
    steps := ["GHsBmbbfbcBrbeEJwBrcdGEaBmbbfb"]
    changes := ["HbbBVlbEIrbFVibFGgb"] },
  { names := ["glag", "glagolitic"]
    steps := ["QRgDsGIZghbrchbcbf"]
    changes := ["HbbWpbbbOsbcbJxbEIrbFVibFGybBTNfb"] },
  { names := ["goth", "gothic"]
    steps := ["DUEaBb"]
    changes := ["HbbWqccbBob"] },
  { names := ["gran", "grantha"]
    steps := ["EADsebicccwbhbcbfcjcccdcbgbfhchdf"]
    changes := ["DNtcrcYqoGKabbcBeddcBNabDNTqbETwcbb"] },
  { names := ["grek", "greek"]
    steps := [
      "BHwebdcebbebbbbdbbbubCloqJNqfByfefDgbMiwcgcBmcgcibbbbbbbBfcCbbpbocgbtcdbjLjbCAJebBGNiDb",
      "rbDAXrCs"]
    changes := ["HbbWmccbbbbbkbBubcbBubJYxcZrb"] },
  { names := ["gujr", "gujarati"]
    steps := ["DZldbjbdbwbhbcbfckbdbdcbpecmhh"]
    changes := ["DNtcrcCIDmk"] },
  { names := ["gong", "gunjalagondi"]
    steps := ["EEBwgbcbBlbcbghk"]
    changes := ["HbbDHkc"] },
  { names := ["guru", "gurmukhi"]
    steps := ["DUndbgeccwbhbcbcbccbbfeccddbhebbhr"]
    changes := ["DNtcrcCIDmk"] },
  { names := ["gukh", "gurungkhema"]
    steps := ["FDRsCg"]
    changes := ["DOnb"] },
  { names := ["han", "hani"]
    steps := [
      "RPwBabDlmIgBvbbbzjoeBLcJToCmBFBkBHSiOccEcBSIicmcCCOkCLFcBgGDugIocINqoLBlpXyDQwUwCFyHHzf",
      "GFg"]
    changes := [
      "HbbRWyqbdcbbkbnkecbgbeeHfbFsqBgBmjbBwBoCeBxpmBzbDkzkfDsBfBROjiBHAzcKwfDCHesLRyc"] },
  { names := ["hang", "hangul"]
    steps := ["GLkJwLLecJxDqEjBfCnBfBTAnBdYtQNsmxeBxPAiBfdgcgcgcd"]
    changes := ["SErdekbnqbgbHnbCZThcKwf"] },
  { names := ["rohg", "hanifirohingya"]
    steps := ["DXWqBoik"]
    changes := ["CHobobdbBgbFrb"] },
  { names := ["hano", "hanunoo"]
    steps := ["ITsv"]
    changes := ["IUnc"] },
  { names := ["hatr", "hatran"]
    steps := ["DWIatbcff"] },
  { names := ["hebr", "hebrew"]
    steps := ["CCvCdiBbegDOVwBabfbbbcbcbk"]
    changes := ["BDvc"] },
  { names := ["hira", "hiragana"]
    steps := ["SHdDigdFPEvLbsbBddYMvb"]
    changes := ["SErdekbnqgbbecDnedbDmcCZTgcKwfkbBtc"] },
  { names := ["armi", "imperialaramaic"]
    steps := ["DWBwwbj"] },
  { names := ["qaai", "zinh", "inherited"]
    steps := [
      "BDoEiKrcRklBabBCieGOxBfTtdbnbhebgbdcHqCmUecHmBhFTxeEdcCZUjqqoBLnbIsbGFabCTCuBucxUydrich",
      "BeeBTLHiJg"]
    changes := [
      "BDopbcbbmbcdhcbcqbcbsbfbenKrcRklBabBCicHJxdbnbhebgbdcHqcCcbbbBDdbFTxeEdcDBQjbGFab"] },
  { names := ["phli", "inscriptionalpahlavi"]
    steps := ["DXGqtfi"] },
  { names := ["prti", "inscriptionalparthian"]
    steps := ["DXFkwci"] },
  { names := ["java", "javanese"]
    steps := ["CMEyDackec"]
    changes := ["CMHzb"] },
  { names := ["kthi", "kaithi"]
    steps := ["DZFcCpkb"]
    changes := ["DOokNXxbBUFek"] },
  { names := ["knda", "kannada"]
    steps := ["ETcnbdbxbkbfcjbdbehcgcbeckbd"]
    changes := ["DNtcrcHJebbcgbxbbbCASxg"] },
  { names := ["kana", "katakana"]
    steps := ["SKvDmcdJgqIaBvbDkCZHekbBtCOUcebhbcbbLbdByboe"]
    changes := ["BDtbBdbQZtdekbnqgbbecDnedbDmcCZTgcKwfkbBtc"] },
  { names := ["kawi"]
    steps := ["EERwrbBpdBd"] },
  { names := ["kali", "kayahli"]
    steps := ["CMAaBubb"]
    changes := ["CMBub"] },
  { names := ["khar", "kharoshthi"]
    steps := ["DWTcebcfibdbBdcdekhj"] },
  { names := ["kits", "khitansmallscript"]
    steps := ["FJIibKGxScBpb"] },
  { names := ["khmr", "khmer"]
    steps := ["IXkDqckgkSsBg"] },
  { names := ["khoj", "khojki"]
    steps := ["DZTwsbBv"]
    changes := ["EDikCHOik"] },
  { names := ["sind", "khudawadi"]
    steps := ["EAAqChfk"]
    changes := ["DOmcCIDmk"] },
  { names := ["krai", "kiratrai"]
    steps := ["FIIiCg"] },
  { names := ["lao", "laoo"]
    steps := ["FMvcbbbfbybbbxcfbbbhbkce"] },
  { names := ["latn", "latin"]
    steps := [
      "CnBagBaBvbpbfxbBfbRhBnfJXbBmgBxfefnbCsCnJwOfbnbqnFlcgbBbbrBpECtBgBULmDydCpccbbbivoBFkBr",
      "bjbeBEDqhBOkBagBaDCfgbBqbjDDNpBfgg"]
    changes := [
      "HbbTwbkbbdbbjbbbBmpbcbbmbcdhcbcBmbfbenKrcBVecCXkbEXwbVubHkbEZmbBTUmiVeb"] },
  { names := ["lepc", "lepcha"]
    steps := ["KPsCedpdd"] },
  { names := ["limb", "limbu"]
    steps := ["JMeBfbmemebdm"]
    changes := ["DOnb"] },
  { names := ["lina", "lineara"]
    steps := ["DVFsLzjwki"]
    changes := ["DTItBt"] },
  { names := ["linb", "linearb"]
    steps := ["DSYqmbBabtbcbpcoBiEt"]
    changes := ["DTImdeBtdj"] },
  { names := ["lisu"]
    steps := ["CKKuBwBUMab"]
    changes := ["BAybqbRDkc"] },
  { names := ["lyci", "lycian"]
    steps := ["DTXgBd"]
    changes := ["MGob"] },
  { names := ["lydi", "lydian"]
    steps := ["DWKmBafb"]
    changes := ["HbbRFtb"] },
  { names := ["mahj", "mahajani"]
    steps := ["DZNcBn"]
    changes := ["HbbDHkmCIDck"] },
  { names := ["maka", "makasar"]
    steps := ["EEQqz"] },
  { names := ["mlym", "malayalam"]
    steps := ["EYanbdbBzbdbgeqcBa"]
    changes := ["DNtcrcHJobxbCASzd"] },
  { names := ["mand", "mandaic"]
    steps := ["DDgBccb"]
    changes := ["CJob"] },
  { names := ["mani", "manichaean"]
    steps := ["DXAmBnem"]
    changes := ["CJob"] },
  { names := ["marc", "marchen"]
    steps := ["EDSqBgcwbo"] },
  { names := ["gonm", "masaramgondi"]
    steps := ["EDYehbcbBsdbbcbjik"]
    changes := ["DOmc"] },
  { names := ["medf", "medefaidrin"]
    steps := ["FISeDn"] },
  { names := ["mtei", "meeteimayek"]
    steps := ["CMSmxHtBuck"] },
  { names := ["mend", "mendekikakui"]
    steps := ["HCUyHpcq"] },
  { names := ["merc", "meroiticcursive"]
    steps := ["DWPkyeucBu"] },
  { names := ["mero", "meroitichieroglyphs"]
    steps := ["DWOeBg"]
    changes := ["MGrb"] },
  { names := ["miao", "plrd"]
    steps := ["FIZoCxeCfhr"] },
  { names := ["modi"]
    steps := ["EBHgCrlk"]
    changes := ["CLSak"] },
  { names := ["mong", "mongolian"]
    steps := ["JCiccbbugDlhBrDSCbn"]
    changes := ["JCkcbbDCjbFZtcfe"] },
  { names := ["mro", "mroo"]
    steps := ["FHEuBfbkec"] },
  { names := ["mult", "multani"]
    steps := ["DZYuhbbbebpbl"]
    changes := ["DYkk"] },
  { names := ["mymr", "myanmar"]
    steps := ["GBoGeCGAyBfDtBgBPAmu"]
    changes := ["CMBub"] },
  { names := ["nbat", "nabataean"]
    steps := ["DWEiBfij"] },
  { names := ["nagm", "nagmundari"]
    steps := ["HBPoBq"] },
  { names := ["nand", "nandinagari"]
    steps := ["ECQyicBucl"]
    changes := ["DOmcBImkGBhbibhbCASrg"] },
  { names := ["talu", "newtailue"]
    steps := ["JRcBseBagldc"] },
  { names := ["newa"]
    steps := ["EANoDobf"] },
  { names := ["nko", "nkoo"]
    steps := ["CYiChcd"]
    changes := ["CHobobdbDPPec"] },
  { names := ["nshu", "nushu"]
    steps := ["FJIfbYVmPg"] },
  { names := ["hmnp", "nyiakengpuachuehmong"]
    steps := ["HAEaBtdockec"] },
  { names := ["ogam", "ogham"]
    steps := ["INoBd"] },
  { names := ["olck", "olchiki"]
    steps := ["KSuBw"] },
  { names := ["onao", "olonal"]
    steps := ["HBZkBreb"]
    changes := ["DOmc"] },
  { names := ["hung", "oldhungarian"]
    steps := ["DXRsBznBzhg"]
    changes := ["MGobcbFGdbpb"] },
  { names := ["ital", "olditalic"]
    steps := ["DUCeBkjd"] },
  { names := ["narb", "oldnortharabian"]
    steps := ["DWYaBg"] },
  { names := ["perm", "oldpermic"]
    steps := ["DUFgBr"]
    changes := ["HbbWmbfdkbOdb"] },
  { names := ["xpeo", "oldpersian"]
    steps := ["DUIiBkeo"] },
  { names := ["sogo", "oldsogdian"]
    steps := ["DYQiBo"] },
  { names := ["sarb", "oldsoutharabian"]
    steps := ["DWWuBg"] },
  { names := ["orkh", "oldturkic"]
    steps := ["DXMuCv"]
    changes := ["MGobFGfb"] },
  { names := ["ougr", "olduyghur"]
    steps := ["DYUqBa"]
    changes := ["CJobDUSvb"] },
  { names := ["orya", "oriya"]
    steps := ["EEjdbicccwbhbcbfcjcccdhdecbfcs"]
    changes := ["DNtcrcHJobxb"] },
  { names := ["osge", "osage"]
    steps := ["DUSuBkeBk"]
    changes := ["BDpbcbgbCyb"] },
  { names := ["osma", "osmanya"]
    steps := ["DUQyBeck"] },
  { names := ["hmng", "pahawhhmong"]
    steps := ["FHMeCskkbhbvft"] },
  { names := ["palm", "palmyrene"]
    steps := ["DWDcBg"] },
  { names := ["pauc", "paucinhau"]
    steps := ["EDCaCf"] },
  { names := ["phag", "phagspa"]
    steps := ["CLSqCe"]
    changes := ["JCkcbbDCjbFZub"] },
  { names := ["phnx", "phoenician"]
    steps := ["DWJgBcdb"] },
  { names := ["phlp", "psalterpahlavi"]
    steps := ["DXHwshemh"]
    changes := ["CJob"] },
  { names := ["rjng", "rejang"]
    steps := ["CMBwBklb"] },
  { names := ["runr", "runic"]
    steps := ["IOuCxdl"]
    changes := ["IRrd"] },
  { names := ["samr", "samaritan"]
    steps := ["DAuBucp"]
    changes := ["RMvb"] },
  { names := ["saur", "saurashtra"]
    steps := ["CLVcCsim"] },
  { names := ["shrd", "sharada"]
    steps := ["DZOyDs"]
    changes := ["DNtbHKfbbbcccbCATrgcb"] },
  { names := ["shaw", "shavian"]
    steps := ["DUPcBw"]
    changes := ["Hbb"] },
  { names := ["sidd", "siddham"]
    steps := ["EBCiCccBm"] },
  { names := ["sgnw", "signwriting"]
    steps := ["GWTkZcpfbp"] },
  { names := ["sinh", "sinhala"]
    steps := ["FCzdbsdybjbbchdbegbbbigkcdDULgu"]
    changes := ["DOmcHKmb"] },
  { names := ["sogd", "sogdian"]
    steps := ["DYSeBq"]
    changes := ["CJob"] },
  { names := ["sora", "sorasompeng"]
    steps := ["DZIezhk"] },
  { names := ["soyo", "soyombo"]
    steps := ["ECXsDf"] },
  { names := ["sund", "sundanese"]
    steps := ["KKuCmJwi"] },
  { names := ["sunu", "sunuwar"]
    steps := ["EDLwBiok"]
    changes := ["BDocbbjbcbBcbdb"] },
  { names := ["sylo", "sylotinagri"]
    steps := ["CLQeBt"]
    changes := ["DOmcEyk"] },
  { names := ["syrc", "syriac"]
    steps := ["CQyobCicdKml"]
    changes := ["BDrcccbbvbcdhcbbBCdboccbBgbklBabIXrbbb"] },
  { names := ["tglg", "tagalog"]
    steps := ["ISmwjb"]
    changes := ["IUnc"] },
  { names := ["tagb", "tagbanwa"]
    steps := ["IWenbdbc"]
    changes := ["IUnc"] },
  { names := ["tale", "taile"]
    steps := ["JPgBecf"]
    changes := ["BDocfcdbEZzk"] },
  { names := ["lana", "taitham"]
    steps := ["JXgClbBdclgkgo"] },
  { names := ["tavt", "taiviet"]
    steps := ["CMOuCpyf"] },
  { names := ["takr", "takri"]
    steps := ["EBMeCggk"]
    changes := ["DOmcCIDmk"] },
  { names := ["taml", "tamil"]
    steps := ["EJicbgddbedcbbbcdcdddmefddbecbgbovEALhBynb"]
    changes := ["DNtcrcHJobCBBkbBOEfbbbCdc"] },
  { names := ["tnsa", "tangsa"]
    steps := ["FHGqDbbk"] },
  { names := ["tang", "tangut"]
    steps := ["FJIebBfJCaiBDoTsj"]
    changes := ["SEaqTbb"] },
  { names := ["telu", "telugu"]
    steps := ["EOenbdbxbqcjbdbehcbdcbceckhj"]
    changes := ["DNtcrcHJobxb"] },
  { names := ["thaa", "thaana"]
    steps := ["CVwBy"]
    changes := ["CHoboccbCmkDPTgbkb"] },
  { names := ["thai"]
    steps := ["FHxCgfBc"]
    changes := ["BAybBabBrbBtb"] },
  { names := ["tibt", "tibetan"]
    steps := ["FRsCubBkeBnbBkbpbhec"]
    changes := ["SEye"] },
  { names := ["tfng", "tifinagh"]
    steps := ["RCyCehcob"]
    changes := ["BDqbbbcbbb"] },
  { names := ["tirh", "tirhuta"]
    steps := ["EASmCuik"]
    changes := ["DNtcrcHKmbCASzk"] },
  { names := ["todr", "todhri"]
    steps := ["DVDgCa"]
    changes := ["BDpbcbcbjbbbCwb"] },
  { names := ["toto"]
    steps := ["HATkBf"]
    changes := ["BAyb"] },
  { names := ["tutg", "tulutigalari"]
    steps := ["EAIqkbbcbbBmbkbbcbbebkbcic"]
    changes := ["EXakGBqbbbCASxgHfb"] },
  { names := ["ugar", "ugaritic"]
    steps := ["DUHcBebb"] },
  { names := ["vai", "vaii"]
    steps := ["CKMqLo"] },
  { names := ["vith", "vithkuqi"]
    steps := ["DVAelbpbhbcblbpbhbc"] },
  { names := ["wcho", "wancho"]
    steps := ["HAVgCgfb"] },
  { names := ["wara", "warangciti"]
    steps := ["ECHcDfmb"] },
  { names := ["yezi", "yezidi"]
    steps := ["DYLkBqbdcc"]
    changes := ["CHobobdbCmk"] },
  { names := ["yi", "yiii"]
    steps := ["CIPkBSvdCd"]
    changes := ["SErcfkciIpbDAEff"] },
  { names := ["zanb", "zanabazarsquare"]
    steps := ["ECUqCu"] }]

end PromptWeave.Pattern.Property
