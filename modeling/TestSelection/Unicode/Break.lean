import TestSelection.Unicode.Table

/-!
# Break properties

Three partitions of the code points, by which text is cut into user-perceived characters, words
and sentences. Each has a class `Other` for the rest, which cannot be asked for.
-/

namespace TestSelection.Unicode.Break

/-- A partition: the short and long names of its classes, and the class of each code point. -/
structure Partition where
  names : List (String × String)
  /-- Names of classes that are no longer used. -/
  oldNames : List (String × String)
  table : List (Nat × Nat × Nat)

/-- The characters of a class, by its long name. -/
def Partition.ofName? (p : Partition) (name : String) : Option CodeSet :=
  if name == "Other" then none
  else (p.names.findIdx? (·.2 == name)).map fun index => Table.select p.table (· == index)

/-- The syllables of Hangul stand in blocks of 28, the first of which has no final consonant. -/
def hangulSyllables : List (Nat × Nat × Nat) :=
  (List.range 399).flatMap fun i =>
    let start := 0xAC00 + 28 * i
    [(start, start, 6), (start + 1, start + 27, 7)]

def grapheme : Partition where
  names :=
    [("XX", "Other"), ("CR", "CR"), ("CN", "Control"), ("EX", "Extend"), ("L", "L"),
     ("LF", "LF"), ("LV", "LV"), ("LVT", "LVT"), ("PP", "Prepend"), ("RI", "Regional_Indicator"),
     ("SM", "SpacingMark"), ("T", "T"), ("V", "V"), ("ZWJ", "ZWJ")]
  oldNames := [("EB", "E_Base"), ("EBG", "E_Base_GAZ"), ("EM", "E_Modifier"),
    ("GAZ", "Glue_After_Zwj")]
  table := hangulSyllables ++ Table.runs
    ["KCBFCCBBSC+CAbBCNABCsSAqDDtIAHDhIAnBDBABDBACDBACDBABDyBAGIKALDBABCoBAVDQABDfDAHDBIBAGDCA",
    "CDBAEDbBABIBABD4A1D7CALD6BAJDJABDYAEDBAJDBADDBAFDlBADDuBACIFAJDkBAYDBIaBDBKwBABDBKBDBADK",
    "IDEKBDCKBAHDKACD3ABDCKyBABDBABDCKEDCACKCACKBDJABDKACD0ABDCACDBKyBABDBADKCDEACDCADDDABD4A",
    "CDDABDLACDBKyBABDBADKFDBACDBKBACKBDUACDWAGDBABDCKyBABDBACDBKEDCACKCACKBDHADDKACD4ABD7BAB",
    "DBKBDCKDADKBADKBDJABDiBABDDKBDxBABDBADDEKBADDBAEDHACDLACD3ABDCKyBABDBABKCDBKBDCKBADDBAED",
    "HACDLACDPABKMACDCKxBACDBABDCKEDBADKBADKBDBIIABDKACD3ABDCKgCABDEABDCKDDBABDBAHKBDSACK9BAB",
    "DBABKHDMAIDcDABDBABKJDLAHDjCACD1ABDBABDBABDEACKrBAODBKFDBACDFALDBAeBDJABDgDAEDBKGDBACDCK",
    "CDXACKCDEADDQAEDNABDBABKCDGABDPABDcDAaDEiCMyCL9KADDs3AED2ADD3ACD4ACDaCACDBKHDIKBDCKLDJAB",
    "DnBADDBCBDvDACDcBABDwDADDEKCDDKEACKBDGKDD7GACDCKBDzBABKBDBKHDBABDBABDCAIDGKKDCABDqBA5DrB",
    "AEDBKpBAKDEKDDgBAJDMACDBK4ABKEDCKGDyBABDBKCDDKBDBKFDqBAIKIDCKCDyEADDBANDBKHDEABDGABDCABK",
    "CDgGAaCDlQABCBDBNCCYAHCrBAQCaDAbBD-+CADDnEABDaDAaBDkRAGDjDACDuo3AEDBAKDaBACDqCACDqIABDDA",
    "BDEABDXACKCDBKEABDtCACKsBAQKCD0ASDNABDgBAIDZALDBKBDMA3EDADDBKpBABDCKEDCKCDCKBDeBABDdCAGD",
    "CKCDCKCDMABDIABDBKoBABDtBABDBADDCACDFACDBABDjBABKCDCKFABKBDmHACKBDCKBDCKBABKBDc-KAXMEArB",
    "LczIABDbXAQDQAQDpGABC-EACDqCAMCbQABDcHABDvEAFDguBADDBACDFAEDiBADDEABDfFACD9RAEDbCAFD9JAC",
    "DpCAEDgCALDrBAED6DABKBDBKvBAPDjBABDCACDKADDBKnBADKEDCKCDCABIEABDKABIsBADDeBAFDBKIDQACKmB",
    "ABDMACDBKqBADKJDBKBDBACIFAEDBABKBD8CADKDDCKEDGABDCABD9EABDDKIDVACDCKxBACDBABDBKBDEKCACKC",
    "ACKBDJABDKACKCAHDDAFDdCABDCKGDBABDCABDBADDBKBACKDDBIBDOACDsCADKIDCKDDBKBDXABDrCABDCKGDBK",
    "BDCKBDBKCDBKCDlHABDCKEDCAEKCDBKCD1ACDsCADKIDCKBDBKCDkDABDBKBDCKIDfDABDBKBDCAEDBKFDaIADKJ",
    "DBKCDvHABDFKBACKCAEDBIBKBIBKBDnEADKEDCACDEKBDDABK2AKDiBAGDBKBIEDIABDJAGDCKDDiBAGINDBKCDv",
    "MABKHDBAGDBKBDsCAWDBABKHDBKCDBKCD6DAGDDABDBACDBAHDBIBDcCAFKBACDBACKBDBKBD7KACDCKJACDBIBK",
    "qBACKFDDACKDDXABDvgFAQCBDGAPDigLAMDDKDDaoCAFD7BAHDyaBABDBAxBKHAEDrCABDLACDlfTACDBAEC8sEA",
    "oBDCAXD-QAFDDAGDICIDCAHD4AEDuEADD79BAxBDEAsBDIABDOABDWAFDBAPDqkBAHDBARDCAHDBACDBAFDeDABD",
    "aFAHDxLABD9BAED8PAED-HACDaXAHDnDAHD7eCA0J7PAFDaadYAaBCaDDaECqHDqqDCaa8FA"]

def word : Partition where
  names :=
    [("XX", "Other"), ("LE", "ALetter"), ("CR", "CR"), ("DQ", "Double_Quote"),
     ("Extend", "Extend"), ("EX", "ExtendNumLet"), ("FO", "Format"), ("HL", "Hebrew_Letter"),
     ("KA", "Katakana"), ("LF", "LF"), ("ML", "MidLetter"), ("MN", "MidNum"),
     ("MB", "MidNumLet"), ("NL", "Newline"), ("NU", "Numeric"), ("RI", "Regional_Indicator"),
     ("SQ", "Single_Quote"), ("WSegSpace", "WSegSpace"), ("ZWJ", "ZWJ")]
  oldNames := [("EB", "E_Base"), ("EBG", "E_Base_GAZ"), ("EM", "E_Modifier"),
    ("GAZ", "Glue_After_Zwj")]
  table := Table.runs
    ["KABJCNBCSABRBABDEABQEABLBABMBAKOBKBLFA0BEABFBA0BKABNeBABBCABGHABBBABKCABBFAXBBA5BBAaPBGA",
    "cBBqDEFBBACBCAEBBLBBGABBBKDBBABBBAUBBAtCBBAlEBBAHEgFBBAgBBCAEBBABBBKjBBBLBBGAnBEBABEBACE",
    "BACEBABEIA1HEAEHBBBKLAGGGACLCALEBABGDAlBBVEKOBABOBLBACBBEdDBBABBHEBGBAGECBCEBAEECBKODBCA",
    "BBPABGBBBE4B1ECAzCBLEBBOAKObBBJECBCABLBABBCABECAWBEEBBJEBBDEBBFESAZBDEEALBFAYBBAGBBACGFA",
    "JEkBBYEBGbBEwBBDEBBSEBBHEKBCECAKOBAQBDEBAIBCACBCAWBBAHBBABBDAEBCABEBBHECACECADEBBIABEEAC",
    "BBADBCECAKOCBKABBBABECADEBAGBEACBCAWBBAHBBACBBACBBACBCABEBAFEEACECADEDABEHAEBBABBHAKOCED",
    "BBELADEBAJBBADBBAWBBAHBBACBBAFBCABEBBIEBADEBADECABBPACBCECAKOJABBGEBADEBAIBCACBCAWBBAHBB",
    "ACBBAFBCABEBBHECACECADEHADEEACBBADBCECAKOBABBQABEBBBAGBDADBBAEBDACBBABBBACBDACBDADBDAMBE",
    "AFEDADEBAEECABBGABEOAKOQAFEIBBADBBAXBBAQBCABEBBHEBADEBAEEHACEBADBCABBCACBCECAKOQABBDEBAI",
    "BBADBBAXBBAKBBAFBCABEBBHEBADEBAEEHACEGACBBACBCECAKOBACBBEMAEEJBBADBBAjBBCEBBHEBADEBAEEBB",
    "FADBBEHADBCECAKOKAGBBADEBASBDAYBBAJBBABBCAHBDABEEAGEBABEBAIEGAKOCACE9BABECAHEMAIEBAKOxCA",
    "BECAJELAHEBAKOgBABBXACEGAKOLABEBABEBABEEACEIBBAeBBEAUEBACEFBLEBAeBEJABEeDAUEBAKOMAEEEADE",
    "BADECAHEDAEENAMEBABEKOEECAgBBBABBFABBCAlBBBAnKBBAEBCAHBBABBBAEBCAjBBBAEBCAbBBBAEBCAHBBAB",
    "BBAEBCAPBBAzBBBAEBCAdCBCADEaBAQBQAwCBCAGBDAmTBCARBBR0BFAlCBDALBHASBEEJATBDELASBCEMANBBAD",
    "BBACEaCAaBEJABECAKObBADEBGBEKOGAzCBHAFBCEcBBBEBBFAgCBKA5BBAMEEAMEKAKOaEAKOgBAXBFEzBAKEBA",
    "3ECABEKOGAKOWA5ErBAFEpBBREIBDAKORAJEMADE4BNECBKOmBBOEMAeBBUEIAKODADBKOeBBCALBFAlBBCADBQA",
    "DEBAVEEBBEGBBECBDEBBFAaGBaCEwIBCAGBCAgBBCAGBCAIBBABBBABBBABBBA5BCAvBBBAHBBABBDADBBAHBDAE",
    "BCAGBEANBFADBBAHBDAHRBADRBABEBSCGIACMKABMCABKCNFGBFPACFDABLPABFKABRFGBAKGBABBNABBQANBtBA",
    "bBERABBEABBCAKBBABBDAFBGABBBABBBABBBAEBBALBCAEBFAFBEABBRAjBBnZAuBBwyBAfHBGAEBDECBMAgBBBA",
    "BBFABBCAyBBHABBPABEXBJAHBBAHBBAHBBAHBBAHBBAHBBAHBBAHBBAaBEpBABBqOABREABBeBAGEBAFIFACB8CA",
    "CECIDA7CIBAEIFAlBBBA-CBRAaBBqBAQIqGApBIBAyCIif1AneBBdCAoBBCAnIBDAQBKOCBUApBBEEBAKEBA5BCE",
    "qCBCEWAgGBCACBBABBBAIBVAQBBEDBBEEBBEXBFEEABETAuBBMACEsBBSEKAKOGASEGBDABBBACBBEKO2BIECAXB",
    "NEMA3BDAEEpBBOEOABBKOLABEKAKOGAjBBOEJADBBEIBCECAKObBADEsBABEBADECACEFACEBABE4ALBFECADBCE",
    "KAGBCAGBCAGBJAHBBAHBBA6BBGAtDBIEBACECAKOGAe9KBMAXBEArBBeyIAHBMAFBFABHBEKHBANHBAFHBABHBAC",
    "HBACHBAKHcDBbBAlLBSAaCBCAwBBiBAMBEAQEBLCABKBLLAQEDACFYADFBLBABMBABLBK0AFBBAhEBCABGHABMEA",
    "BLBABMBAKOBKBLFA0BEABFBA0BLAyBICE5BDAGBCAGBCAGBCADB2ADGEAMBBA0BBATBBACBBAPBCAOBcBA7DBfCA",
    "vBBiEABEcEA3BDArBBPABE5AaBBNA4BFAgBBFEFA4BCAeBBEAIBBAFBkBA-EBCAKOGAeBBEAeBBEAiBBIAuBBMAL",
    "BBAPBBAHBBACBBALBBAPBBAHBBACBDAuBBMAxJBJAWBKAIBYAGBBAkBBBAJBfCAGBCABBBAmBBBACBDABBCAXBKA",
    "XBJA5BbCATBBACBKAWBKA0BgCAyBBGACBaCABBDEBACEFAEEEBBADBBA3BCADEEABEaBA3BDA3BdBAIBBA2BCEZA",
    "wBBKAWBKATBNASBoDAjCBxBAtBBNAtBBNAeBBEEIAKOGAKO2BDAFEBAXB6HAkBBBACEDACBQADBxBAEE3BKABBIA",
    "WBLE5ASBEEkBAVB1AXBJADEvBBPE5AKOBECBCEBBJAEEnBBLECABGEABEKABGCAZBHAKOGADEeBBOEBAKOEABBCE",
    "BBIAdBBBECABBJADEqBBOEEBEAEEBACEKOBBBABBdBASBBAZBMEGABECBBE-BAHBBABBBAEBBAPBBAKBHApBBMEF",
    "AKOGAEEBAIBCACBCAWBBAHBBACBBAFBBACEBBHECACECADECABBGABEFAFBCECAHEDAFELAKBBABBCABBBAgBBBA",
    "BBJEBABECABEBAEEBAFEBBBEBBNACE3AvBBSEEBFAKOEABEDB4AqBBUECBBABBIAKOgFApBBHECAJEXAEBCEcBAq",
    "BBREDABBLAKOgBAlBBNEBBHAKOGAUOzBAPEEAKOgGAmBBPEfDAaCBKOVAIBCABBCAIBBACBBAYBGEBACECAEEBBB",
    "EBBCEMAKOgCAIBCAhBBHECAHEBBBABBBE1ABBKEiBBHEBBEEIABEIABBLEoBBQEDABBSAjCBhGAbBBPAKOGAJBBA",
    "fBBIEBAIEBBPAKOYA4BCAWEBAOEjCAHBBACBBAgBBGEDABEBACEBAHEBBBEIAKOGAGBBACBBAaBBFEBACEBAFEBB",
    "HAKOwJATBEEJACEBBBENBBAcBBHEDAFENAKOBEvCABBpCA62BgDApDBRAeGBmsCAbDBPAqbBBQGBEGBPEKA78DBF",
    "AhSBzvGA4BSEKOgwBAzRBHA5BBAKOGApCBBAKOGA4BCAFELAqBBHEJAEBMAKOJAVBFATBqNAnBBDAKOgGAaCBaEA",
    "lCBEABEBBxBEHAEENBaCACBBABBBELACE-+PAEIBAHIBACIBABI+IADIsBABIOAEIyuCAlDBFANBDAJBHAKBDACE",
    "BAEGmcEAKOgQAoBECAXE-QAFEDAGEIGIECAHE4AEEuEADE7NAvCBBAhCBBACBCABBCACBCAEBBAMBBABBBAHBBAb",
    "CBBAEBCAIBBAHBBA2BBAEBBAFBBABBDAHBBAuKBCAZBBAZBBA5BBAZBBA5BBAZBBA5BBAZBBA5BBAZBBAIBCAsBO",
    "aQAxBEEAsBEIABEOABEWAFEBAPEqcBA5BGAGBvGAHEBARECAHEBACEBAFEFA-BBbBABEqDAnBBDAHEHBCAKOEABB",
    "bKA4BBERAmBBEEKOwOA2BEEKOwGA4BCEBBKOfPAHBBAEBBACBBAPBBAfGBLAHEjBAeCBHEBBEAKOgfBAEBBA1BBA",
    "CBBABBCABBBAKBBAEBBABBBABBGABBEABBBABBBABBBADBBACBBABBCABBBABBBABBBABBBABBBACBBABBCAEBBA",
    "HBBAEBBAEBBABBBAKBBARBFADBBAFBBARBuTA0BGA0BGA0B8CA0P7PAFEq+BAKOhabYABG4AaDEaEAqHEqq+FA"]

def sentence : Partition where
  names :=
    [("XX", "Other"), ("AT", "ATerm"), ("CR", "CR"), ("CL", "Close"), ("EX", "Extend"),
     ("FO", "Format"), ("LF", "LF"), ("LO", "Lower"), ("NU", "Numeric"), ("LE", "OLetter"),
     ("SC", "SContinue"), ("ST", "STerm"), ("SE", "Sep"), ("SP", "Sp"), ("UP", "Upper")]
  oldNames := []
  table := Table.runs
    ["JABNBGCNBCSABNBLBDEADDCACKBBBAKIBKEABLBA0OBDBABDDA0HBDBABDHABM0ABNJABHBDBABFHABHEABHBDEA",
    "XOBAHOYHBAIHBOBHBOBHBOBHBOBHBOBHBOBHBOBHBOBHBOBHBOBHBOBHBOBHBOBHBOBHBOBHBOBHBOBHBOBHBOBH",
    "BOBHBOBHBOBHBOBHBOBHBOBHBOBHBOBHBOCHBOBHBOBHBOBHBOBHBOBHBOBHBOBHBOCHBOBHBOBHBOBHBOBHBOBH",
    "BOBHBOBHBOBHBOBHBOBHBOBHBOBHBOBHBOBHBOBHBOBHBOBHBOBHBOBHBOBHBOBHBOBHBOBHCOBHBOBHBODHCOBH",
    "BOBHCOBHDOCHEOBHCOBHDODHCOBHCOBHBOBHBOBHCOBHBOCHBOBHCOBHDOBHBOBHCOCHBJBODHEJCOBHCOBHCOBH",
    "BOBHBOBHBOBHBOBHBOBHBOBHBOBHBOCHBOBHBOBHBOBHBOBHBOBHBOBHBOBHBOBHBOCHCOBHBOBHDOBHBOBHBOBH",
    "BOBHBOBHBOBHBOBHBOBHBOBHBOBHBOBHBOBHBOBHBOBHBOBHBOBHBOBHBOBHBOBHBOBHBOBHBOBHBOBHBOBHBOBH",
    "BOBHBOBHBOBHBOBHBOHHCOBHCOCHBOBHEOBHBOBHBOBHBOBHBOfCHBJeBHHJCHEAMJOAFHHABJBABJRAqDEBOBHB",
    "OBHBJBABOBHCAEHBABOGABOBADOBABOBACOBHROBAJOdBHBOCHDODHBOBHBOBHBOBHBOBHBOBHBOBHBOBHBOBHBO",
    "BHBOBHBOBHBOFHBOBHBABOBHCOCHtBOqBHBOBHBOBHBOBHBOBHBOBHBOBHBOBHBOBHBOBHBOBHBOBHBOBHBOBHBO",
    "BHBOBHBOBHBOBHBAHEBOBHBOBHBOBHBOBHBOBHBOBHBOBHBOBHBOBHBOBHBOBHBOBHBOBHBOBHBOBHBOBHBOBHBO",
    "BHBOBHBOBHBOBHBOBHBOBHBOBHBOBHBOBHBOBHCOBHBOBHBOBHBOBHBOBHBOBHBOCHBOBHBOBHBOBHBOBHBOBHBO",
    "BHBOBHBOBHBOBHBOBHBOBHBOBHBOBHBOBHBOBHBOBHBOBHBOBHBOBHBOBHBOBHBOBHBOBHBOBHBOBHBOBHBOBHBO",
    "BHBOBHBOBHBOBHBOBHBOBHBOBHBOBHBOBHBOBHBOBHBOBHBOBHBOBHBOBHBOBHBOBHBOBHBOBHBOBHBOBHBAgBOC",
    "ABJDABKCAjBHBLHAnBEBABEBACEBACEBABEIA1JEAFJMAGFGACKCALEBABFDLlBJVEKIBACIBACJBEdDJBLBJHEB",
    "FBAGECJCEBAEECJKIDJCABJDLMABFBJBE4J1ECAzCJLEBJOAKIbBJJECJCABKBLBJCABECAWJEEBJJEBJDEBJFEJ",
    "ABLBABLDACLBAZJDEEALJFAYJBAGJBACFFAJEkBJYEBFbBEwBJDEBJSEBJHEKJCECLKIBAQJDEBAIJCACJCAWJBA",
    "HJBABJDAEJCABEBJHECACECADEBJIABEEACJBADJCECAKICJKABJBABECADEBAGJEACJCAWJBAHJBACJBACJBACJ",
    "CABEBAFEEACECADEDABEHAEJBABJHAKICEDJBELADEBAJJBADJBAWJBAHJBACJBAFJCABEBJIEBADEBADECABJPA",
    "CJCECAKIJABJGEBADEBAIJCACJCAWJBAHJBACJBAFJCABEBJHECACECADEHADEEACJBADJCECAKIBABJQABEBJBA",
    "GJDADJBAEJDACJBABJBACJDACJDADJDAMJEAFEDADEBAEECABJGABEOAKIQAFEIJBADJBAXJBAQJCABEBJHEBADE",
    "BAEEHACEBADJCABJCACJCECAKIQABJDEBAIJBADJBAXJBAKJBAFJCABEBJHEBADEBAEEHACEGACJBACJCECAKIBA",
    "CJBEMAEEJJBADJBAjBJCEBJHEBADEBAEEBJFADJBEHADJCECAKIKAGJBADEBASJDAYJBAJJBABJCAHJDABEEAGEB",
    "ABEBAIEGAKICACENAqBJBECJHEFAHJIEBAKIhBACJBABJBAFJBAYJBABJBAKJBECJJEBJCAFJBABJBAHEBAKICAE",
    "JaBABJXACEGAKILABEBABEBABEEDCEIJBAeBJEAUEBACEFJLEBAeBEJABEzBAlBJUEBJKICLEAGJEEEJDEBJDECJ",
    "HEDJEENJMEBJBEKIEECAgBOBABOFABOCAlBJBABHmKJBAEJCAHJBABJBAEJCAjBJBAEJCAbBJBAEJCAHJBABJBAE",
    "JCAPJBAzBJBAEJCAdCJCADECABLEACLXAQJQAwCOCAGHDAmTJBABLRJBN0JCDDAlCJDALJHASJEEJATJDECLJASJ",
    "CEMANJBADJBACEMAuBJaBECLBABJEABJBECAKIYABKBLEABKBLBADEBFBEKIGAzCJHAFJCEcBJBEBJFAgCJKA5JB",
    "AMEEAMEIACLKI4JCAFJLAmBJEA0JGAKIgBAXJFEEAvBJKEBA3ECABEKIGAKINABJELEA5ErBAFEpBJREIJBACLKI",
    "CLCACLLAJEJADLDE4JNECJKImBJOEMAeBJUEDACLDAKIDADJKIeBJCLJHBOBHFAlBJCADJQADEBAVEEJBEGJBECJ",
    "DEBJFAaGHaCEBOBHBOBHBOBHBOBHBOBHBOBHBOBHBOBHBOBHBOBHBOBHBOBHBOBHBOBHBOBHBOBHBOBHBOBHBOBH",
    "BOBHBOBHBOBHBOBHBOBHBOBHBOBHBOBHBOBHBOBHBOBHBOBHBOBHBOBHBOBHBOBHBOBHBOBHBOBHBOBHBOBHBOBH",
    "BOBHBOBHBOBHBOBHBOBHBOBHBOBHBOBHBOBHBOBHBOBHBOBHBOBHBOBHBOBHBOBHBOBHBOBHBOBHBOBHBOBHBOBH",
    "BOBHBOBHBOBHBOBHBOBHBOBHBOBHBOBHBOBHBOBHBOBHBOJHBOBHBOBHBOBHBOBHBOBHBOBHBOBHBOBHBOBHBOBH",
    "BOBHBOBHBOBHBOBHBOBHBOBHBOBHBOBHBOBHBOBHBOBHBOBHBOBHBOBHBOBHBOBHBOBHBOBHBOBHBOBHBOBHBOBH",
    "BOBHBOBHBOBHBOBHBOBHBOBHBOBHBOBHBOBHBOBHBOBHBOBHBOBHBOBHBOBHBOBHBOJHIOGHCAGOCAIHIOIHIOGH",
    "CAGOCAIHBABOBABOBABOBABOIHIOOHCAIHIOIHIOIHIOFHBACHFOBABHDADHBACHFODAEHCACHEOEAIHFOFADHBA",
    "CHFODALNBFCECFDACKDAIDEABBDACMFFBNJACDBACLHACDDLVABNFFBAKFBABHLACDBHNACDBANHtBAbBERABOEA",
    "BOCABHDOCHDOBHBABODAFOGABOBABOBABOBAEOBABHEOBHEJBHCACHCOFABOEHEABHRAQOQHDJBOBHEJ+LAED3AC",
    "DlMA0O0HrTAGDHAODpCACD5AKDtMAWD+BAEDaBACDcQAqBOqBHBOBHDOCHBOBHBOBHBOBHEOBHBOCHBOIHDOBHBO",
    "BHBOBHBOBHBOBHBOBHBOBHBOBHBOBHBOBHBOBHBOBHBOBHBOBHBOBHBOBHBOBHBOBHBOBHBOBHBOBHBOBHBOBHBO",
    "BHBOBHBOBHBOBHBOBHBOBHBOBHBOBHBOBHBOBHBOBHBOBHBOBHBOBHBOBHBOBHBOBHBOBHBOBHBOBHBOBHBOBHBO",
    "BHBOBHBOBHBOBHBOCHGABOBHBOBHDEBOBHFADLEAgBHBABHFABHCAyBJHABJPABEXJJAHJBAHJBAHJBAHJBAHJBA",
    "HJBAHJBAHJBAaBEODOACDCAKDEABLBJMABLFABDQACLIDdNABNBKBLCADJKDCAIDBADDBAJJGEBAFJCAFJEAwCJC",
    "ACECADJBA6CJBAEJFAlBJBA-CJRAaBJqBAQJaQAaoGJaCAnuVJdCAoBJBABLnIJBACLQJKICJUABOBHBOBHBOBHB",
    "OBHBOBHBOBHBOBHBOBHBOBHBOBHBOBHBOBHBOBHBOBHBOBHBOBHBOBHBOBHBOBHBOBHBOBHBOBHBOBHBJEEBAKEB",
    "ABJBOBHBOBHBOBHBOBHBOBHBOBHBOBHBOBHBOBHBOBHBOBHBOBHBOBHBODHCEqCJCEBABLDABL5AJJCABOBHBOBH",
    "BOBHBOBHBOBHBOBHBODHBOBHBOBHBOBHBOBHBOBHBOBHBOBHBOBHBOBHBOBHBOBHBOBHBOBHBOBHBOBHBOBHBOBH",
    "BOBHBOBHBOBHBOBHBOBHBOBHBOBHBOBHBOBHBOBHBOBHBOBHBOBHBOKHBOBHBOBHCOBHBOBHBOBHBOBHBOBHBJCA",
    "BOBHBOBHBJBOBHBODHBOBHBOBHBOBHBOBHBOBHBOBHBOBHBOBHBOBHBOBHFOBHFOBHBOBHBOBHBOBHBOBHBOBHBO",
    "BHBOBHEOBHBOBHCOBHCABOBHBABHBABHBOBHBOBHBOBHBOVADHBOBHBJDHHJBEDJBEEJBEXJFEEABETAuBJCACLI",
    "ACEsBJSEIACLKIGASEGJDABJBACJBEKI2JIEBABLXJNEMA3JDAEEpBJOEHACLFABJKIGAFJBEKJKIFJBAjBJOEJA",
    "DJBEIJCECAKIDADLXJDABJDEsBJBEBJDECJCEFJCEBJBEBJYADJCALJFECLDJCEKAGJCAGJCAGJJAHJBAHJBAlBH",
    "BAOHGAqCHdBJIEBLCECAKIGAe9KJMAXJEArBJeiIAoLJCAkDJgBAHHMAFHFABJBEKJBANJBAFJBABJBACJBACJBA",
    "mDJbBAlLJCDQAaCJCAwBJiBAMJEAQECKBLBKBACLCDHAQEBACKCAQDCACDHACKBBCABKCLBKGDEABKMAFJBAhEJC",
    "ABFBABLGACDCACKBBBAKIBKEABLBA0OBDBABDDA0HBDBABDBACDBLCDBKBAyBJCE5JDAGJCAGJCAGJCADJ2ADFEA",
    "MJBA0JBATJBACJBAPJCAOJcBA7DJfCAvBJiEABEcEA3JDArBJPABE5AaBJNA4JFAgBJFEFA4JCAeBJEAIJBAFJkB",
    "AiBOiBHoCJCAKIGAeBOEAeBHEAiBJIAuBJMALOBAPOBAHOBACOBALHBAPHBAHHBACHDAuBJMAxJJJAWJKAIJYABH",
    "CJDHBAkBHBAJHfCAGJCABJBAmBJBACJDABJCAXJKAXJJA5JbCATJBACJKAWJKA0JgCAyBJGACJaCABJDEBACEFAE",
    "EEJBADJBA3JCADEEABEWACLIA3JDA3JdBAIJBA2JCEZAwBJKAWJKATJNASJoDAjCJxBAtBONAtBHNAeBJEEIAKIG",
    "AKIGJWODAFEBABJWH6HAkBJBACEDACJQADJxBAEE3JKABJIAWJLEEAFLWASJEEELgBAVJ1AXJJADEvBJPECL3AKI",
    "BECJCEBJJAEEnBJLECABFELBEKABFCAZJHAKIGADEeBJOEBAKIBADLBJCEBJIAdBJBECABJJADEqBJOEEJCLCAEE",
    "BLCEKIBJBABJBACLaBASJBAZJMECLBACLBABECJBE-BAHJBABJBAEJBAPJBAKJBLGApBJMEFAKIGAEEBAIJCACJC",
    "AWJBAHJBACJBAFJBACEBJHECACECADECABJGABEFAFJCECAHEDAFELAKJBABJCABJBAgBJBABJJEBABECABEBAEE",
    "BAFEBJBEBJCLLACE3AvBJSEEJCLDAKIEABEDJ4AqBJUECJBABJIAKIgFApBJHECAJEBACLFAPLEJCEcBAqBJRECL",
    "BABJLAKIgBAlBJNEBJHAKIGAUI2A1JCAPEEAKICADLBAHJzFAmBJPEfDAaBOaBHKIVAIJCABJCAIJBACJBAYJGEB",
    "ACECAEEBJBEBJCEBLBABLJAKIgCAIJCAhBJHECAHEBJBABJBE1ABJKEiBJHEBJEEDACLDABEIABJLEoBJQEBACLB",
    "JSAjCJhGAbBJPAKIGAJJBAfBJIEBAIEBJCLNAKIYA4JCAWEBAOEjCAHJBACJBAgBJGEDABEBACEBAHEBJBEIAKIG",
    "AGJBACJBAaBJFEBACEBAFEBJHAKIwJATJEECLHACEBJBENJBAcBJHEDAFECLLAKIBEvCABJpCA62JgDApDJRAeGJ",
    "msCAbDJPAqbBJQFBEGJPEKA78DJFAhSJzvGA4JSEKIgwBAzRJHA5JBAKIEACLpCJBAKIGA4JCAFEBLKAqBJHECLH",
    "AEJBLLAKIJAVJFATJqNAnBJBACLKIgGAaBOaBHYABLhDAlCJEABEBJxBEHAEENJaCACJBABJBELACEOAy+FJIAwg",
    "BJjBAKJhxIAEJBAHJBACJBAdJJPABJ3ADJCABJOAEJIAmMJeiCAlDJFANJDAJJHAKJDACEBLEFmcEAKIgQAoBECA",
    "XE-QAFEDAGEIFIECAHE4AEEuEADE7NA0O0H0OHHBASH0O0HBOBACOCABOCACOCAEOBAIOEHBABHBAHHBALH0O0HC",
    "OBAEOCAIOBAHOBA0HCOBAEOBAFOBABODAHOBA0H0O0H0O0H0O0H0O0H0O0H0O2HCAZOBAZHBAGHZOBAZHBAGHZOB",
    "AZHBAGHZOBAZHBAGHZOBAZHBAGHBOBHCAsBIaQAxBEEAsBEIABEOABEDABLSAFEBAPEqcBAKHBJUHGAGHvGAHEBA",
    "RECAHEBACEBAFEFA-BHbBABEqDAnBJDAHEHJCAKIEABJbKA4JBERAmBJEEKIwOA2JEEKIwGA4JCEBJKIfPAHJBAE",
    "JBACJBAPJBAfGJLAHEjBAcBOcBHHEBJEAKIgfBAEJBA1JBACJBABJCABJBAKJBAEJBABJBABJGABJEABJBABJBAB",
    "JBADJBACJBABJCABJBABJBABJBABJBABJBACJBABJCAEJBAHJBAEJBAEJBABJBAKJBARJFADJBAFJBARJuTA0OGA",
    "0OGA0OmhBADDxlBAKIgaBAaxjBJaBA6bEJGA-GJCAcuFJOArjHJPAoTJcnCA-QJcpBAl6EJFAadEJrcxVABF4AaD",
    "EaEAqHEqq+FA"]

end TestSelection.Unicode.Break
