import TestSelection.Unicode.Table

/-!
# Listed properties

Properties of characters that are given by a list and follow from nothing else. The properties
that are defined through these stand in another module.
-/

namespace TestSelection.Unicode.Listed

def whiteSpace : CodeSet := .mk
  [(0x9, 0xD), (0x20, 0x20), (0x85, 0x85), (0xA0, 0xA0), (0x1680, 0x1680), (0x2000, 0x200A),
   (0x2028, 0x2029), (0x202F, 0x202F), (0x205F, 0x205F), (0x3000, 0x3000)]

def bidiControl : CodeSet := .mk
  [(0x61C, 0x61C), (0x200E, 0x200F), (0x202A, 0x202E), (0x2066, 0x2069)]

def joinControl : CodeSet := .mk
  [(0x200C, 0x200D)]

def dash : CodeSet := Table.set
  ["nBA8kBAtBAbsDAfaBAjaCF9BAhBAPAgMAeaDACA5BEA2A-NATApDAqmtBBfBAKAjFAatDA-JA"]

def hyphen : CodeSet := .mk
  [(0x2D, 0x2D), (0xAD, 0xAD), (0x58A, 0x58A), (0x1806, 0x1806), (0x2010, 0x2011),
   (0x2E17, 0x2E17), (0x30FB, 0x30FB), (0xFE63, 0xFE63), (0xFF0D, 0xFF0D), (0xFF65, 0xFF65)]

def quotationMark : CodeSet := Table.set
  ["cBAEAdEAPA86HHZBhqDAjODNCbrtBD9FAEA6CB"]

def terminalPunctuation : CodeSet := Table.set
  ["bBAKABALBDA-ZAIAbQAzBAiCAOABCuFAlBKBAlHBwBFBH5AfIBuhBBmFAEFxJBvYHfYA8DChCB9ECDAhBDCB6JBc",
  "LDcFBKBBC3C7FE-BBe3AXBJCpfDCsJANAEAKABBDBmNB7h3BnICdHE-LBwCB+CAxECtEC+DAQBzHAgrUACBzBCBD",
  "jFAKABALBDAbCACA6bBAqBAgeBAhGAwJByEFeCFzCDy3EmBD9FGqDD+DCbEBGAQByCEmDAkJBvDCMBgLDDOjDBzH",
  "CfQABA7HBxCBEB-MCnBAfUBkCBljBEzpRBfEAbCCKAjRBhJBgqTAhpHD"]

def otherMath : CodeSet := Table.set
  ["-CAr1CCA0BCBabHA1CLAaBDYBOBbCMEADBEESAEACJBADEGADBCBBCBFDDFElCECDBBBBBABECBEBERCBBABGBAG",
  "BcJDiFBBAYARA9NBMIFEFBCBDEOABACFYBzBABA3DJBwKB5JtMV+BDaBBddvBABAEAtGABAbgvBuCBgCBBCACBCD",
  "BLBABGBaCBDCHBGB1BDBEBADGBtKCYBYB4BYB4BYB4BYB4BYBHCrBaqFDB0BBBACABJBDBABAGAEABABABCBBBAC",
  "ABABABABABBBACDBGBDBDBABJBQFCBEBQ"]

def hexDigit : CodeSet := .mk
  [(0x30, 0x39), (0x41, 0x46), (0x61, 0x66), (0xFF10, 0xFF19), (0xFF21, 0xFF26),
   (0xFF41, 0xFF46)]

def asciiHexDigit : CodeSet := .mk
  [(0x30, 0x39), (0x41, 0x46), (0x61, 0x66)]

def otherAlphabetic : CodeSet := Table.set
  ["f0A3MaSNBABBBBBAiCKqBMBGQAfDGEDCBEAdBA4PgDKfDBDIBCBDkDA8BLDGGTwBBCOBBFCKB3C6BGCBCBKAKB3C",
  "6BEEBCBEA4BDALC6BHBCBBVBWCEC6BGCBCBJBKB4A7BEDCBCKAiBEzBGBCBCIBLB3C6BGBCBCIBLBPAMD6BGBCBC",
  "KAKB3ClCFBABHSB9BACGSAdDACFBBQAdFSJKBdBoDLBACDXDECBCCGDDNLBAKDutBB4B4B4BcCS8FBcBAwDLEI-G",
  "EzBJCTkCBLCrBEqBO8BC4ICBzBKsBS8MbBbwBtBwhC5ud4HcBBcLAIAXEyCBsBPBAzBAgBE2LnBDqBLfBAdCNMAI",
  "BnBCsBABCCBFAmBEFAnHHtzTAxcCEguBCBBFDuYDbCAbKBpCAdICvBNnBBLCnBIJA9BCeBLSBzBCqBMOB8CICAGA",
  "CA9EJXD6BGCBCBKAKBuCIBACABDBBhDMBCkDRnHGCG3BsCOBAkDKhDNbIMxHFBBCBDABAoEGCFEA2JkBEBDSKoBN",
  "xMHBGtCVBN6DFDABBBCBADAcCEBBBD8KDJBBAqBGDC9oQQarDABwBHD9CBmfTAb7IGBQCGBBBEeDAxfCAi+BZGZG",
  "Z"]

def ideographic : CodeSet := Table.set
  ["gaMBZIOCf4+nGaC+pUaiWnLCjDki3A1x+FIvgBjBJhdJlMeiT+wjBaBzbEG9GCbuFOqjHPnTcnC9QcpBk6EF+cE"]

def diacritic : CodeSet := Table.set
  ["-CABAhCAGAEACBxP-EBHFFRBEAJB9HErGAxBmBBABBBBBAdEHEBgEBEBDCdC07CK6BKcBB-DHjBJQ19BAQADD2Ak",
  "CAQAoDAQAoDAQApBC8BAQAHAxDAoDAQAoDAQAnDBQA8DApDAMFBAlDANElCB1ABABAEBcCCBB-BAqDABBiBBEEZG",
  "BAKBbWCu3B4AuEKJA7KCeJAUHCAqBOCKiDAPAgBIwBB6BALBcCBaCFsCYEAGACCsB-BqBdBFLfBK9NABCLCNCNCN",
  "BqhDC9JA6PFjDD+CAsl3AMBBA2BsCBObBgDCnDBMAfBAxEA1RzBDeBA+CAMAeBAvECbCDtBAeDEJCaEBqzTAbYPo",
  "IABApBAnBBdCA8XA+eBFBjBBI9TCEAfFB7RFgBA0EpMCgCKrBDaGAjBAiCByDB-BAmCAJCiDBsFBqCBQAYGDEzCC",
  "BBNB+CADA7DB7HB-DAwDBtDAnIBcIBEA8EAtCASArCAfNAcIABBrCAjNBXAmhFOzgLAaoCE7BGuRBcRQqCB-+PDB",
  "GBBbyHnBCWaRCDFIHCG4DcuD9BcGGxLA9BD-XBaXGnDCBC"]

def extender : CodeSet := Table.set
  ["xFAyQBo1AzNAwTAjEAzCAqXA+DAdkCAyBAdTAoMAeCAj8EAlBEhDB9CCwy1AwpBAc4AWAjEAmDAVB7dVAqaCBloB",
  "A1AEAhgBAfJAuDBsPCpgBAjfUB8eBBBAyk2BrfBAu0C"]

def otherLowercase : CodeSet := Table.set
  ["kFAPAvPIHB4EaDAuBAbmDApbD-BNAcBeBrVANAQMtGPq0Zs8BB-q4BsGAbECDBc1DJAwaXACCBjBBIvdwB9B"]

def otherUppercase : CodeSet := .mk
  [(0x2160, 0x216F), (0x24B6, 0x24CF), (0x1F130, 0x1F149), (0x1F150, 0x1F169),
   (0x1F170, 0x1F189)]

def noncharacterCodePoint : CodeSet := Table.set
  ["qo+B5oQB-++BB-++BB-++BB-++BB-++BB-++BB-++BB-++BB-++BB-++BB-++BB-++BB-++BB-++BB-++BB-++BB"]

def otherGraphemeExtend : CodeSet := Table.set
  ["-nCAYAgLAYAgDAYAiHABAEBBBJBhDAYAxDAPAvjCA4AaaBAFABAFBfDAhCByaBAbbEBdj4AmDA9oVBarEAuDAiIA",
  "OAJAaDAJACABCFAaHAMArHAgIAzTAMAdqBAofUBtlYBGFnvlY+C"]

def idsBinaryOperator : CodeSet := .mk
  [(0x2FF0, 0x2FF1), (0x2FF4, 0x2FFD), (0x31EF, 0x31EF)]

def idsTrinaryOperator : CodeSet := .mk
  [(0x2FF2, 0x2FF3)]

def idsUnaryOperator : CodeSet := .mk
  [(0x2FFE, 0x2FFF)]

def radical : CodeSet := .mk
  [(0x2E80, 0x2E99), (0x2E9B, 0x2EF3), (0x2F00, 0x2FD5)]

def unifiedIdeograph : CodeSet := Table.set
  ["aaN+nGaC+pUoqWBBABBKABABBCCwobC+wjBaBzbEG9GCbuFOqjHPnTcnEk6EF+cE"]

def otherDefaultIgnorableCodePoint : CodeSet := .mk
  [(0x34F, 0x34F), (0x115F, 0x1160), (0x17B4, 0x17B5), (0x2065, 0x2065), (0x3164, 0x3164),
   (0xFFA0, 0xFFA0), (0xFFF0, 0xFFF8), (0xE0000, 0xE0000), (0xE0002, 0xE001F),
   (0xE0080, 0xE00FF), (0xE01F0, 0xE0FFF)]

def deprecated : CodeSet := .mk
  [(0x149, 0x149), (0x673, 0x673), (0xF77, 0xF77), (0xF79, 0xF79), (0x17A3, 0x17A4),
   (0x206A, 0x206F), (0x2329, 0x232A), (0xE0001, 0xE0001)]

def softDotted : CodeSet := Table.set
  ["jDBeGAzIA4AuBAUAaKAcDABAjiGAtBANADAeEA9EAfNAwGBszCAf9jDBsBBsBBsBBsBBsBBsBBsBBsBBsBBsBBsB",
  "BsBBgeCArJB0A"]

def logicalOrderException : CodeSet := .mk
  [(0xE40, 0xE44), (0xEC0, 0xEC4), (0x19B5, 0x19B7), (0x19BA, 0x19BA), (0xAAB5, 0xAAB6),
   (0xAAB9, 0xAAB9), (0xAABB, 0xAABC)]

def otherIDStart : CodeSet := .mk
  [(0x1885, 0x1886), (0x2118, 0x2118), (0x212E, 0x212E), (0x309B, 0x309C)]

def otherIDContinue : CodeSet := .mk
  [(0xB7, 0xB7), (0x387, 0x387), (0x1369, 0x1371), (0x19DA, 0x19DA), (0x200C, 0x200D),
   (0x30FB, 0x30FB), (0xFF65, 0xFF65)]

def idCompatMathStart : CodeSet := Table.set
  ["cqIAEAWAcfnDAZA5AZA5AZA5AZA5AZA"]

def sentenceTerminal : CodeSet := Table.set
  ["bBAMAQAjkBAtECuFAlBCwHA9BABADBfJBexBBwYAEBfYAgGB9EBnBAFA6JBcLDcFBKBCB3C7FBbCBe3AXBJCpfDC",
  "sJANAWBnNA8h3AoIBdHADA-LBwCB+CAyEBtECqEBzHAgrUACB7BADBjFAMAQAbCAuxCB9hBEmBD9FBvDD+DCbEBG",
  "AQByCBBBmDAkJBvDBvLBFOjDBzHCfQABA7HBxCBeNBuVBkCBjzSBfEAbCBLAjRBiJAgqTAipHA"]

def variationSelector : CodeSet := .mk
  [(0x180B, 0x180D), (0x180F, 0x180F), (0xFE00, 0xFE0F), (0xE0100, 0xE01EF)]

def patternWhiteSpace : CodeSet := .mk
  [(0x9, 0xD), (0x20, 0x20), (0x85, 0x85), (0x200E, 0x200F), (0x2028, 0x2029)]

def patternSyntax : CodeSet := Table.set
  ["bBOKG0DBA0DcBGBABBBABBEAEADAXA5AyyHXIOCSBJrJpWaFvT4ldBaQ+DbMCEYPAnitBBfIB"]

def prependedConcatenationMark : CodeSet := .mk
  [(0x600, 0x605), (0x6DD, 0x6DD), (0x70F, 0x70F), (0x890, 0x891), (0x8E2, 0x8E2),
   (0x110BD, 0x110BD), (0x110CD, 0x110CD)]

def regionalIndicator : CodeSet := .mk
  [(0x1F1E6, 0x1F1FF)]

def modifierCombiningMark : CodeSet := .mk
  [(0x654, 0x655), (0x658, 0x658), (0x6DC, 0x6DC), (0x6E3, 0x6E3), (0x6E7, 0x6E8),
   (0x8CA, 0x8CB), (0x8CD, 0x8CF), (0x8D3, 0x8D3), (0x8F3, 0x8F3)]

def bidiMirrored : CodeSet := Table.set
  ["iBBSABA2ABA3ABAnBAPA-tDD96BB8mCBKBwBBOBrFAaGDDFDADBDDBDBABAEIFABRFDJBBABHB5CDFAJBCSFBJEC",
  "BEXCPIDUBHB9bBNkCACDBBBCFDFCDNtMVCFBNIAHFDAEEBBCEEABCCBKFCBMSBDCABACABDFBGCYBLBEDBBCBEkB",
  "CHBhBFABADEFCEADEBAaIAdQDDBBBOBCJlBHlNJCH9rtBFFBcFBSABA2ABA3ABABBBBx7vBAzBAzBAzBAzBA"]

def graphemeLink : CodeSet := Table.set
  ["nkCA+DA+DA+DA+DA+DA+DA+DAnDBQA8DApDA+DAjGAuFBzwBB4A9EAnUAdHAfDBgCBlmEAgu4AfBAxEAoEAmDAvJ",
  "AwHArsXAgqBAjBAOAzBAzDBlEAuDAuFAcDAaECrDA+DA8HA+DAwDAuDAnIAdIBbFAtCASArCAfNAeIBrCAjNBmpQ",
  "A"]

def changesWhenCasefolded : CodeSet := Table.set
  ["bCZ6CAKWBHaBABABABABABABABABABABABABABABABABABABABABABABABABABABABACABABABABABABABABBBAB",
  "ABABABABABABABABABABABABABABABABABABABABABBBABABABBBABBBCCDBBBCDBBBBABABBBACABBBCBABBDAH",
  "BBBBBBABABABABABABABACABABABABABABABABACBBABCBABABABABABABABABABABABABABABABABABABABABAB",
  "ABABABABABABABAHBBBCABDBABABABAwHAkBABADAIAGABCBABBBQBIWAMCDBBABABABABABABABABABABABABBC",
  "BBABBCsBqBABABABABABABABABABABABABABABABABAJABABABABABABABABABABABABABABABABABABABABABAB",
  "ABABABABABBBABABABABABACABABABABABABABABABABABABABABABABABABABABABABABABABABABABABABABAB",
  "ABABABABABABABABABABABABABABABACfBqBAyyCfBBAFAkZFceCJGkBCCaKABABABABABABABABABABABABABAB",
  "ABABABABABABABABABABABABABABABABABABABABABABABABABABABABABABABABABABABABABABABABABABABAB",
  "ABABABABABABABABABABABABABABABABAFBCABABABABABABABABABABABABABABABABABABABABABABABABABAB",
  "ABABABABABABABABABABABABABABABABABABABABABABAJHIFKHIHIFLABABABAIHQpBCCCFFCCFLDMEFCCFjJAD",
  "BGAnBPTAsZZqzBpBqBABCCABABABDBACAICBABABABABABABABABABABABABABABABABABABABABABABABABABAB",
  "ABABABABABABABABABABABABABABABABABABABABABABAIABAEAnk4ABABABABABABABABABABABABABABABABAB",
  "ABABABABABATABABABABABABABABABABABABABAhEABABABABABABADABABABABABABABABABABABABABABABABA",
  "BABABABABABABABABABABABABABAKABABBBABABABAEABACABADABABABABABABABABABABEBEBABABABABABABA",
  "BDBABBDAFABABABAYA61pCa6TGMEjaBZfgBhBiEdB8EKBOBGBBkxBsB9EV6zC5amV5av4bB"]

def changesWhenCasemapped : CodeSet := Table.set
  ["bCZGZ6BAKWB4B+BBtCB1CNCBBAE8CBRG0BBBABBDBBDBECABBCAHACABBDFFAKBgFAkBDCBDCBAGABCBABTBoBDa",
  "BBEBeEIfFBfBKgByyCfBBAFACkBCCaVvCCFceCKFkBCCzFADAQArD7ECABvDCFCfBCFCHBABABAB4CuBBGBADCBG",
  "DDCFEMFCBGjJADBGA1AR5DBrZtBwyBqDBBBBHfDHDDBMfBBAFAsi4nBS1gENC9BJODCCEBYB3CBEGYB80A2pCa6T",
  "GMEjaBZGZffBpCaDdBEdBuDKBOBGBBBKBOBGBBdwBsBNsB9CVKV6yC+BalV+Bau4dC"]

def changesWhenLowercased : CodeSet := Table.set
  ["bCZfDWBGbBABABABABABABABABABABABABABABABABABABABABABABABABABABABACABABABABABABABACABABAB",
  "ABABABABABABABABABABABABABABABABABABABABBBABADBBABBBCCDBBBCDBBBBABABBBACABBBCBABBDAHBBBB",
  "BBABABABABABABABACABABABABABABABABACBBABCBABABABABABABABABABABABABABABABABABABABABABABAB",
  "ABABABABABAHBBBCABDBABABABAbJABADAIAGABCBABBBQBIdBAIABABABABABABABABABABABAFACABBCsBqBAB",
  "ABABABABABABABABABABABABABABABAJABABABABABABABABABABABABABABABABABABABABABABABABABABABBB",
  "ABABABABABACABABABABABABABABABABABABABABABABABABABABABABABABABABABABABABABABABABABABABAB",
  "ABABABABABABABABABACfBj6CfBBAFAsWvCteCAGkBCCaKABABABABABABABABABABABABABABABABABABABABAB",
  "ABABABABABABABABABABABABABABABABABABABABABABABABABABABABABABABABABABABABABABABABABABABAB",
  "ABABABABABABABABABAJABABABABABABABABABABABABABABABABABABABABABABABABABABABABABABABABABAB",
  "ABABABABABABABABABABABABABABAJHIFKHIHIFLABABABAIHYHIHIHIELELDMELEjJADBGAnBPTAsZZqzBpBqBA",
  "BCCABABABDBACAICBABABABABABABABABABABABABABABABABABABABABABABABABABABABABABABABABABABABA",
  "BABABABABABABABABABABABABAIABAEAnk4ABABABABABABABABABABABABABABABABABABABABABABATABABABA",
  "BABABABABABABABABABAhEABABABABABABADABABABABABABABABABABABABABABABABABABABABABABABABABAB",
  "ABABABABAKABABBBABABABAEABACABADABABABABABABABABABABEBEBABABABABABABABDBABBDAFABABABAYAl",
  "zVZfgBhBiEdB8EKBOBGBBkxBsB9EV6zC5amV5av4bB"]

def changesWhenTitlecased : CodeSet := Table.set
  ["bDZ6BAjBXBHBABABABABABABABABABABABABABABABABABABABABABABABABABABABACABABABABABABABBBABAB",
  "ABABABABABABABABABABABABABABABABABABABABACABABCCABACADAFACADCCACABABACAEACADABACADABAEAB",
  "BBBBABABABABABABABABBBABABABABABABABABCBABADABABABABABABABABABABABABABABABABABABABADABAB",
  "ABABABABABABAIACBBAEABABABABFBBBABBDBBDBECABBCAHACABBDFFAKBgFAlBABADADCSA1cBBBDCBABABABA",
  "BABABABABABABABEBACACAuBpBBABABABABABABABABABABABABABABABABAJABABABABABABABABABABABABABA",
  "BABABABABABABABABABABABABACABABABABABABBBABABABABABABABABABABABABABABABABABABABABABABABA",
  "BABABABABABABABABABABABABABABABABABABABABABABABArBgBqtDFceCIBAoHADAQAsDABABABABABABABABA",
  "BABABABABABABABABABABABABABABABABABABABABABABABABABABABABABABABABABABABABABABABABABABABA",
  "BABABABABABABABABABABABABABABABABABABABABABGFABABABABABABABABABABABABABABABABABABABABABA",
  "BABABABABABABABABABABABABABABABABABABABABABABABABABIIFKHIHIFKHIHINCHIHIHIEBBGADCBBIDCBIH",
  "KCBBwKAbBPEAl0Zg6BpBBADBBABABAGACAKABABABABABABABABABABABABABABABABABABABABABABABABABABA",
  "BABABABABABABABABABABABABABABABABABABABABABABAIABAEAMfBBAFAti4ABABABABABABABABABABABABAB",
  "ABABABABABABABABABATABABABABABABABABABABABABABAhEABABABABABABADABABABABABABABABABABABABA",
  "BABABABABABABABABABABABABABABABABABAKABACABABABABAEAEABBCABABABABABABABABABALABABABABABA",
  "BABAEABACADAFABABA0A80A2pCa6TGMEjbBZngBhBiEdB7EKBOBGBBdyBsB9DV6zC5amV5cv4bB"]

def changesWhenUppercased : CodeSet := Table.set
  ["bDZ6BAjBXBHBABABABABABABABABABABABABABABABABABABABABABABABABABABABACABABABABABABABBBABAB",
  "ABABABABABABABABABABABABABABABABABABABABACABABCCABACADAFACADCCACABABACAEACADABACADABAFBB",
  "BBBBABABABABABABABBBABABABABABABABABBBBBADABABABABABABABABABABABABABABABABABABABADABABAB",
  "ABABABABABAIACBBAEABABABABFBBBABBDBBDBECABBCAHACABBDFFAKBgFAlBABADADCSA1cBBBDCBABABABABA",
  "BABABABABABABEBACACAuBpBBABABABABABABABABABABABABABABABABAJABABABABABABABABABABABABABABA",
  "BABABABABABABABABABABABACABABABABABABBBABABABABABABABABABABABABABABABABABABABABABABABABA",
  "BABABABABABABABABABABABABABABABABABABABABABABArBgBi6CkBCCyXFceCIBAoHADAQAsDABABABABABABA",
  "BABABABABABABABABABABABABABABABABABABABABABABABABABABABABABABABABABABABABABABABABABABABA",
  "BABABABABABABABABABABABABABABABABABABABABABABABGFABABABABABABABABABABABABABABABABABABABA",
  "BABABABABABABABABABABABABABABABABABABABABABABABABABABABIIFKHIHIFKHIHINCuBBBEABADCBBEADDC",
  "BIHKCBBEArKAbBPEAl0Zg6BpBBADBBABABAGACAKABABABABABABABABABABABABABABABABABABABABABABABAB",
  "ABABABABABABABABABABABABABABABABABABABABABABABABABAIABAEAMfBBAFAti4ABABABABABABABABABABA",
  "BABABABABABABABABABABABATABABABABABABABABABABABABABAhEABABABABABABADABABABABABABABABABAB",
  "ABABABABABABABABABABABABABABABABABABABABAKABACABABABABAEAEABBCABABABABABABABABABALABABAB",
  "ABABABABAEABACADAFABABA0A80A2pCa6TGMEjbBZngBhBiEdB7EKBOBGBBdyBsB9DV6zC5amV5cv4bB"]

def emoji : CodeSet := Table.set
  ["dBAGAFJpDAEAn8HAMAyGAWA6CFPBpLBMAgFAZKEChGAhHBKAJA6BDBEJACACBCAEACABBCADADBICFABAFLLBCAB",
  "BBASACBSFBABBDBFACBEBLBFBCAFBBABBUBFFBDCAEACACFBACABABAGADAGAKBPACAEABAECBALBqBCJAOAOAuL",
  "BpOCTBtBAEA6gBAMAzSABAklpDAkGAaFBMBOACJlCZBBXAUACIVBoFbBCpDCBBCCsCCCBgIB-BLFBXHBCHMACDCA",
  "EBNBCAIBJAFCMCICCABAEAGADAGvCqBfCFHCCEJDABBDACJdHLEA7IoBBJByFqDMDJFxBHOCKGI"]

def emojiComponent : CodeSet := .mk
  [(0x23, 0x23), (0x2A, 0x2A), (0x30, 0x39), (0x200D, 0x200D), (0x20E3, 0x20E3),
   (0xFE0F, 0xFE0F), (0x1F1E6, 0x1F1FF), (0x1F3FB, 0x1F3FF), (0x1F9B0, 0x1F9B3),
   (0xE0020, 0xE007F)]

def emojiModifier : CodeSet := .mk
  [(0x1F3FB, 0x1F3FF)]

def emojiModifierBase : CodeSet := Table.set
  ["9qJA7GAQDxdtDA8BCCACCvDBCKVSDAECBCHABAYAjGBEAVAEBoFCDEtCAQCJALA+RACAIHGAJJCCyBA9BBBBBARC",
  "BMfHCkBI"]

def emojiPresentation : CodeSet := Table.set
  ["6yIBnGDDACAjQBVBsBLlBATANAIBRBFBIAFAVAHBBAEACAHAEB2AdBABAECBA9BCYAOA70BtBAEAofrDAkGA-FAC",
  "JlCZBAYAUACEBCVBoFaBMIBfCBVMkBEEMQDADgCBAB6FC-BNDBXSA0BNAwCuCqBfCGADCCCEDLBHIdHLEA7IoBBJ",
  "ByFqDMDJFxBHOCKGI"]

def extendedPictographic : CodeSet := Table.set
  ["jFAEAn8HAMAyGAWA6CFPBpLBMA+CAgCAZKEChGAhHBKAJA6BDBFBLBrDKvDCKBABAGADAGAKBPACAEABAECBALEn",
  "BCJAOAOAuLBpOCTBtBAEA6gBAMAzSABAglpD+HNC5A8BFMBOACJSyB1OKAUACIBDJrNF9JIjIqB+DuDLvCkBMDyB",
  "HKFiBH4rCMoBBJByNaI95"]

def idStartExceptions : CodeSet := Table.set
  ["61AyvCA+DAhpIBb-sBFwMBuDABABABABABABABA+IB"]

def idContinueExceptions : CodeSet := .mk
  [(0x37A, 0x37A), (0x309B, 0x309C), (0xFC5E, 0xFC63), (0xFDFA, 0xFDFB), (0xFE70, 0xFE70),
   (0xFE72, 0xFE72), (0xFE74, 0xFE74), (0xFE76, 0xFE76), (0xFE78, 0xFE78), (0xFE7A, 0xFE7A),
   (0xFE7C, 0xFE7C), (0xFE7E, 0xFE7E)]

def idCompatMathContinue : CodeSet := Table.set
  ["sFBFAw9HADKBOtLAEAWAcfnDAZA5AZA5AZA5AZA5AZA"]

end TestSelection.Unicode.Listed
