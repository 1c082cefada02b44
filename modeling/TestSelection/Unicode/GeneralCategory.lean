import TestSelection.Unicode.Table

/-!
# General categories

Every code point belongs to one general category. A category has a code of two letters and a long
name; groups of categories, such as all letters, have names of their own.
-/

namespace TestSelection.Unicode.GeneralCategory

/-- The codes and long names of the categories, in the order of the table. -/
def names : List (String × String) :=
  [("Cn", "Unassigned"), ("Lu", "Uppercase_Letter"), ("Ll", "Lowercase_Letter"),
   ("Lt", "Titlecase_Letter"), ("Lm", "Modifier_Letter"), ("Lo", "Other_Letter"),
   ("Mn", "Nonspacing_Mark"), ("Mc", "Spacing_Mark"), ("Me", "Enclosing_Mark"),
   ("Nd", "Decimal_Number"), ("Nl", "Letter_Number"), ("No", "Other_Number"),
   ("Pc", "Connector_Punctuation"), ("Pd", "Dash_Punctuation"), ("Ps", "Open_Punctuation"),
   ("Pe", "Close_Punctuation"), ("Pi", "Initial_Punctuation"), ("Pf", "Final_Punctuation"),
   ("Po", "Other_Punctuation"), ("Sm", "Math_Symbol"), ("Sc", "Currency_Symbol"),
   ("Sk", "Modifier_Symbol"), ("So", "Other_Symbol"), ("Zs", "Space_Separator"),
   ("Zl", "Line_Separator"), ("Zp", "Paragraph_Separator"), ("Cc", "Control"),
   ("Cf", "Format"), ("Cs", "Surrogate"), ("Co", "Private_Use")]

/-- The groups: code, long name, and the codes of the categories in the group. -/
def groups : List (String × String × List String) :=
  [("LC", "Cased_Letter", ["Lu", "Ll", "Lt"]),
   ("L", "Letter", ["Lu", "Ll", "Lt", "Lm", "Lo"]),
   ("M", "Mark", ["Mn", "Mc", "Me"]),
   ("N", "Number", ["Nd", "Nl", "No"]),
   ("P", "Punctuation", ["Pc", "Pd", "Ps", "Pe", "Pi", "Pf", "Po"]),
   ("S", "Symbol", ["Sm", "Sc", "Sk", "So"]),
   ("Z", "Separator", ["Zs", "Zl", "Zp"]),
   ("C", "Other", ["Cc", "Cf", "Cn", "Co"])]

/-- Names in use beside the code and the long name. -/
def otherNames : List (String × String) :=
  [("Cntrl", "Control"), ("Digit", "Decimal_Number"), ("Combining_Mark", "Mark"),
   ("Punct", "Punctuation")]

/-- The category of each code point. -/
def table : List (Nat × Nat × Nat) := Table.runs
  ["aB0BXDSBUDSBOBPBSBTBSBNCSKJCSDTCS0BBOBSBPBVBMBV0CBOBTBPBTbB0BXBSEUBWBSBVBWBFBQBTB1BWBVBW",
  "BTCLBVBCCSBVBLBFBRDLBSXBBTHBYCBTICBBBCBBBCBBBCBBBCBBBCBBBCBBBCBBBCBBBCBBBCBBBCBBBCBBBCBB",
  "BCBBBCBBBCBBBCBBBCBBBCBBBCBBBCBBBCBBBCBBBCBBBCBBBCBBBCBBCCBBBCBBBCBBBCBBBCBBBCBBBCBBBCBB",
  "CCBBBCBBBCBBBCBBBCBBBCBBBCBBBCBBBCBBBCBBBCBBBCBBBCBBBCBBBCBBBCBBBCBBBCBBBCBBBCBBBCBBBCBB",
  "BCBBBCCBBCBBBCBBDCCBBCBBBCCBBCDBCCEBBCCBBCDBDCCBBCCBBCBBBCBBBCCBBCBBCCBBBCCBBCDBBCBBBCCB",
  "CCBFBBDCEFBBBDBCBBBDBCBBBDBCBBBCBBBCBBBCBBBCBBBCBBBCBBBCBBCCBBBCBBBCBBBCBBBCBBBCBBBCBBBC",
  "BBBCBBCCBBBDBCBBBCDBBCBBBCBBBCBBBCBBBCBBBCBBBCBBBCBBBCBBBCBBBCBBBCBBBCBBBCBBBCBBBCBBBCBB",
  "BCBBBCBBBCBBBCBBBCBBBCBBBCBBBCBBBCBBBCBBBCBBBCBBHCCBBCCBCCBBBCEBBCBBBCBBBCBBBCBBfCCBF1CS",
  "EEVMEOVFEHVBEBVBERVqDGBBBCBBBCBEBVBBBCCABEDCBSBBEACVBBBSDBBABBBACBBCRBBAJBdBCBBCCDBDCBBB",
  "CBBBCBBBCBBBCBBBCBBBCBBBCBBBCBBBCBBBCBBBCBBFCBBBCBTBBBCCBCCtBBqBCBBBCBBBCBBBCBBBCBBBCBBB",
  "CBBBCBBBCBBBCBBBCBBBCBBBCBBBCBBBCBBBCBBBCBBBCBWFGCIBBBCBBBCBBBCBBBCBBBCBBBCBBBCBBBCBBBCB",
  "BBCBBBCBBBCBBBCBBBCBBBCBBBCBBBCBBBCBBBCBBBCBBBCBBBCBBBCBBBCBBBCBBBCBBBCCBBCBBBCBBBCBBBCB",
  "BBCBBBCBBCCBBBCBBBCBBBCBBBCBBBCBBBCBBBCBBBCBBBCBBBCBBBCBBBCBBBCBBBCBBBCBBBCBBBCBBBCBBBCB",
  "BBCBBBCBBBCBBBCBBBCBBBCBBBCBBBCBBBCBBBCBBBCBBBCBBBCBBBCBBBCBBBCBBBCBBBCBBBCBBBCBBBCBBBCB",
  "BBCBBBCBBBCBBBCBBBCBBBCBBBCBAgBBCABEGSjBCBSBNCACWBUBAnBGBNBGBSCGBSCGBSBGIA1FEAEFCSLAG1DT",
  "CSBUCSCWLGBSB1DSaBFBEKFVGKJESCFBGdDFBSBFHGB1BWGGCECGBWEGCFKJDFCWBFOSBAB1BFBG4F1GCAzCFLGB",
  "FOAKJbBFJGCEBWDSBECABGCUWFEGBEJGBEDGBEFGCAPSBAZFDGCABSBALFFAYFBVGFBAC1FAJGjBFBEYGB1aBGBH",
  "wBFBGBHBGBFDHIGEHBGCHBFHGKFCGCSKJBSBEPFBGCHBAIFCACFCAWFBAHFBABFDAEFCABGBFDHEGCACHCACHBGB",
  "FIABHEACFBADFCGCAKJCFCUGLBWBUBFBSBGCACGBHBAGFEACFCAWFBAHFBACFBACFBACFCABGBADHCGEACGCADGD",
  "ABGHAEFBABFHAKJCGDFBGBSKACGBHBAJFBADFBAWFBAHFBACFBAFFCABGBFDHFGBACGBHBACHBGCABFPACFCGCAK",
  "JBSBUHABFGGBABGCHBAIFCACFCAWFBAHFBACFBAFFCABGBFBHBGBHEGCACHCACHBGHACGBHEACFBADFCGCAKJBWB",
  "FGLKABGBFBAGFDADFBAEFDACFBABFBACFDACFDADFDAMFEACHBGCHDADHBADHBGCABFGABHOAKJDLGWBUBWFABGD",
  "HBGIFBADFBAXFBAQFCABGBFDGEHBADGBAEGHACGBADFCABFCACFCGCAKJHABSHLBWBFBGCHBSIFBADFBAXFBAKFB",
  "AFFCABGBFBHBGFHBABGCHBACHCGHACHGACFBACFCGCAKJBACFBHMACGCHJFBADFBAjBFCGBFDHEGBADHBADHBGBF",
  "BWEADFBHHLDFCGCAKJJLBWGFBABGCHBASFDAYFBAJFBABFCAHFDABGEADHDGBABGBAIHGAKJCACHBSMAqBFBGCFH",
  "GEABUGFBEIGBSKJCSfBACFBABFBAFFBAYFBABFBAKFBGCFJGBFCAFFBABEBAHGBAKJCAEFaBABFDWPSBWBSDWCGG",
  "WKJKLBWBGBWBGBWBGBOBPBOBPCHIFBAeBFEAOGBHFGBSCGFFLGBAeBGBAIWBGGWBACWFSEWCSfBAlBFCHEGBHGGB",
  "HCGCHCGBFKJGSGFCHCGEFDGBFDHCFHHDFEGNFBGCHCGGHBGBFBHKJDHBGCWgBBBABBFABBCAlBCBSBEDCjKFBAEF",
  "CAHFBABFBAEFCAjBFBAEFCAbBFBAEFCAHFBABFBAEFCAPFBAzBFBAEFCAdCFCADGJSULDAQFKWGAwCBCAGCCABNm",
  "TFBWBSRFBX0FBOBPDAlCFDSDKIFHASFDGBHJATFCGBHCSJASFCGMANFBADFBACGMAuBFCGBHHGIHBGCHLGDSBEDS",
  "BUBFBGCAKJGAKLGAGSBNESDGB1BGKJGAdBFBEvBFHAFFCGcBFBGBFFAgCFKA5FBADGEHCGDHEACHBGGHDGEABWDA",
  "CSKJ4FCAFFLAmBFEA0FGAKJBLDAcBWXFCGCHBGCACSvBFBHBGBHHGBABGBHBGCHIGGHKGCABGKJGAKJGAHSBEGSC",
  "AOGBIQGrBAEGBHpBFBGBHFGBHBGFHBGCHIFBACSKJHSKWJGJWDSCGBH4FBHEGCHCGBHDGCFKJmBFBGBHCGDHBGBH",
  "DGCHIAESeBFIHIGCHCGDAFSKJDADFKJ4FGECSJCBBBCFAlBBCADBISIADGBSNGBHHGEFBGGFBGCFBHCGBFFAmBC+",
  "BENCBEcBCfBEaCGBBBCBBBCBBBCBBBCBBBCBBBCBBBCBBBCBBBCBBBCBBBCBBBCBBBCBBBCBBBCBBBCBBBCBBBCB",
  "BBCBBBCBBBCBBBCBBBCBBBCBBBCBBBCBBBCBBBCBBBCBBBCBBBCBBBCBBBCBBBCBBBCBBBCBBBCBBBCBBBCBBBCB",
  "BBCBBBCBBBCBBBCBBBCBBBCBBBCBBBCBBBCBBBCBBBCBBBCBBBCBBBCBBBCBBBCBBBCBBBCBBBCBBBCBBBCBBBCB",
  "BBCBBBCBBBCBBBCBBBCBBBCBBBCBBBCBBBCBBBCBBBCBBBCBBJCBBBCBBBCBBBCBBBCBBBCBBBCBBBCBBBCBBBCB",
  "BBCBBBCBBBCBBBCBBBCBBBCBBBCBBBCBBBCBBBCBBBCBBBCBBBCBBBCBBBCBBBCBBBCBBBCBBBCBBBCBBBCBBBCB",
  "BBCBBBCBBBCBBBCBBBCBBBCBBBCBBBCBBBCBBBCBBBCBBBCBBBCBBBCBBBCBBBCBBBCBBJCIBGCCAGBCAICIBICI",
  "BGCCAGBCAICBABBBABBBABBBABBICIBOCCAICIDICIDICIDFCBACCEBBDBVBCDVDCBACCEBBDDVECCACCEBBADVI",
  "CFBDVCADCBACCEBBDCVBALXF1GNCSBQBRBOCQBRBOBQISBYBZF1BXJSBQBRESCMDSBTBOBPLSBTBSBMKSBXF1BAK",
  "1BLBECAGLDTBOBPBEKLDTBOBPBANEDAbBUPANGEIBGDIMGPACWBBEWBBCWBCDBCCDBBCBWBBCWBTFBGWBBBWBBBW",
  "BBBWEBBWBCEBBCEFBCCWCCCBFTBBECBWBTCWBCBWQLdBKBBBCEKBLCWEAFTFWCTEWBTCWBTCWBTHWBT5WCTCWBTB",
  "WBT5WmITIWBOBPBOBPUWCTHWBOBPrCWBT4WZTiBWGTiCWWALWVA8BLoCWWLxFWBTJWBTwBWITpDWBTyHWBOBPBOB",
  "PBOBPBOBPBOBPBOBPBOBP4LmBWFTBOBP5TBOBPBOBPBOBPBOBPBOBPQTaIWdETBOBPBOBPBOBPBOBPBOBPBOBPBO",
  "BPBOBPBOBPBOBPBOBP+BTBOBPBOBPaBTBOBPcITqBWVTCWGThBWCAaBWBAjDWqBBqBCBBBCDBCCBBBCBBBCBBBCE",
  "BBCBBCCBBGCCEDBBCBBBCBBBCBBBCBBBCBBBCBBBCBBBCBBBCBBBCBBBCBBBCBBBCBBBCBBBCBBBCBBBCBBBCBBB",
  "CBBBCBBBCBBBCBBBCBBBCBBBCBBBCBBBCBBBCBBBCBBBCBBBCBBBCBBBCBBBCBBBCBBBCBBBCBBBCBBBCBBBCBBB",
  "CBBBCBBBCBBBCBBBCBBBCBBBCBBBCBBBCBBCCGWBBBCBBBCDGBBBCFAESBLCSgBCBABCFABCCAyBFHABEBSOABGX",
  "FJAHFBAHFBAHFBAHFBAHFBAHFBAHFBAHFBAaBGCSBQBRBQBRDSBQBRBSBQBRJSBNCSBNBSBQBRCSBQBRBOBPBOBP",
  "BOBPBOBPFSBEKSCNESBNBSBONSCWDSBOBPBOBPBOBPBOBPBNcBA0WBAzCWMAwGW0AQWBXDSBWBEBFBKBOBPBOBPB",
  "OBPBOBPBOBPCWBOBPBOBPBOBPBOBPBNBOCPBWJKEGCHBNFECWDKBEBFBSCWBAwCFCACGCVCEBFBN6CFBSDEBFFAl",
  "BFBA-CFBACWELKWaBFgBWJABWQF5WBAKL4WILBWPLaBWKLhBWPLaKWaoGFaCWvqUFBExdBFDAxBWJAiBFGECSmIF",
  "BEDSQFKJCFUABBBCBBBCBBBCBBBCBBBCBBBCBBBCBBBCBBBCBBBCBBBCBBBCBBBCBBBCBBBCBBBCBBBCBBBCBBBC",
  "BBBCBBBCBBBCBBBCBFBGDIBSKGBSBEBBBCBBBCBBBCBBBCBBBCBBBCBBBCBBBCBBBCBBBCBBBCBBBCBBBCBBBCCE",
  "CGgCFKKCGGSIAXVJECVBBBCBBBCBBBCBBBCBBBCBBBCBBDCBBBCBBBCBBBCBBBCBBBCBBBCBBBCBBBCBBBCBBBCB",
  "BBCBBBCBBBCBBBCBBBCBBBCBBBCBBBCBBBCBBBCBBBCBBBCBBBCBBBCBBBCBBBCBBBCBBBCBBBCBBBCBBBCBEICB",
  "BBCBBBCCBBCBBBCBBBCBBBCBBBCBECVBBBCBBBCBFBBBCBBDCBBBCBBBCBBBCBBBCBBBCBBBCBBBCBBBCBBBCBBB",
  "CFBBCFBBCBBBCBBBCBBBCBBBCBBBCBBBCBBBCEBBCBBBCCBBCCABBBCBABCBABCBBBCBBBCBBBCBBVADEBBBCBFC",
  "EBCHFBGDFBGEFBGXFCHCGBHEWBGDAGLCWBUBWGAuBFESIACHsBFQHCGIACSKJGASGGFDSBFBSCFBGKJ2FIGCSXFL",
  "GCHLABS3FDADGBHpBFBGCHEGCHCGDHNSBABEKJEACSFFBGBEJFKJFFBAjBFGGCHCGCHCGJADFBGIFBGBHCAKJCAE",
  "SQFBEGFDWBFBHBGBHsBFBGBFDGCFCGFFCGBFBGBFYACFBECSLFBHCGCHCSBFCEBHBGKAGFCAGFCAGFJAHFBAHFBA",
  "lBCBVEEJCBECVEAqCCdBFCHBGCHBGCHBSBHBGCAKJGAe9KFMAXFEArBFEAaaC2aiG3oLFCAkDFgBAHCMAFCFABFB",
  "GKFBTNFBAFFBABFBACFBACFBAmDFRVQAlLFBPBOQWaCFCAwBFHABWaBAMFBUDWQGHSBOBPBSGAQGBSCNCMBOBPBO",
  "BPBOBPBOBPBOBPBOBPBOBPBOBPCSBOBPESDMDSBAESBNBOBPBOBPBOBPDSBTBNDTBABSBUCSEAFFBAhEFCAB1BAD",
  "SBUDSBOBPBSBTBSBNCSKJCSDTCS0BBOBSBPBVBMBV0CBOBTBPBTBOBPBSBOBPCSKFBEnBFCE5FDAGFCAGFCAGFCA",
  "DFDACUBTBVBWCUBABWETCWKAD1CWCAMFBA0FBATFBACFBAPFCAOFcBA7DFFADSEAnBLDAJWvBKELRWCLDWBANWDA",
  "BWpBAnBWBGcEA3FDArBFPABG1LEAaBFELJAUFBKIFBKFAgBFFGFA4FBABSeBFEAIFBSFKkBAiBBiBCoCFCAKJGAe",
  "BBEAeBCEAiBFIAuBFLABSLBBAPBBAHBBACBBALCBAPCBAHCBACCDAuBFMAxJFJAWFKAIFYAGEBAkBEBAJEfCAGFC",
  "ABFBAmBFBACFDABFCAXFBABSILXFCWHL5FIAJLqBATFBACFFAFLWFGLDABS0FFABSaCAyBFEACLCFQLCAoBLBFDG",
  "BACGFAEGEFBADFBA3FCADGEABGJLHAJSHA3FCLBS3FDLaBAIFBW2FCGEAFLHSJAwBFDAHSWFCAILTFFAILSFHAES",
  "MAHLqCAjCFxBAtBBNAtBCHAGLeBFEGIAKJGAKJEFBEBFWBDAFGBNBEWCIACTqGA5LBAkBFBACGBNCACFQADFxBAE",
  "G3FKLBFIAWFLGELFSWASFEGESgBAVFHLUAXFJABHBGBHvBFPGHSEAULKJBGCFCGBFJADGBHnBFDHEGCHCGCSB1ES",
  "BGKAB1CAZFHAKJGADGeBFFGBHIGBAKJESBFCHBFIAdBFBGCSBFJACGBHqBFDHJGCHEFESEGBSBHBGKJBFBSBFDSB",
  "AULLASFBAZFDHDGCHBGBHCGGSBGCFBG-BAHFBABFBAEFBAPFBAKFBSGApBFBGDHIGFAKJGACGCHBAIFCACFCAWFB",
  "AHFBACFBAFFBACGBFCHBGEHCACHCADHCABFGABHFAFFCHCAHGDAFGLAKFBABFCABFBAgBFBABFDHGGBABHCABHBA",
  "EHBACHBGBHBGBFBGBFCSBACSIACG3AvBFDHIGCHDGBHBGEFFSKJCSBABSBGDF4AqBFDHGGBHBGEHCGBHCGCFBSBF",
  "IAKJgFApBFDHEGCAEHCGBHCGXSEFCGcBAqBFDHIGCHBGBHCGDSBFLAKJGANSTAlBFBGBHBGCHGGBHBGBFBSGAKJG",
  "AUJ2A1FCABGBHBGCHEGBHFGEAKJCLDSBWHFzFAmBFDHJGBHCGBSeDAaBBaBCKJJLMAIFCABFCAIFBACFBAYFGHBA",
  "CHCACGBHBGBFBHBFBHBGDSJAKJgCAIFCAhBFDHEGCACGEHBGBFBSBFBH1ABFKGiBFGGBHBFEGISBGIABFGGCHDGo",
  "BFNGBHCGDSBFFSNAjCFHAKSwFAbBFBSOAKJGAJFBAfBFBHHGBAGGBHBGBFFSKAKJTLDACS4FCAWGBABHHGBHCGBH",
  "CGjCAHFBACFBAgBFGGDABGBACGBAHGBFBGIAKJGAGFBACFBAaBFFHBACGBACHBGBHBGBFHAKJwJATFCGCHCSHACG",
  "BFBHNFBAcBFCHFGDACHBGBHBGNSKJBGvCABFPAVLIWEURWNABS62FgDApDKBAFSLAeGFmsCAbDFCSNAqbBFQ1BGG",
  "FPGKA78DFFAhSFzvGA4FMGDHDGKJgwBAzRFHA5FBAKJEACSpCFBAKJGA4FCAFGBSKAqBFHGFSEWEEBSBWKAKJBAH",
  "LBAVFFATFqNADEiBFCEDSKJgGAaBBaBCXLESfDAlCFEABGBFxBHHAEGNEaCACEBSBEBGLACHOAy+FFIAwgBFjBAK",
  "FhxIAEEBAHEBACEBAdJFPABF3ADFCABFOAEFIAmMFeiCAlDFFANFDAJFHAKFCABWCGBSE186DAqHWKJGAuNWmCAo",
  "BGCAXGJAuDW8BAwHWKAhBWCA8BWCHDGDWGHI1IGCWHG4WEG9BWVAcCWDGBW6DAULMAULMAxCWJAZLhEA0B0C0BHC",
  "BASC0B0CBBBACBCABBCACBCAEBBAIBECBABCBAHCBALC0B0CCBBAEBCAIBBAHBBA0CCBBAEBBAFBBABBDAHBBA0C",
  "0B0C0B0C0B0C0B0C0B0C0B2CCAZBBTZCBTGCZBBTZCBTGCZBBTZCBTGCZBBTZCBTGCZBBTZCBTGCBBBCCAsBJaQW",
  "xBGEWsBGIWBGOWBGCWFSPAFGBAPGqcBAKCBFUCGAGCvGAHGBARGCAHGBACGBAFGFA-BEbBABGqDAnBFDAHGHECAK",
  "JEABFBWaKA4FBGRAmBFEGKJFABUqOA1FBEEGKJwGA4FCGBFKJEABSaPAHFBAEFBACFBAPFBAfGFCAJLHGjBAcBBc",
  "BCHGBEEAKJEACSrYA7BLBWDLBUELmCAnBLBWPLcGAEFBA1FBACFBABFCABFBAKFBAEFBABFBABFGABFEABFBABFB",
  "ABFBADFBACFBABFCABFBABFBABFBABFBABFBACFBABFCAEFBAHFBAEFBAEFBABFBAKFBARFFADFBAFFBARFuBACT",
  "oIAmBWEAeDWMAPWCAPWBAPWBAfBWKANLbFWyBA3WNAmBWEAJWHACWOAGW6EA7HWFVyWWEARWDANWDAxDWEA+CWGA",
  "MWEABWPAMWEAyBWIAKWGAiBWIA4WCAMWEACW-BAuKWMAOWCANWDAKWFAyBWHAPWCALWGAJWHAtEWBA8CWKJgaBAa",
  "xjBFaBA6bEFGA-GFCAcuFFOArjHFPAoTFcnCA-QFcpBAl6EFFAadEFrcxVAB14AaD1aEAqHGqq+BA-++B3CA-++B",
  "3CA"]

/-- The characters of the categories with the given codes. -/
def ofCodes (codes : List String) : CodeSet :=
  Table.select table fun value => (names[value]?).any fun name => codes.contains name.1

/-- The characters of a category or group, by its long name. Surrogates are not characters. -/
def ofName? (name : String) : Option CodeSet :=
  match groups.find? (·.2.1 == name) with
  | some (_, _, codes) => some (ofCodes codes)
  | none =>
    if name == "Surrogate" then none
    else (names.find? (·.2 == name)).map fun entry => ofCodes [entry.1]

end TestSelection.Unicode.GeneralCategory
