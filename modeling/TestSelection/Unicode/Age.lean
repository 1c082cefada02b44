import TestSelection.Unicode.Table

/-!
# Ages

The age of a character is the version of the standard that first assigned it.
-/

namespace TestSelection.Unicode.Age

/-- The versions in ascending order, after the name for what is not assigned. -/
def names : List String :=
  ["Unassigned", "V1_1", "V2_0", "V2_1", "V3_0", "V3_1", "V3_2", "V4_0", "V4_1", "V5_0",
   "V5_1", "V5_2", "V6_0", "V6_1", "V6_2", "V6_3", "V7_0", "V8_0", "V9_0", "V10_0", "V11_0",
   "V12_0", "V12_1", "V13_0", "V14_0", "V15_0", "V15_1", "V16_0"]

/-- The age of each code point. Surrogates are no characters and have none. -/
def table : List (Nat × Nat × Nat) := Table.runs
  ["wPBEE4BIEBGBHSEDHLIOJzCBFECHpBBBEKBFERHgCBJEBGIHFIDHCBBENGEKCBCKCABBDJBBBQEAHBBABBBAUBBA",
  "mBBBKHBBECGBBBEBBBEBBBEBBBESBCFBGFHEIBEMBBEcCBBEMBBEjBBBKCECGEEvBBCGCBCGCBCGBJ2BCEIBCICB",
  "GJQGEJQKCLCMIQBAgBBCAHBBUhBBBUBBBECACQBNBARCBINCKBBJJBBCDIIA1BEABUFBLAEHBNBQFKBIBBJHFKBB",
  "BPBYBIBBBM0BFKTBDEDHGIBMOBCGiCBCEFBBEPBBE4BCHKBFEBHOEBA4EDH1ECADH4ISKrBEBGOA7BJCADUoBLCA",
  "PLBA2MCABMBALTFA5YBACYFAB1IYBNBQLNGQCRBYISKXLYBUPSBR1NBQBLDBBHvBBCMSBBLBMFBBLCMZBCKFMBQC",
  "LCJBICJBQDBBAIBCACBCAWBBAHBBABBDAEBCABBBHHBCACBCADBBIIABBEACBBAFBCAVBBLCTBUCABHBBBHBAGBE",
  "ACBCAWBBAHBBACBBACBBACBCABBBAFBEACBCADBDABKHAEBBABBHAPBBKBUKADBBAHBBHBBBADBBAWBBAHBBACBB",
  "AFBCAKBBADBBADBCABBPABBDHCAKBBNBHHABRGTBADBBAIBCACBCAWBBAHBBACBBABHEBCAIBBKCACBCADBHABXC",
  "BEACBBADBCKCALBBHGMKACBBAGBDADBBAEBDACBBABBBACBDACBDADBDAIBBIDBEAFBDADBBAEBCABKGABBOABIM",
  "BIHFABQDBBUIBBADBBAXBBAKBBQFBCABYBKHBBADBBAEBHACBBACKBRCABYCACBCKCAKBHABVIKBSBQCBBUIBBAD",
  "BBAXBBAKBBAFBCACHHBBADBBAEBHACBGABYBBBACBCJCAKBBACJBZMABTBQCBBXIBBADBBAXBBMQBBMCTBKGBBKB",
  "ADBBAEBBMBSEADSBBHSBRCBCKCAKBGKDSHKBABXCEBASEDAYEBAJEBABECAHEDABEEAGEBABEBAIEGAKQCADEMA6",
  "BBEA3BfBACBBABBBABVCBBVBBBABVBBGVEBBVHBBVDBBABBBABBCVCBBVNBBVDBCAFBBABBBAGBBZBAKBCACBCNa",
  "BAiCCBAbBCBECKEA1CEMGCBEBCBAVCDEHCBEBCDEBAPEBABKBECIDKELCMfBAcBEBKFEBKCEBKHEDKEEGK0EaCKE",
  "LCKgBBBABNFABNCAhBBCGCIBBBIDN6CBFLeCBFLsCBGLHEBI+BEBIBEBAEECAHEBABEBAEECAhBEBIBEBAEECA5E",
  "BIBEBAEECAHEBABEBAEECAHEBIHEBAXEBI5EBIBEBAEECAHEBIhBEBITECACMCI2EDA0IGAvCEBRCAGRCABLwTEJ",
  "L3EDArCEIQHANGBYHGBYJABYXGJAUGMANGBADGBACGMA9CEBHCAKEGAKHGAPEBYKEGAyCEBUHAkBEBKFAgCLKA3H",
  "CQBAMHEAMHEABHDAkBHCAFHLAkBICLEA0IGAKIBLDACIaBH2ICACI+BLBA3LCALLGAKLGAOLCAPQCXOYrBAmCJBY",
  "BAC1nBJCYB1lBKDNMKGNuBMIAEMyBKDAPKDAtBKJSC1FAlBUCADUINIAdBLENBTCQBVFAmDHyCIHJ2KPQETBYBSB",
  "MBLCJ7EBBCEK6CBGKWBCAGBCAgBBCAGBCAIBBABBBABBBABBBA5BCAvBBBAPBBAOBCAGBBATBCADBBAJBBApBBBE",
  "XBBGGEFGCHCIBGHIFGBKBAEPHBBGCA1BBAFIIMDALBBCBDDECGEIDLBMBODQBRBTBYPASBCEHGBIEJBKPAzBBCEB",
  "HBIPGBICJBKDLqBBBEBJEKBLCREA7CBJEMGsHBOGBBBEzDBBEBG4EuBGCHLIMJBLLMHQESBTfBBCED1WALBVAlEB",
  "UGBHwEBKGqCBIEIGUBCHCGBIBEwCBCEMGCIKGIHLIBKCLCHQIBJKKDLEKKLBMTLBMBLEMYLBQEBBMEBCM2BBMdBB",
  "BMBBBMEBDMBBBLHBCMHBOG5BDMYBBMOBBMHIEJBNBKBNCM2GEKQGaIEaQGOHGIHJFKEJjBKDQFKFL0QCAaBQBABX",
  "cBQDUMQBVIQBTZUERPUBVpBIBYpBIBYNJDKBLDKEJGKCLlDIHLCNFAnBIBABNFABNCAwBICNHABIBMOABMXIJAHI",
  "BAHIBAHIBAHIBAHIBAHIBAHIBAHIBAaBKYIEKCITKBLKNHQCSFTFUBVDXLYcBA0EBAzCEMAwGE0AMEE0yBBDEDGB",
  "EBBBAuCBCGCAGBCG-CBBGFAiBBBKBTBUBA-CBBAQBYEDMFXQIUKC1JAB0QG3BCHBAeBBMLBHPG2BCHBIsBBPGMBE",
  "HpBBBWxDBEHdDBCH5BBHwnGEKXaCHgnUBWIIKILBNJRVTFUNXDYneBEDASECGQEBGMEBGDEBGBEJAqBLmJKUAaBK",
  "CMSKIN2KGQBRBNyCLIAXIEJFKCJlDKCMBRCMCNMQKMBNDQBSBUCQGRCUGVCYFVEXD1CACYBABYBAFYD1VADYCXBQ",
  "CNBMFKmBIBXDAKLGAyBJIAfCKBSIAMKGA2LCRCUuCKLABK3LDAoCLBALLEACL5QBAxBKJAOKCAKKCAEK2LEQdCLY",
  "AFLXNKAGMCAGMCAGMJAHMBAHMBAqBQERCQCVEXEAqCRoBLCAKLGAe9KCMAXLEArBLeaCAorGBCN7BGDLCAkDIg",
  "BAHBMAFBFABEZBBAFBBABBBACBBACBBAmDBQMBYQAnLBQYaCBCAwBBHABYaBFMBBGBHCYQGKIGAEBDKHQCRVBCGC",
  "HKBBATBBAEBEADBBGBBBAhEBCABBBA-CBCG-CBDAGBCAGBCAGBCADBDAHBBAHBKADEBDDBMHBA0HBATHBACHBAPH",
  "CAOHcBA7DHFADHEAnBHDAJHlCICQCSBAMKBXDABQpBAoBKcEA3KDArBKPA2QEA5FBQEFJADT1FFAlBQFA4HBABHe",
  "BIEAOIkBAgBFCHgBFqCHCAKHGAeBSEAeBSEAiBQIAuBQLABQLYBAPYBAHYBACYBALYBAPYBAHYBACYDAuB1MAxJQ",
  "JAWQKAIQYAGYBAkBYBAJYfCAGHCABHBAmBHBACHDABHCABHWLBAJL+BQIAJQqBATRBACRFAFR0JCLDABJ0KFABKa",
  "CAyBNEACRCNQRCAoBREIBACIFAIIBADIBA1ICUCADIEAJIBUHAJIHAaBLaBQaBAhBQEAMQJAwBLDA3LCA1LFAILS",
  "QHAEQMAHQqCAjCLxBAtBRNAtBRHAGRiBUIAKUGAgB1DA31IAC1qGA5LBAkBXBADXCACXQAD1xBAB1DZiBUIAkBUW",
  "A0YgBA2XUAXVJAoCMEA4MGYJABQcCLBYKABUCAZNHAKNGAvBNBAONDUBXIAhBQJAjCNERBQCXKNBQFRBAUQLASQB",
  "AlBQBSDZ-BAHRBABRBAERBAPRBALRGA7BQFAKQGABRDQBAIQCACQCAWQBAHQBACQBAFQBABUJQCACQCADQCABRGA",
  "BQFAHQCAHQDAFQLAK1BAB1CAB1BAgB1BAK1BAB1CAB1BAE1BAK1BAC1IAC13A6CSBXBSBABSBUBVCX4AiCQIAKQg",
  "FAwBQCASQURcBAfCQLAKQGANSTAyBNBVBYGAKNGAU12A0RBUCAPREAQRHYzFA8BUeDAtCQMABQHXCABXCAIXBACX",
  "BA4XBACXCAMXJAKXgCAIVCAoBVCALV1AiCTIAuBTCVXTBUFTNAQYzBQHAKZwFAcB1OAK1GAJSBAnBSBAOSKA3SDA",
  "aBSCAWSBAOSjCAHTBACTBAmBTDABTBACTBAJTIAKTGAGUBACUBAfBUBACUBAGUHAKUwJAZUHARZBAjBZDA2ZB1vC",
  "ABXPAsBVNABVp1JkBQBRgDAdDJMQBAEJBQLAeGRmsCAdDYNApbBLBZJV3ZKA78D1FAhSRzvGA6B1gwBAzRMHA5QB",
  "AKQEACQpCYBAKYGA4QCAGQKAgCQKAKQBAHQBAVQFATQqNA6B1gGA7CUfDAfCNGVEABVpBNJVHARNaCABSBTCVBXL",
  "ACXOAn+FSFUGVIAtXSdPXjBAB1JXhxIAEYBAHYBACYBACM9ITEYPABZ3ADVCABZOAEVIAmMTeiCAlDQFANQDAJQH",
  "AKQCAIQ86DA6H1GAuN1mCAoBYCAXYJAuDY8BAwHFKAhBFCABKuFFLRCYVAgCI6DAUZMAUUMAxCHJASJHUhEAvCFB",
  "AhCFBACFCABFCACFCAEFBAMFBABFBAEFBHCFBAbCFBAEFCAIFBAHFBA2FBAEFBAFFBABFDAHFBAsKFCICAcJFCJC",
  "AsBFmURPAFRBAPRqcBA5YGAGZvGAHSBARSCAHSBACSBAFSFA-BZbBABZqDAnBVDAOVCAKVEACVaKA5YRA6BVFABV",
  "qOAkBZwGAlB1EAB1aPAHYBAEYBACYBAPYBAfGQCAQQjBAlCSBVEAKSEACSrYAeCUmCA9BVcGAENBA1NBACNBABNC",
  "ABNBAKNBAENBABNBABNGABNEABNBABNBABNBADNBACNBABNCABNBABNBABNBABNBABNBACNBABNCAENBAHNBAENB",
  "AENBABNBAKNBARNFADNBAFNBARNuBACNoIAmBKEAeDKMAPMCAOMBQBAPMBAPMWQKALLCQDX5LBUBMBLLMBLBMBLC",
  "MBLDMBLDMFLIMBLHMBLKMCNBVDXJMBLBMCLCMBLKMELCMBLKMSSBXyBA0MBLCMNAcBLJMBSEAJLHACMOAGT6EAbB",
  "MMQDRGMBQgCMBQCRUMMQfBMBQFMEQFRMQRMHQIR+BMBQBMBQwFMBQEMCQBR-BMCQENHQFRYMSQBSjBQBSwCQFMBN",
  "QMBNDMBNBMBNBMBNBMBNDMBNGMCNEMBNBMCNEMBNMMCQCRLMqBQgCMKQBRCSCTBVCXEABZDYNQDAEQDSCTBUBVCX",
  "DAuDMDZEAFZvCQEUBZGAMVEABYPAMQEAyBQIAKQGAiBQIA4QCACXK1EAC1-BAMTBXDVJRGSBTISITBSCTMSBVMSB",
  "TDUPSNTFUBVBXEUCXBYBUBVEUFRNSGTLUCXGVDXCVKUGVBRCUIVBXBYDVXTZUuCVMAOUCAEVBXDZDVCYDADVEXCZ",
  "B1FAB1GVTXEYDZHXEYDZB1BZDXDYB1HACZHXDYCZB1CAB1IYBZB1GAHYCZHAtEXBAxBXfB1KXeaBACCxwjBFHXCY",
  "aBAvbELEYBZGA-GMCAcuFROArjHTPAoT0cnCA-QFapBACCl6EXFAadEZocxBACC-++BACC-++BACC-++BACC-++B",
  "ACC-++BACC-++BACC-++BACC-++BACC-++BACC-++BACCBABF4AaDFaEAqHHoq+BAcaaEC"]

/-- The characters that a version knows: those of its age and of every earlier one. -/
def upTo? (name : String) : Option CodeSet :=
  if name == "Unassigned" then none
  else (names.findIdx? (· == name)).map fun index =>
    Table.select table fun value => 0 < value && value ≤ index

end TestSelection.Unicode.Age
