import TestSelection.Unicode.Table

/-!
# Scripts

Every code point belongs to one script; those that belong to none in particular are `Common`,
`Inherited` or `Unknown`. Some characters are used in several scripts: their script extensions
list them all, and those of any other character are its script alone.
-/

namespace TestSelection.Unicode.Script

/-- The codes and names of the scripts, in the order of the table. -/
def names : List (String × String) :=
  [("Zzzz", "Unknown"), ("Adlm", "Adlam"), ("Ahom", "Ahom"), ("Hluw", "Anatolian_Hieroglyphs"),
   ("Arab", "Arabic"), ("Armn", "Armenian"), ("Avst", "Avestan"), ("Bali", "Balinese"),
   ("Bamu", "Bamum"), ("Bass", "Bassa_Vah"), ("Batk", "Batak"), ("Beng", "Bengali"),
   ("Bhks", "Bhaiksuki"), ("Bopo", "Bopomofo"), ("Brah", "Brahmi"), ("Brai", "Braille"),
   ("Bugi", "Buginese"), ("Buhd", "Buhid"), ("Cans", "Canadian_Aboriginal"),
   ("Cari", "Carian"), ("Aghb", "Caucasian_Albanian"), ("Cakm", "Chakma"), ("Cham", "Cham"),
   ("Cher", "Cherokee"), ("Chrs", "Chorasmian"), ("Zyyy", "Common"), ("Copt", "Coptic"),
   ("Xsux", "Cuneiform"), ("Cprt", "Cypriot"), ("Cpmn", "Cypro_Minoan"), ("Cyrl", "Cyrillic"),
   ("Dsrt", "Deseret"), ("Deva", "Devanagari"), ("Diak", "Dives_Akuru"), ("Dogr", "Dogra"),
   ("Dupl", "Duployan"), ("Egyp", "Egyptian_Hieroglyphs"), ("Elba", "Elbasan"),
   ("Elym", "Elymaic"), ("Ethi", "Ethiopic"), ("Gara", "Garay"), ("Geor", "Georgian"),
   ("Glag", "Glagolitic"), ("Goth", "Gothic"), ("Gran", "Grantha"), ("Grek", "Greek"),
   ("Gujr", "Gujarati"), ("Gong", "Gunjala_Gondi"), ("Guru", "Gurmukhi"),
   ("Gukh", "Gurung_Khema"), ("Hani", "Han"), ("Hang", "Hangul"), ("Rohg", "Hanifi_Rohingya"),
   ("Hano", "Hanunoo"), ("Hatr", "Hatran"), ("Hebr", "Hebrew"), ("Hira", "Hiragana"),
   ("Armi", "Imperial_Aramaic"), ("Zinh", "Inherited"), ("Phli", "Inscriptional_Pahlavi"),
   ("Prti", "Inscriptional_Parthian"), ("Java", "Javanese"), ("Kthi", "Kaithi"),
   ("Knda", "Kannada"), ("Kana", "Katakana"), ("Kawi", "Kawi"), ("Kali", "Kayah_Li"),
   ("Khar", "Kharoshthi"), ("Kits", "Khitan_Small_Script"), ("Khmr", "Khmer"),
   ("Khoj", "Khojki"), ("Sind", "Khudawadi"), ("Krai", "Kirat_Rai"), ("Laoo", "Lao"),
   ("Latn", "Latin"), ("Lepc", "Lepcha"), ("Limb", "Limbu"), ("Lina", "Linear_A"),
   ("Linb", "Linear_B"), ("Lisu", "Lisu"), ("Lyci", "Lycian"), ("Lydi", "Lydian"),
   ("Mahj", "Mahajani"), ("Maka", "Makasar"), ("Mlym", "Malayalam"), ("Mand", "Mandaic"),
   ("Mani", "Manichaean"), ("Marc", "Marchen"), ("Gonm", "Masaram_Gondi"),
   ("Medf", "Medefaidrin"), ("Mtei", "Meetei_Mayek"), ("Mend", "Mende_Kikakui"),
   ("Merc", "Meroitic_Cursive"), ("Mero", "Meroitic_Hieroglyphs"), ("Plrd", "Miao"),
   ("Modi", "Modi"), ("Mong", "Mongolian"), ("Mroo", "Mro"), ("Mult", "Multani"),
   ("Mymr", "Myanmar"), ("Nbat", "Nabataean"), ("Nagm", "Nag_Mundari"),
   ("Nand", "Nandinagari"), ("Talu", "New_Tai_Lue"), ("Newa", "Newa"), ("Nkoo", "Nko"),
   ("Nshu", "Nushu"), ("Hmnp", "Nyiakeng_Puachue_Hmong"), ("Ogam", "Ogham"),
   ("Olck", "Ol_Chiki"), ("Onao", "Ol_Onal"), ("Hung", "Old_Hungarian"),
   ("Ital", "Old_Italic"), ("Narb", "Old_North_Arabian"), ("Perm", "Old_Permic"),
   ("Xpeo", "Old_Persian"), ("Sogo", "Old_Sogdian"), ("Sarb", "Old_South_Arabian"),
   ("Orkh", "Old_Turkic"), ("Ougr", "Old_Uyghur"), ("Orya", "Oriya"), ("Osge", "Osage"),
   ("Osma", "Osmanya"), ("Hmng", "Pahawh_Hmong"), ("Palm", "Palmyrene"),
   ("Pauc", "Pau_Cin_Hau"), ("Phag", "Phags_Pa"), ("Phnx", "Phoenician"),
   ("Phlp", "Psalter_Pahlavi"), ("Rjng", "Rejang"), ("Runr", "Runic"), ("Samr", "Samaritan"),
   ("Saur", "Saurashtra"), ("Shrd", "Sharada"), ("Shaw", "Shavian"), ("Sidd", "Siddham"),
   ("Sgnw", "SignWriting"), ("Sinh", "Sinhala"), ("Sogd", "Sogdian"), ("Sora", "Sora_Sompeng"),
   ("Soyo", "Soyombo"), ("Sund", "Sundanese"), ("Sunu", "Sunuwar"), ("Sylo", "Syloti_Nagri"),
   ("Syrc", "Syriac"), ("Tglg", "Tagalog"), ("Tagb", "Tagbanwa"), ("Tale", "Tai_Le"),
   ("Lana", "Tai_Tham"), ("Tavt", "Tai_Viet"), ("Takr", "Takri"), ("Taml", "Tamil"),
   ("Tnsa", "Tangsa"), ("Tang", "Tangut"), ("Telu", "Telugu"), ("Thaa", "Thaana"),
   ("Thai", "Thai"), ("Tibt", "Tibetan"), ("Tfng", "Tifinagh"), ("Tirh", "Tirhuta"),
   ("Todr", "Todhri"), ("Toto", "Toto"), ("Tutg", "Tulu_Tigalari"), ("Ugar", "Ugaritic"),
   ("Vaii", "Vai"), ("Vith", "Vithkuqi"), ("Wcho", "Wancho"), ("Wara", "Warang_Citi"),
   ("Yezi", "Yezidi"), ("Yiii", "Yi"), ("Zanb", "Zanabazar_Square")]

/-- Codes in use beside the official one. -/
def otherNames : List (String × String) := [("Qaac", "Coptic"), ("Qaai", "Inherited")]

/-- A name that stands for two scripts and for no character. -/
def emptyNames : List (String × String) := [("Hrkt", "Katakana_Or_Hiragana")]

/-- The script of each code point. -/
def table : List (Nat × Nat × Nat) := Table.runs
  ["bCZ0kCGZ0kCpBZBkCPZBkCFZXkCBZ5kCBZbOkChBZFkCFZCNUZqD6BEnBBZDnBCAEnBBZBnBEABnBBZBnBBZDnBB",
  "ABnBBAUnBBA+BnBO0QnBfE4C6BjF4BAgBFCAsBFCADFBAxBxBIA1xBEAGxBLAFEBZGEBZOEBZDEBZaBEBZKEL6B0",
  "EB6BmDEBZcBEOqEBA8BqECADqEqBEsB7EOA7BjDCADjDoBdECAPdEBA2vCCABvCBALqEFA5EBACEFAlCEBZ3ErCa",
  "BE6BPaBCZ0aBELBAILCACLCAWLBAHLBABLDAELCAJLCACLCAELIABLEACLBAFLCAZLCADqBBAGqBEACqBCAWqBBA",
  "HqBBACqBBACqBBACqBCABqBBAFqBEACqBCADqBDABqBHAEqBBABqBHARqBKADoBBAJoBBADoBBAWoBBAHoBBACoB",
  "BAFoBCAKoBBADoBBADoBCABoBPAEoBCAMoBHAHoBBADyDBAIyDCACyDCAWyDBAHyDBACyDBAFyDCAJyDCACyDCAD",
  "yDHADyDEACyDBAFyDCASyDKACxEBAGxEDADxEBAExEDACxEBABxEBACxEDACxEDADxEDAMxEEAFxEDADxEBAExEC",
  "ABxEGABxEOAVxEFAN6EBAD6EBAX6EBAQ6ECAJ6EBAD6EBAE6EHAC6EBAD6ECAB6ECAE6ECAK6EHAJ6EN+BBAD+BB",
  "AX+BBAK+BBAF+BCAJ+BBAD+BBAE+BHAC+BGAC+BBAE+BCAK+BBAD+BMANuCBADuCBAtBuCBADuCBAGuCEAQuCCA0",
  "uCBADjEBASjEDAYjEBAJjEBABjECAHjEDABjEEAGjEBABjEBAIjEGAKjECADjEMA6B8EEABZ28EfBACjCBABjCBA",
  "FjCBAYjCBABjCBAXjCCAFjCBABjCBAHjCBAKjCCAEjCaBAiC9EBAeB9EEAhB9EBAeB9EBAP9EBAH9EEZC9EfBAaF",
  "dDgBjBBABjBFABjBCAlBjBBZEjBaItBjChBBAEhBCAHhBBABhBBAEhBCAjBhBBAEhBCAbBhBBAEhBCAHhBBABhBB",
  "AEhBCAPhBBAzBhBBAEhBCAdChBCAaBhBDA0hBGAwCXCAGXCAaUS3mDDAlCcEDZLcEHAWrEJABrEVvBCZJAURMANs",
  "EBADsEBACsEMA-CfCCAKfCGAKfCGACaDCZBaDBZUaDGAzCaDHAlBaDFAgCSKA5mCBAMmCEAMmCEABmCDAMmC4tEC",
  "AFtELAmBhDEA0hDGALhDDAChDaBfC2QCACQ+BuEBA3uECALuEGAKuEGAOuECA56BrBAnCHBAsBHaCnEuBKIAEKyB",
  "lCDAPlCDADlCqBnDL4FAlBjBCADjBInEIAD6BBZN6BBZH6BEZB6BGZB6BDZC6BBZFAgBkCFnBB4rBkCFnBEkCFnB",
  "NkCB4gCkCBnBaC6BaIkCWnBCAGnBCAgBnBCAGnBCAInBBABnBBABnBBABnBBA5nBCAvBnBBAPnBBAOnBCAGnBBAT",
  "nBCADnBBAJnBBAMZC6BxCZBALZBkCCALZBkCPZBANkCDAbBZPAbB6BPAgBZBnBDZCkCGZBkC1ZBkCRZjBkCDZEA6",
  "UZWALZVAa3ZaIPuTZCAaBZBAjDZaDkBaBkCuD0FAH0gBjBBABjBFABjBCAyB-EHAC-EOAB-EXhBJAHhBBAHhBBAH",
  "hBBAHhBBAHhBBAHhBBAHhBBAHhBBAaB4-CZcBA0sBBAzCsBMAwGsB0AVZBsBBZBsBZZJsBE6BCtBIZEsBEZBAwCy",
  "BCAC6BCZDyBBZ6CaCCZDaCFAlBNBA-CtBBAQZaBNgBZJABZQaC5tBBAaCZ5tBrCZpBaCBZyCaCiFZaoGsBaCZaqU",
  "sBneBjFDAxBjFJAqBpCmJeFUAaD4yCIIAcBZgDkCDZdCkCCACkCBABkCBAIkCVAOkCnBpEDAKZGAyB-DIAgCeEIA",
  "MeEGAaBaBoBcCBZBcCeBbELABbE3tBDAoC9BBABZK9BEAC9B5dDBAxBWJAOWCAKWCAEWaBdDdCvEYAFvEX6CKAGh",
  "BCAGhBCAGhBJAHhBBAHhBBAlBkCBZJkCBnBEkCCZEAqCXoB6CCAK6CGAe9KtBMAXtBEArBtBeiIAoLsBCAkDsBgB",
  "AHkCMAFFFA0xBBAFxBBABxBBACxBBACxBBAKxBtDEQAlLECZqCECAwBEHABEaBAQEQ6BKZGAO6BC4dBZBATZBAEZ",
  "EAFEBAhEECABZBAaBZ0kCGZ0kCLZKaCBZnBaCCZ5tBDAGtBCAGtBCAGtBCADtBDAHZBAHZKAFZCAMoCBA0oCBATo",
  "CBACoCBAPoCCAOoCcBA7DoCFADZEAnBZDAJZpCnBBANZDABnBpBAnBZB6BcEA3qCDArBTPAB6B1ZEAeBqDJADqD1",
  "lBFAlBsDFA4dFBABdFeBtDEAOtDkBAqC5qBgE46DCAK6DGAeBzDEAeBzDEAiBfBIAuBULABULfFBAPfFBAHfFBAC",
  "fFBALfFBAPfFBAHfFBACfFDAuBaFMAxJnCJAWnCKAInCYAGkCBAkBkCBAJkCfCAG2CAB2BAmB2BAC2DAB2CAB2Wz",
  "BBAJzBaB8D5eDIAJeDqBATwBBACwBFAFwB2+DDAB+D0rCFABrCaCAaB9CY8CEAU8CCAoB8CEdCBACdCFAIdCBADd",
  "CBA3dCCADdCEAKdCHAJdCHAaBvDaBrDaBAhBwCEAMwCJAwBGDAHGW8BCAI8BT7BFAI7BSaEHAEaEMAHaEqCAjCwD",
  "xBAtBpDNAtBpDHAGpDiBuBIAKuBGAgBiBDA3iBIACiBqGA5EBAkBiFBADiFCACiFQADExBAEEiBuDIAkBkEWA0xD",
  "gBA2YUAXgBJAoCOEAeBOJABOdC-BKAB-BCAZlEHAKlEGAvBVBASVIAhBsCJAaDfEBAUjELASgCBApBgC-BAHcDBA",
  "BcDBAEcDBAPcDBALcDGA7BhCFAKhCGAEmBBAImBCACmBCAWmBBAHmBBACmBBAFmBBAB6BJmBCACmBCADmBCABmBG",
  "ABmBFAHmBCAHmBDAFmBLAKcFBABcFCABcFBAgBcFBAKcFBABcFCABcFBAEcFBAKcFBACcFIACcF3A8CiDBAFiD4A",
  "iC+EIAK+EgFAwBhECAgBhEcBAfC+CLAK+CGANaDTA6BwEGAKwEGAUdD2A1CCAPCEAXCzFA8BcBeDAtChFMABhFHb",
  "BCABbBCAIbBBACbBBA4bBBACbBCAMbBJAKbBgCAIgDCAoBgDCALgD1AiCkFIAtCmENAQSzB9DHAKaBwFAcBoEOAK",
  "oEGAJMBAnBMBAOMKA3MDAaBxCCAWxCBAOxCjCAHyCBACyCBAmByCDAByCBACyCBAJyCIAKyCGAGpBBACpBBAfBpB",
  "BACpBBAGpBHAKpBwJAZtCHARbCBAjBbCDA3bCvCABpCPAsBxENABxE621gDApD1BAF1LAeG1msCAdD3NAwcBeBKA",
  "78DeBFAhSDzvGA6BrBgwBAzRIHA5bDBAKbDEACbDpCyEBAKyEGA4JCAGJKAgC7DKAK7DBAH7DBAV7DFAT7DqNA6B",
  "iCgGA7CzCfDAlC-CEAzB-CHAR-CaCABzEBkDCsBBeCLACsBOAy+FzEIAaYzEwOeCjBABeCJzEhxIAEaCBAHaCBAC",
  "aCBABaC+IyBDaCPAByB3ADyBCABaCOAEaCIAmMkDeiCAlDdBFANdBDAJdBHAKdBCAEdBEZ86DA6HZGAuNZmCAoB6",
  "BCAX6BJAuDZ8BAwHZKAhBZCA-BZD6BRZI6BCZH6B4ZE6B9BZVAgCnB6DAUZMAUZMAxCZJAZZhEAvCZBAhCZBACZC",
  "ABZCACZCAEZBAMZBABZBAHZBAbCZBAEZCAIZBAHZBA2ZBAEZBAFZBABZDAHZBAuKZCAeJZCAsBZmUiEPAFiEBAPi",
  "EqcBA5kCGAGkCvGAHkBBARkBCAHkBBACkBBAFkBFA-B4bBAB4qDAnBlDDAOlDCAKlDEAClDaKA5bFRA6BgFFABgF",
  "qOAkBfDwGAlBoDEABoDaPAHhBBAEhBBAChBBAPhBBAfG7CCAQ7CjBAmCBEAKBEACBrYAeCZmCA9BZcGAEEBA1EBA",
  "CEBABECABEBAKEBAEEBABEBABEGABEEABEBABEBABEBADEBACEBABECABEBABEBABEBABEBABEBACEBABECAEEBA",
  "HEBAEEBAEEBABEBAKEBAREFADEBAFEBAREuBACEoIAmBZEAeDZMAPZCAPZBAPZBAfBZKAoFZyBA0ZByBCZNAmBZE",
  "AJZHACZOAGZ6EAy4ZEARZDANZDAxDZEA+CZGAMZEABZPAMZEAyBZIAKZGAiBZIA4ZCAMZEACZ-BAuKZMAOZCANZD",
  "AKZFAyBZHAPZCALZGAJZHAtEZBAgDZgaBAaxjBsBaBA6bEsBGA-GsBCAcuFsBOArjHsBPAoTsBcnCA-QsBcpBAl6",
  "EsBFAadEsBrcxVABZ4AaDZaEAqH6Bqq+FA"]

/-- The lists of scripts that occur as script extensions. -/
def extensionLists : List Nat := Table.numbers
  ["BLBaBBdBBnBBsBBkCBgDBcEBqECBECE0CEjDCEuBCEqECE7ECGwDCLaBCNsBCNkCCQ9BC0nBC0kCC2oCC4kBC4kC",
  "C4sDCaBmBCaBiDCaBfECaBxEChBkCCmBxECoBgCCqBcDCsBkCCsBzECyBaCCkCpCCkCzDCkCoECkCqECkC-ECkC8",
  "ECwCxDCaD-DDBEpDDUkCaFDEqE7EDE7EiFDFjBkBDLVpEDLaBfEDLaB6EDLaBcFDVdDtEDXkCqEDXkCtED23oCD2",
  "nCoCD4kCqED4kCaFDaBmB+BDaBmBkCDaBgDiDDaBiDfEDaBiD+EDdBkCqEDjBkBkCDsByBaCDcCkCdDD+BgDcFDk",
  "CaD-DDkCoEqEELaBmB+BELaBiDfEELaBiD6EERvBrEsEETnB9CpDEX4kCzDEX4kC-EEXdBkCqEEaBcB-BsCEaBmB",
  "+BcFEnBkCsDaFFLaBiD6E+EFNsBtByBaCF4nBkCsD-EFkBkCoEqE8EGNsBtByBaCjFGTjBkBqCpDwDGXdBaCkCqE",
  "-EG0fBkBlBaCkCGaB+BuCyDxE6EHUXlBkCoEqE8EHEiBuBjDqE7EiFHGTjB-BrCpDdEHL4aBkCpC8EbFHNsBtByB",
  "aCaDjFIBEiBuBjDqE7EiFINsBtByBaCaD-DjFINsBtByBaCaD9EjFIX04nBkCsDoEtEIX4nBkCzDoEtEaFJBEuBv",
  "CwCxDaEkEqEJNsBtByBaCpCaD9EjFJ0dBxBkCsDqEtE-EaFLUX04lBnBkCzDqE-EaFLF4dBlBnBxBkCsDqEtE-EL",
  "LaBmB+BuCgDyDjE6E+EcFLaBcBoBqB-BgChCsC+CwE+EMaBcBoBqB-BgChCsC+CfEwE+ENLaBmBoBqB+BkCuCiDy",
  "DxE6E+EPLaBmBoBqB+BkCuCgDiDyDfExE6E+EPaBcBoBqB-B+BgChCsC+CgDfEwE+EcFQGT0dBfBjBkBlBnBpBsB",
  "kCrCsCsDgEQaBcBoBqB-B+BgChCsCuC+CgDfEwE+EcFVLaBcBmBoBpBqB+BhCsCuCyCgDoDyDjEpEwExE6E+EXLa",
  "BcBmBoBpBqBrB+BhCmCsCuCyCgDoDyDjEpEwExE6E+E"]

/-- Cut a list of numbers into lists, each given by its length and its items. -/
def splitLists : Nat → List Nat → List (List Nat)
  | 0, _ => []
  | _ + 1, [] => []
  | steps + 1, length :: rest => rest.take length :: splitLists steps (rest.drop length)

/-- Read ranges of characters with the number of their list of scripts. -/
def extensionsFrom (start : Nat) : List Nat → List (Nat × Nat × Nat)
  | gap :: span :: value :: rest =>
    (start + gap, start + gap + span, value) :: extensionsFrom (start + gap + span + 1) rest
  | _ => []

/-- The characters whose script extensions differ from their script. -/
def extensionTable : List (Nat × Nat × Nat) := extensionsFrom 0 (Table.numbers
  ["xFAsDeQAaDKASBCSBAfBJAkBBASgBAfDAAgDAApCAAxCAAkDAA7CAAwCAAjDAAlDAAjBAAcCAAoCAAyBAAhBAA4B",
  "AhBAA8BBAtCPA6CAAqCAAiBHAiCAAiBBAxBAA9CQADCADSAgBFAoBEMFEBUnIAZAAXABYAAXbIArBcEA-COA-CAA",
  "pBCAcDaBAhDKKNKJqBGANdDAM8TAqDAApDRAuDAAvDAJrCwDJsBwDJbBwDJaBwHN5sHJgCq0JwBrFAdCppBCHhCB",
  "mClGBmBBAmBkgBAjCAABAAjCAA9BAABAAuCAAuBAAaCAAlCAA2AA8CAABAB2ABBAA2AAQAAbCAFBAA+BAAtBAA1A",
  "ABAAkCADBAAmDAA0AAsCABQAAAAB0AAGfGBDwBA7BBAIuRAhC5AJKAzCCAnCsEA-BgjDAVYAPAA+CKACEAnBBAXm",
  "NPdBBAbDAAdDAAvCCAEBBeDABiDAFyCBAvCAHyCADvCKDRCAvCAEeBBAvCEBeCABEzCDeBDAeB6CAyCAAeBtEPEa",
  "BfBEJAdBqBhBEyBqBEPLEtBAEyCYEKEEaD4Eqt2AXqEHcBiJCtDACrDABnDAAoDAAnDxFAvBBA36BAfCaFATo7UB",
  "LsFAOKAOhCBvC6IEyCKAeBnBBeBaLBzBAAWEmB6BDIWaN1Kw+BAlBoaCA5BA5xBB5teDB5BA5mghBDC8vFRE-wHB",
  "E"])

/-- The number of a script in the table, by its name. -/
def index? (name : String) : Option Nat :=
  if name == "Unknown" then none else names.findIdx? (·.2 == name)

/-- The characters of a script, by its name. -/
def ofName? (name : String) : Option CodeSet :=
  (index? name).map fun index => Table.select table (· == index)

/-- The characters whose script extensions contain a script, by its name. -/
def extensionOfName? (name : String) : Option CodeSet :=
  (index? name).map fun index =>
    let lists := (splitLists extensionLists.length extensionLists).map (·.contains index)
    let listed := CodeSet.ofRanges (extensionTable.map fun (lo, hi, _) => (lo, hi))
    let extended := Table.select extensionTable fun value => lists[value]?.getD false
    ((Table.select table (· == index)).diff listed).union extended

end TestSelection.Unicode.Script
