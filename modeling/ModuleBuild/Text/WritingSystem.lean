import ModuleBuild.Text.Runs

/-!
# Writing systems

The writing system, or script, of each code point, from the character database. The data is kept as
one text of runs, `Zyyy65Latn26…`, that covers the code points in order; `Zzzz` stands for code
points of no script.

## Main definitions

* `WritingSystem.code?` — the four-letter code of a script by either of its names.
* `WritingSystem.ofChar` — the code of a character's script.
-/

namespace ModuleBuild.Text.WritingSystem

/-- The four-letter codes of the scripts and their long names, in lower case without separators. -/
def named : List (String × String) :=
  [("adlm", "adlam"), ("aghb", "caucasianalbanian"), ("ahom", "ahom"), ("arab", "arabic"),
   ("armi", "imperialaramaic"), ("armn", "armenian"), ("avst", "avestan"), ("bali", "balinese"),
   ("bamu", "bamum"), ("bass", "bassavah"), ("batk", "batak"), ("beng", "bengali"),
   ("bhks", "bhaiksuki"), ("bopo", "bopomofo"), ("brah", "brahmi"), ("brai", "braille"),
   ("bugi", "buginese"), ("buhd", "buhid"), ("cakm", "chakma"), ("cans", "canadianaboriginal"),
   ("cari", "carian"), ("cham", "cham"), ("cher", "cherokee"), ("chrs", "chorasmian"),
   ("copt", "coptic"), ("cpmn", "cyprominoan"), ("cprt", "cypriot"), ("cyrl", "cyrillic"),
   ("deva", "devanagari"), ("diak", "divesakuru"), ("dogr", "dogra"), ("dsrt", "deseret"),
   ("dupl", "duployan"), ("egyp", "egyptianhieroglyphs"), ("elba", "elbasan"),
   ("elym", "elymaic"), ("ethi", "ethiopic"), ("gara", "garay"), ("geor", "georgian"),
   ("glag", "glagolitic"), ("gong", "gunjalagondi"), ("gonm", "masaramgondi"), ("goth", "gothic"),
   ("gran", "grantha"), ("grek", "greek"), ("gujr", "gujarati"), ("gukh", "gurungkhema"),
   ("guru", "gurmukhi"), ("hang", "hangul"), ("hani", "han"), ("hano", "hanunoo"),
   ("hatr", "hatran"), ("hebr", "hebrew"), ("hira", "hiragana"), ("hluw", "anatolianhieroglyphs"),
   ("hmng", "pahawhhmong"), ("hmnp", "nyiakengpuachuehmong"), ("hung", "oldhungarian"),
   ("ital", "olditalic"), ("java", "javanese"), ("kali", "kayahli"), ("kana", "katakana"),
   ("kawi", "kawi"), ("khar", "kharoshthi"), ("khmr", "khmer"), ("khoj", "khojki"),
   ("kits", "khitansmallscript"), ("knda", "kannada"), ("krai", "kiratrai"), ("kthi", "kaithi"),
   ("lana", "taitham"), ("laoo", "lao"), ("latn", "latin"), ("lepc", "lepcha"), ("limb", "limbu"),
   ("lina", "lineara"), ("linb", "linearb"), ("lisu", "lisu"), ("lyci", "lycian"),
   ("lydi", "lydian"), ("mahj", "mahajani"), ("maka", "makasar"), ("mand", "mandaic"),
   ("mani", "manichaean"), ("marc", "marchen"), ("medf", "medefaidrin"), ("mend", "mendekikakui"),
   ("merc", "meroiticcursive"), ("mero", "meroitichieroglyphs"), ("mlym", "malayalam"),
   ("modi", "modi"), ("mong", "mongolian"), ("mroo", "mro"), ("mtei", "meeteimayek"),
   ("mult", "multani"), ("mymr", "myanmar"), ("nagm", "nagmundari"), ("nand", "nandinagari"),
   ("narb", "oldnortharabian"), ("nbat", "nabataean"), ("newa", "newa"), ("nkoo", "nko"),
   ("nshu", "nushu"), ("ogam", "ogham"), ("olck", "olchiki"), ("onao", "olonal"),
   ("orkh", "oldturkic"), ("orya", "oriya"), ("osge", "osage"), ("osma", "osmanya"),
   ("ougr", "olduyghur"), ("palm", "palmyrene"), ("pauc", "paucinhau"), ("perm", "oldpermic"),
   ("phag", "phagspa"), ("phli", "inscriptionalpahlavi"), ("phlp", "psalterpahlavi"),
   ("phnx", "phoenician"), ("plrd", "miao"), ("prti", "inscriptionalparthian"),
   ("rjng", "rejang"), ("rohg", "hanifirohingya"), ("runr", "runic"), ("samr", "samaritan"),
   ("sarb", "oldsoutharabian"), ("saur", "saurashtra"), ("sgnw", "signwriting"),
   ("shaw", "shavian"), ("shrd", "sharada"), ("sidd", "siddham"), ("sind", "khudawadi"),
   ("sinh", "sinhala"), ("sogd", "sogdian"), ("sogo", "oldsogdian"), ("sora", "sorasompeng"),
   ("soyo", "soyombo"), ("sund", "sundanese"), ("sunu", "sunuwar"), ("sylo", "sylotinagri"),
   ("syrc", "syriac"), ("tagb", "tagbanwa"), ("takr", "takri"), ("tale", "taile"),
   ("talu", "newtailue"), ("taml", "tamil"), ("tang", "tangut"), ("tavt", "taiviet"),
   ("telu", "telugu"), ("tfng", "tifinagh"), ("tglg", "tagalog"), ("thaa", "thaana"),
   ("thai", "thai"), ("tibt", "tibetan"), ("tirh", "tirhuta"), ("tnsa", "tangsa"),
   ("todr", "todhri"), ("toto", "toto"), ("tutg", "tulutigalari"), ("ugar", "ugaritic"),
   ("vaii", "vai"), ("vith", "vithkuqi"), ("wara", "warangciti"), ("wcho", "wancho"),
   ("xpeo", "oldpersian"), ("xsux", "cuneiform"), ("yezi", "yezidi"), ("yiii", "yi"),
   ("zanb", "zanabazarsquare"), ("zinh", "inherited"), ("zyyy", "common")]

/-- The code of the script of this name, which is in lower case and without separators. -/
def code? (name : String) : Option String :=
  if name == "qaac" then some "copt"
  else if name == "qaai" then some "zinh"
  else (named.find? fun (code, long) => code == name || long == name).map (·.1)

/-- The runs of equal script from U+0000 upward: a four-letter code and the length of the run, which
is left out when it is one. -/
def runs : String :=
  String.join [
    "Zyyy65Latn26Zyyy6Latn26Zyyy47LatnZyyy15LatnZyyy5Latn23ZyyyLatn31ZyyyLatn449Zyyy39Latn5Zyyy5",
    "Bopo2Zyyy20Zinh112Grek4ZyyyGrek3Zzzz2Grek4ZyyyGrekZzzz4GrekZyyyGrekZyyyGrek3ZzzzGrekZzzz",
    "Grek20ZzzzGrek63Copt14Grek16Cyrl133Zinh2Cyrl169ZzzzArmn38Zzzz2Armn50Zzzz2Armn3ZzzzHebr55",
    "Zzzz8Hebr27Zzzz4Hebr6Zzzz11Arab5ZyyyArab6ZyyyArab14ZyyyArab3ZyyyArab32ZyyyArab10Zinh11Arab26",
    "ZinhArab108ZyyyArab34Syrc14ZzzzSyrc60Zzzz2Syrc3Arab48Thaa50Zzzz14Nkoo59Zzzz2Nkoo3Samr46Zzzz2",
    "Samr15ZzzzMand28Zzzz2MandZzzzSyrc11Zzzz5Arab34Zzzz5Arab75ZyyyArab29Deva81Zinh4Deva15Zyyy2",
    "Deva26Beng4ZzzzBeng8Zzzz2Beng2Zzzz2Beng22ZzzzBeng7ZzzzBengZzzz3Beng4Zzzz2Beng9Zzzz2Beng2",
    "Zzzz2Beng4Zzzz8BengZzzz4Beng2ZzzzBeng5Zzzz2Beng25Zzzz2Guru3ZzzzGuru6Zzzz4Guru2Zzzz2Guru22",
    "ZzzzGuru7ZzzzGuru2ZzzzGuru2ZzzzGuru2Zzzz2GuruZzzzGuru5Zzzz4Guru2Zzzz2Guru3Zzzz3GuruZzzz7",
    "Guru4ZzzzGuruZzzz7Guru17Zzzz10Gujr3ZzzzGujr9ZzzzGujr3ZzzzGujr22ZzzzGujr7ZzzzGujr2ZzzzGujr5",
    "Zzzz2Gujr10ZzzzGujr3ZzzzGujr3Zzzz2GujrZzzz15Gujr4Zzzz2Gujr12Zzzz7Gujr7ZzzzOrya3ZzzzOrya8",
    "Zzzz2Orya2Zzzz2Orya22ZzzzOrya7ZzzzOrya2ZzzzOrya5Zzzz2Orya9Zzzz2Orya2Zzzz2Orya3Zzzz7Orya3",
    "Zzzz4Orya2ZzzzOrya5Zzzz2Orya18Zzzz10Taml2ZzzzTaml6Zzzz3Taml3ZzzzTaml4Zzzz3Taml2ZzzzTamlZzzz",
    "Taml2Zzzz3Taml2Zzzz3Taml3Zzzz3Taml12Zzzz4Taml5Zzzz3Taml3ZzzzTaml4Zzzz2TamlZzzz6TamlZzzz14",
    "Taml21Zzzz5Telu13ZzzzTelu3ZzzzTelu23ZzzzTelu16Zzzz2Telu9ZzzzTelu3ZzzzTelu4Zzzz7Telu2Zzzz",
    "Telu3ZzzzTelu2Zzzz2Telu4Zzzz2Telu10Zzzz7Telu9Knda13ZzzzKnda3ZzzzKnda23ZzzzKnda10ZzzzKnda5",
    "Zzzz2Knda9ZzzzKnda3ZzzzKnda4Zzzz7Knda2Zzzz5Knda3ZzzzKnda4Zzzz2Knda10ZzzzKnda3Zzzz12Mlym13",
    "ZzzzMlym3ZzzzMlym51ZzzzMlym3ZzzzMlym6Zzzz4Mlym16Zzzz2Mlym26ZzzzSinh3ZzzzSinh18Zzzz3Sinh24",
    "ZzzzSinh9ZzzzSinhZzzz2Sinh7Zzzz3SinhZzzz4Sinh6ZzzzSinhZzzzSinh8Zzzz6Sinh10Zzzz2Sinh3Zzzz12",
    "Thai58Zzzz4ZyyyThai28Zzzz37Laoo2ZzzzLaooZzzzLaoo5ZzzzLaoo24ZzzzLaooZzzzLaoo23Zzzz2Laoo5Zzzz",
    "LaooZzzzLaoo7ZzzzLaoo10Zzzz2Laoo4Zzzz32Tibt72ZzzzTibt36Zzzz4Tibt39ZzzzTibt36ZzzzTibt15Zzzz",
    "Tibt7Zyyy4Tibt2Zzzz37Mymr160Geor38ZzzzGeorZzzz5GeorZzzz2Geor43ZyyyGeor4Hang256Ethi73Zzzz",
    "Ethi4Zzzz2Ethi7ZzzzEthiZzzzEthi4Zzzz2Ethi41ZzzzEthi4Zzzz2Ethi33ZzzzEthi4Zzzz2Ethi7ZzzzEthi",
    "ZzzzEthi4Zzzz2Ethi15ZzzzEthi57ZzzzEthi4Zzzz2Ethi67Zzzz2Ethi32Zzzz3Ethi26Zzzz6Cher86Zzzz2",
    "Cher6Zzzz2Cans640Ogam29Zzzz3Runr75Zyyy3Runr11Zzzz7Tglg22Zzzz9TglgHano21Zyyy2Zzzz9Buhd20",
    "Zzzz12Tagb13ZzzzTagb3ZzzzTagb2Zzzz12Khmr94Zzzz2Khmr10Zzzz6Khmr10Zzzz6Mong2Zyyy2MongZyyy",
    "Mong20Zzzz6Mong89Zzzz7Mong43Zzzz5Cans70Zzzz10Limb31ZzzzLimb12Zzzz4Limb12Zzzz4LimbZzzz3Limb12",
    "Tale30Zzzz2Tale5Zzzz11Talu44Zzzz4Talu26Zzzz6Talu11Zzzz3Talu2Khmr32Bugi28Zzzz2Bugi2Lana63Zzzz",
    "Lana29Zzzz2Lana11Zzzz6Lana10Zzzz6Lana14Zzzz2Zinh46Zzzz2Zinh12Zzzz20Bali77ZzzzBali50Sund64",
    "Batk52Zzzz8Batk4Lepc56Zzzz3Lepc15Zzzz3Lepc3Olck48Cyrl11Zzzz5Geor43Zzzz2Geor3Sund8Zzzz8Zinh3",
    "ZyyyZinh13ZyyyZinh7Zyyy4ZinhZyyy6ZinhZyyy3Zinh2ZyyyZzzz5Latn38Grek5CyrlLatn49Grek5Latn4Grek5",
    "Latn13CyrlLatn70GrekZinh64Latn256Grek22Zzzz2Grek6Zzzz2Grek38Zzzz2Grek6Zzzz2Grek8ZzzzGrekZzzz",
    "GrekZzzzGrekZzzzGrek31Zzzz2Grek53ZzzzGrek15ZzzzGrek14Zzzz2Grek6ZzzzGrek19Zzzz2Grek3ZzzzGrek9",
    "ZzzzZyyy12Zinh2Zyyy87ZzzzZyyy11LatnZzzz2Zyyy11LatnZyyy15ZzzzLatn13Zzzz3Zyyy34Zzzz14Zinh33",
    "Zzzz15Zyyy38GrekZyyy3Latn2Zyyy6LatnZyyy27LatnZyyy17Latn41Zyyy3Zzzz4Zyyy666Zzzz22Zyyy11Zzzz21",
    "Zyyy928Brai256Zyyy628Zzzz2Zyyy138Glag96Latn32Copt116Zzzz5Copt7Geor38ZzzzGeorZzzz5GeorZzzz2",
    "Tfng56Zzzz7Tfng2Zzzz14TfngEthi23Zzzz9Ethi7ZzzzEthi7ZzzzEthi7ZzzzEthi7ZzzzEthi7ZzzzEthi7Zzzz",
    "Ethi7ZzzzEthi7ZzzzCyrl32Zyyy94Zzzz34Hani26ZzzzHani89Zzzz12Hani214Zzzz26Zyyy21HaniZyyyHani",
    "Zyyy25Hani9Zinh4Hang2Zyyy8Hani4Zyyy4ZzzzHira86Zzzz2Zinh2Zyyy2Hira3ZyyyKana90Zyyy2Kana3Zzzz5",
    "Bopo43ZzzzHang94ZzzzZyyy16Bopo32Zyyy38Zzzz9ZyyyKana16Hang31ZzzzZyyy64Hang31Zyyy81Kana47Zyyy",
    "Kana88Zyyy168Hani6592Zyyy64Hani20992Yiii1165Zzzz3Yiii55Zzzz9Lisu48Vaii300Zzzz20Cyrl96Bamu88",
    "Zzzz8Zyyy34Latn102Zyyy3Latn82Zzzz20Latn15Sylo45Zzzz3Zyyy10Zzzz6Phag56Zzzz8Saur70Zzzz8Saur12",
    "Zzzz6Deva32Kali46ZyyyKaliRjng36Zzzz11RjngHang29Zzzz3Java78ZzzzZyyyJava10Zzzz4Java2Mymr31Zzzz",
    "Cham55Zzzz9Cham14Zzzz2Cham10Zzzz2Cham4Mymr32Tavt67Zzzz24Tavt5Mtei23Zzzz10Ethi6Zzzz2Ethi6",
    "Zzzz2Ethi6Zzzz9Ethi7ZzzzEthi7ZzzzLatn43ZyyyLatn9GrekLatn4Zyyy2Zzzz4Cher80Mtei46Zzzz2Mtei10",
    "Zzzz6Hang11172Zzzz12Hang23Zzzz4Hang49Zzzz8452Hani366Zzzz2Hani106Zzzz38Latn7Zzzz12Armn5Zzzz5",
    "Hebr26ZzzzHebr5ZzzzHebrZzzzHebr2ZzzzHebr2ZzzzHebr10Arab494Zyyy2Arab144Zzzz32Arab16Zinh16",
    "Zyyy10Zzzz6Zinh14Cyrl2Zyyy35ZzzzZyyy19ZzzzZyyy4Zzzz4Arab5ZzzzArab135Zzzz2ZyyyZzzzZyyy32",
    "Latn26Zyyy6Latn26Zyyy11Kana10ZyyyKana45Zyyy2Hang31Zzzz3Hang6Zzzz2Hang6Zzzz2Hang6Zzzz2Hang3",
    "Zzzz3Zyyy7ZzzzZyyy7Zzzz10Zyyy5Zzzz2Linb12ZzzzLinb26ZzzzLinb19ZzzzLinb2ZzzzLinb15Zzzz2Linb14",
    "Zzzz34Linb123Zzzz5Zyyy3Zzzz4Zyyy45Zzzz3Zyyy9Grek79ZzzzZyyy13Zzzz3GrekZzzz47Zyyy45ZinhZzzz130",
    "Lyci29Zzzz3Cari49Zzzz15ZinhZyyy27Zzzz4Ital36Zzzz9Ital3Goth27Zzzz5Perm43Zzzz5Ugar30ZzzzUgar",
    "Xpeo36Zzzz4Xpeo14Zzzz42Dsrt80Shaw48Osma30Zzzz2Osma10Zzzz6Osge36Zzzz4Osge36Zzzz4Elba40Zzzz8",
    "Aghb52Zzzz11AghbVith11ZzzzVith15ZzzzVith7ZzzzVith2ZzzzVith11ZzzzVith15ZzzzVith7ZzzzVith2",
    "Zzzz3Todr52Zzzz12Lina311Zzzz9Lina22Zzzz10Lina8Zzzz24Latn6ZzzzLatn42ZzzzLatn9Zzzz69Cprt6Zzzz2",
    "CprtZzzzCprt44ZzzzCprt2Zzzz3CprtZzzz2CprtArmi22ZzzzArmi9Palm32Nbat31Zzzz8Nbat9Zzzz48Hatr19",
    "ZzzzHatr2Zzzz5Hatr5Phnx28Zzzz3PhnxLydi26Zzzz5LydiZzzz64Mero32Merc24Zzzz4Merc20Zzzz2Merc46",
    "Khar4ZzzzKhar2Zzzz5Khar8ZzzzKhar3ZzzzKhar29Zzzz2Khar3Zzzz4Khar10Zzzz7Khar9Zzzz7Sarb32Narb32",
    "Zzzz32Mani39Zzzz4Mani12Zzzz9Avst54Zzzz3Avst7Prti22Zzzz2Prti8Phli19Zzzz5Phli8Phlp18Zzzz7Phlp4",
    "Zzzz12Phlp7Zzzz80Orkh73Zzzz55Hung51Zzzz13Hung51Zzzz7Hung6Rohg40Zzzz8Rohg10Zzzz6Gara38Zzzz3",
    "Gara29Zzzz8Gara2Zzzz208Arab31ZzzzYezi42ZzzzYezi3Zzzz2Yezi2Zzzz16Arab6Zzzz8Arab9Zzzz33Arab6",
    "Sogo40Zzzz8Sogd42Zzzz22Ougr26Zzzz38Chrs28Zzzz20Elym23Zzzz9Brah78Zzzz4Brah36Zzzz9BrahKthi67",
    "Zzzz10KthiZzzz2Sora25Zzzz7Sora10Zzzz6Cakm53ZzzzCakm18Zzzz8Mahj39Zzzz9Shrd96ZzzzSinh20Zzzz11",
    "Khoj18ZzzzKhoj47Zzzz62Mult7ZzzzMultZzzzMult4ZzzzMult15ZzzzMult11Zzzz6Sind59Zzzz5Sind10Zzzz6",
    "Gran4ZzzzGran8Zzzz2Gran2Zzzz2Gran22ZzzzGran7ZzzzGran2ZzzzGran5ZzzzZinhGran9Zzzz2Gran2Zzzz2",
    "Gran3Zzzz2GranZzzz6GranZzzz5Gran7Zzzz2Gran7Zzzz3Gran5Zzzz11Tutg10ZzzzTutgZzzz2TutgZzzzTutg38",
    "ZzzzTutg10ZzzzTutgZzzz2TutgZzzzTutg4ZzzzTutg10ZzzzTutg2Zzzz8Tutg2Zzzz29Newa92ZzzzNewa5Zzzz30",
    "Tirh72Zzzz8Tirh10Zzzz166Sidd54Zzzz2Sidd38Zzzz34Modi69Zzzz11Modi10Zzzz6Mong13Zzzz19Takr58",
    "Zzzz6Takr10Zzzz6Mymr20Zzzz28Ahom27Zzzz2Ahom15Zzzz4Ahom23Zzzz185Dogr60Zzzz100Wara83Zzzz12Wara",
    "Diak7Zzzz2DiakZzzz2Diak8ZzzzDiak2ZzzzDiak30ZzzzDiak2Zzzz2Diak12Zzzz9Diak10Zzzz70Nand8Zzzz2",
    "Nand46Zzzz2Nand11Zzzz27Zanb72Zzzz8Soyo83Zzzz13Cans16Pauc57Zzzz7Deva10Zzzz86Shrd8Zzzz88Sunu34",
    "Zzzz14Sunu10Zzzz6Bhks9ZzzzBhks45ZzzzBhks14Zzzz10Bhks29Zzzz3Marc32Zzzz2Marc22ZzzzMarc14Zzzz73",
    "Gonm7ZzzzGonm2ZzzzGonm44Zzzz3GonmZzzzGonm2ZzzzGonm9Zzzz8Gonm10Zzzz6Gong6ZzzzGong2ZzzzGong37",
    "ZzzzGong2ZzzzGong6Zzzz7Gong10Zzzz310Maka25Zzzz7Kawi17ZzzzKawi41Zzzz3Kawi29Zzzz85LisuZzzz15",
    "Taml50Zzzz13TamlXsux922Zzzz102Xsux111ZzzzXsux5Zzzz11Xsux196Zzzz2636Cpmn99Zzzz13Egyp1110",
    "Zzzz10Egyp3995Zzzz5Hluw583Zzzz6841Gukh58Zzzz1734Bamu569Zzzz7Mroo31ZzzzMroo10Zzzz4Mroo2Tnsa79",
    "ZzzzTnsa10Zzzz6Bass30Zzzz2Bass6Zzzz10Hmng70Zzzz10Hmng10ZzzzHmng7ZzzzHmng21Zzzz5Hmng19Zzzz432",
    "Krai58Zzzz198Medf91Zzzz101Plrd75Zzzz4Plrd57Zzzz7Plrd17Zzzz64TangNshuHani2KitsZzzz11Hani7",
    "Zzzz9Tang6912Kits470Zzzz41KitsTang31Zzzz97Tang115Zzzz8701Kana4ZzzzKana7ZzzzKana2ZzzzKana",
    "Hira287Kana3Zzzz15HiraZzzz29Hira3Zzzz2KanaZzzz14Kana4Zzzz8Nshu396Zzzz2308Dupl107Zzzz5Dupl13",
    "Zzzz3Dupl9Zzzz7Dupl10Zzzz2Dupl4Zyyy4Zzzz3932Zyyy253Zzzz3Zyyy436Zzzz6Zyyy23Zzzz15Zyyy17Zzzz15",
    "Zinh46Zzzz2Zinh23Zzzz9Zyyy116Zzzz60Zyyy246Zzzz10Zyyy39Zzzz2Zyyy62Zinh3Zyyy17Zinh8Zyyy2Zinh7",
    "Zyyy30Zinh4Zyyy61Zzzz21Grek70Zzzz122Zyyy20Zzzz12Zyyy20Zzzz12Zyyy87Zzzz9Zyyy25Zzzz135Zyyy85",
    "ZzzzZyyy71ZzzzZyyy2Zzzz2ZyyyZzzz2Zyyy2Zzzz2Zyyy4ZzzzZyyy12ZzzzZyyyZzzzZyyy7ZzzzZyyy65Zzzz",
    "Zyyy4Zzzz2Zyyy8ZzzzZyyy7ZzzzZyyy28ZzzzZyyy4ZzzzZyyy5ZzzzZyyyZzzz3Zyyy7ZzzzZyyy340Zzzz2",
    "Zyyy292Zzzz2Zyyy50Sgnw652Zzzz15Sgnw5ZzzzSgnw15Zzzz1104Latn31Zzzz6Latn6Zzzz213Glag7ZzzzGlag17",
    "Zzzz2Glag7ZzzzGlag2ZzzzGlag5Zzzz5Cyrl62Zzzz33CyrlZzzz112Hmnp45Zzzz3Hmnp14Zzzz2Hmnp10Zzzz4",
    "Hmnp2Zzzz320Toto31Zzzz17Wcho58Zzzz5WchoZzzz464Nagm42Zzzz214Onao43Zzzz4OnaoZzzz480Ethi7Zzzz",
    "Ethi4ZzzzEthi2ZzzzEthi15ZzzzMend197Zzzz2Mend16Zzzz41Adlm76Zzzz4Adlm10Zzzz4Adlm2Zzzz785Zyyy68",
    "Zzzz76Zyyy61Zzzz194Arab4ZzzzArab27ZzzzArab2ZzzzArabZzzz2ArabZzzzArab10ZzzzArab4ZzzzArabZzzz",
    "ArabZzzz6ArabZzzz4ArabZzzzArabZzzzArabZzzzArab3ZzzzArab2ZzzzArabZzzz2ArabZzzzArabZzzzArab",
    "ZzzzArabZzzzArabZzzzArab2ZzzzArabZzzz2Arab4ZzzzArab7ZzzzArab4ZzzzArab4ZzzzArabZzzzArab10Zzzz",
    "Arab17Zzzz5Arab3ZzzzArab5ZzzzArab17Zzzz52Arab2Zzzz270Zyyy44Zzzz4Zyyy100Zzzz12Zyyy15Zzzz2",
    "Zyyy15ZzzzZyyy15ZzzzZyyy37Zzzz10Zyyy174Zzzz56Zyyy26HiraZyyy2Zzzz13Zyyy44Zzzz4Zyyy9Zzzz7Zyyy2",
    "Zzzz14Zyyy6Zzzz154Zyyy985Zzzz3Zyyy17Zzzz3Zyyy13Zzzz3Zyyy218Zzzz6Zyyy12Zzzz4ZyyyZzzz15Zyyy12",
    "Zzzz4Zyyy56Zzzz8Zyyy10Zzzz6Zyyy40Zzzz8Zyyy30Zzzz2Zyyy12Zzzz4Zyyy2Zzzz14Zyyy9Zzzz39Zyyy344",
    "Zzzz8Zyyy14Zzzz2Zyyy13Zzzz3Zyyy11Zzzz3Zyyy57ZzzzZyyyZzzz4Zyyy16Zzzz2Zyyy12Zzzz4Zyyy10Zzzz7",
    "Zyyy147ZzzzZyyy103Zzzz1029Hani42720Zzzz32Hani4382Zzzz2Hani5774Zzzz2Hani7473Zzzz15Hani622",
    "Zzzz2466Hani542Zzzz1506Hani4939Zzzz5Hani8490Zzzz707463ZyyyZzzz30Zyyy96Zzzz128Zinh240",
    "Zzzz196112"]

/-- Reads the runs of a text into their starts and codes; `fuel` bounds their number. -/
def decode : Nat → Nat → List Char → List (Nat × String)
  | fuel + 1, start, a :: b :: c :: d :: cs =>
    let (n, rest) := takeLength cs
    (start, String.ofList [a.toLower, b, c, d]) :: decode fuel (start + n) rest
  | _, _, _ => []

/-- The runs of `runs`, in order. -/
def table : Array (Nat × String) :=
  (decode runs.length 0 runs.toList).toArray

/-- The code of the script of a character. -/
def ofChar (c : Char) : String :=
  (table.getD (lastRun (fun i => (table.getD i default).1) c.toNat 24 0 table.size) default).2

end ModuleBuild.Text.WritingSystem
