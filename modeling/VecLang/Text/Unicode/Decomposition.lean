import VecLang.Text.Unicode.Table
import VecLang.Text.Utf8

/-!
# Canonical decompositions and combining classes

The canonical decomposition of a character is another character, or a pair of which the first
may decompose further. A Hangul syllable decomposes by arithmetic. Marks with a nonzero
combining class are put in order of their class.
-/

namespace VecLang.Unicode

/-- The entries written as `code=image`, and behind commas the images of the code points that
follow. An image is `first` or `first+second`. -/
def parseMappingsAfter (before : Nat) : List Bytes → List (Nat × Nat × Option Nat)
  | [] => []
  | word :: more =>
    let (code, images) := (Bytes.cut 0x3d word).getD (word, [])
    let images := Bytes.splitOn 0x2c images
    let code := hexAfter before code
    let entries := images.zipIdx.map fun (image, i) =>
      match Bytes.cut 0x2b image with
      | none => (code + i, hexNat image, none)
      | some (x, y) => (code + i, hexNat x, some (hexNat y))
    entries ++ parseMappingsAfter (code + images.length - 1) more

def parseMappings (lines : List String) : List (Nat × Nat × Option Nat) :=
  parseMappingsAfter 0 (words lines)

/-- The entries written as `code=characters`. -/
def parseLetters (lines : List String) : List (Nat × List Nat) :=
  (words lines).map fun word =>
    let (code, letters) := (Bytes.cut 0x3d word).getD (word, [])
    (hexNat code, (Utf8.chars letters).map Char.toNat)

/-- A mark, and each character that is formed with it before the character that takes it. -/
def markEntries (mark : Nat) : List Nat → List (Nat × Nat × Option Nat)
  | code :: base :: more => (code, base, some mark) :: markEntries mark more
  | _ => []

/-- Ideographs that stand for others: the images of a code point and of those that follow it. -/
def ideographs : List (Nat × List Nat) := parseLetters
  ["f900=豈更車賈滑串句龜龜契金喇奈懶癩羅蘿螺裸邏樂洛烙珞落酪駱亂卵欄爛蘭鸞嵐濫藍襤拉臘蠟廊朗浪狼郎來冷勞擄櫓爐盧老蘆虜路露魯鷺碌祿綠菉錄鹿論壟弄籠聾牢磊賂雷壘屢樓淚漏累縷陋勒肋凜凌稜綾菱陵讀拏",
   "f95c=樂諾丹寧怒率異北磻便復不泌數索參塞省葉說殺辰沈拾若掠略亮兩凉梁糧良諒量勵呂女廬旅濾礪閭驪麗黎力曆歷轢年憐戀撚漣煉璉秊練聯輦蓮連鍊列劣咽烈裂說廉念捻殮簾獵令囹寧嶺怜玲瑩羚聆鈴零靈領例禮醴",
   "f9b8=隸惡了僚寮尿料樂燎療蓼遼龍暈阮劉杻柳流溜琉留硫紐類六戮陸倫崙淪輪律慄栗率隆利吏履易李梨泥理痢罹裏裡里離匿溺吝燐璘藺隣鱗麟林淋臨立笠粒狀炙識什茶刺切度拓糖宅洞暴輻行降見廓兀嗀",
   "fa10=塚 fa12=晴 fa15=凞猪益礼神祥福靖精羽 fa20=蘒 fa22=諸 fa25=逸都 fa2a=飯飼館鶴郞隷侮僧免勉勤卑喝嘆器塀墨層屮悔慨憎懲敏既暑梅海渚漢煮爫琢碑社祉祈祐祖祝",
   "fa52=禍禎穀突節練縉繁署者臭艹艹著褐視謁謹賓贈辶逸難響頻恵𤋮舘 fa70=並况全侀充冀勇勺喝啕喙嗢塚墳奄奔婢嬨廒廙彩徭惘慎愈憎慠懲戴揄搜摒敖晴朗望杖歹殺流滛滋漢瀞煮瞧爵犯猪瑱甆画瘝瘟益盛直睊",
   "faaa=着磌窱節类絛練缾者荒華蝹襁覆視調諸請謁諾諭謹變贈輸遲醙鉶陼難靖韛響頋頻鬒龜𢡊𢡄𣏕㮝䀘䀹𥉉𥳐𧻓齃龎 2f800=丽丸乁𠄢你侮侻倂偺備僧像㒞𠘺免兔兤具𠔜㒹內再𠕋冗冤仌冬况𩇟凵刃㓟刻剆割剷㔕",
   "2f825=勇勉勤勺包匆北卉卑博即卽卿卿卿𠨬灰及叟𠭣叫叱吆咞吸呈周咢哶唐啓啣善善喙喫喳嗂圖嘆圗噑噴切壮城埴堍型堲報墬𡓤売壷夆多夢奢𡚨𡛪姬娛娧姘婦㛮㛼嬈嬾嬾𡧈寃寘寧寳𡬘寿将当尢㞁屠屮峀岍𡷤嵃𡷦嵮嵫",
   "2f880=嵼巡巢㠯巽帨帽幩㡢𢆃㡼庰庳庶廊𪎒廾𢌱𢌱舁弢弢㣇𣊸𦇚形彫㣣徚忍志忹悁㤺㤜悔𢛔惇慈慌慎慌慺憎憲憤憯懞懲懶成戛扝抱拔捐𢬌挽拼捨掃揤𢯱搢揅掩㨮摩摾撝摷㩬敏敬𣀊旣書晉㬙暑㬈㫤冒冕最暜肭䏙朗望朡",
   "2f8db=杞杓𣏃㭉柺枅桒梅𣑭梎栟椔㮝楂榣槪檨𣚣櫛㰘次𣢧歔㱎歲殟殺殻𣪍𡴋𣫺汎𣲼沿泍汧洖派海流浩浸涅𣴞洴港湮㴳滋滇𣻑淹潮𣽞𣾎濆瀹瀞瀛㶖灊災灷炭𠔥煅𤉣熜𤎫爨爵牐𤘈犀犕𤜵𤠔獺王㺬玥㺸㺸瑇瑜瑱璅瓊㼛甤𤰶",
   "2f936=甾𤲒異𢆟瘐𤾡𤾸𥁄㿼䀈直𥃳𥃲𥄙𥄳眞真真睊䀹瞋䁆䂖𥐝硎碌磌䃣𥘦祖𥚚𥛅福秫䄯穀穊穏𥥼𥪧𥪧竮䈂𥮫篆築䈧𥲀糒䊠糨糣紀𥾆絣䌁緇縂繅䌴𦈨𦉇䍙𦋙罺𦌾羕翺者𦓚𦔣聠𦖨聰𣍟䏕育脃䐋脾媵𦞧𦞵𣎓𣎜舁舄辞䑫芑芋",
   "2f991=芝劳花芳芽苦𦬼若茝荣莭茣莽菧著荓菊菌菜𦰶𦵫𦳕䔫蓱蓳蔖𧏊蕤𦼬䕝䕡𦾱𧃒䕫虐虜虧虩蚩蚈蜎蛢蝹蜨蝫螆䗗蟡蠁䗹衠衣𧙧裗裞䘵裺㒻𧢮𧥦䚾䛇誠諭變豕𧲨貫賁贛起𧼯𠠄跋趼跰𠣞軔輸𨗒𨗭邔郱鄑𨜮鄛鈸鋗鋘鉼鏹",
   "2f9ec=鐕𨯺開䦕閷𨵷䧦雃嶲霣𩅅𩈚䩮䩶韠𩐊䪲𩒖頋頋頩𩖶飢䬳餩馧駂駾䯎𩬰鬒鱀鳽䳎䳭鵧𪃎䳸𪄅𪈎𪊑麻䵖黹黾鼅鼏鼖鼻𪘀"]

/-- Characters that are formed with a mark, by the mark. -/
def marked : List (Nat × List Nat) := parseLetters
  ["300=ÀAÈEÌIÒOÙUàaèeìiòoùuǛÜǜüǸNǹnЀЕЍИѐеѝиḔĒḕēṐŌṑōẀWẁwẦÂầâẰĂằăỀÊềêỒÔồôỜƠờơỪƯừưỲYỳyἂἀἃἁἊἈἋἉἒἐἓἑἚἘἛἙ",
   "300=ἢἠἣἡἪἨἫἩἲἰἳἱἺἸἻἹὂὀὃὁὊὈὋὉὒὐὓὑὛὙὢὠὣὡὪὨὫὩὰαὲεὴηὶιὸοὺυὼωᾺΑῈΕῊΗ῍᾿ῒϊῚΙ῝῾ῢϋῪΥ῭¨ῸΟῺΩ 301=ÁAÉEÍIÓOÚUÝY",
   "301=áaéeíióoúuýyĆCćcĹLĺlŃNńnŔRŕrŚSśsŹZźzǗÜǘüǴGǵgǺÅǻåǼÆǽæǾØǿø΅¨ΆΑΈΕΉΗΊΙΌΟΎΥΏΩΐϊάαέεήηίιΰϋόούυώωϓϒ",
   "301=ЃГЌКѓгќкḈÇḉçḖĒḗēḮÏḯïḰKḱkḾMḿmṌÕṍõṒŌṓōṔPṕpṸŨṹũẂWẃwẤÂấâẮĂắăẾÊếêỐÔốôỚƠớơỨƯứưἄἀἅἁἌἈἍἉἔἐἕἑἜἘἝἙἤἠἥἡ",
   "301=ἬἨἭἩἴἰἵἱἼἸἽἹὄὀὅὁὌὈὍὉὔὐὕὑὝὙὤὠὥὡὬὨὭὩ῎᾿῞῾ 302=ÂAÊEÎIÔOÛUâaêeîiôoûuĈCĉcĜGĝgĤHĥhĴJĵjŜSŝsŴWŵwŶYŷyẐZ",
   "302=ẑzẬẠậạỆẸệẹỘỌộọ 303=ÃAÑNÕOãañnõoĨIĩiŨUũuṼVṽvẪÂẫâẴĂẵăẼEẽeỄÊễêỖÔỗôỠƠỡơỮƯữưỸYỹy 304=ĀAāaĒEēeĪIīi",
   "304=ŌOōoŪUūuǕÜǖüǞÄǟäǠȦǡȧǢÆǣæǬǪǭǫȪÖȫöȬÕȭõȰȮȱȯȲYȳyӢИӣиӮУӯуḠGḡgḸḶḹḷṜṚṝṛᾱαᾹΑῑιῙΙῡυῩΥ 306=ĂAăaĔEĕeĞGğg",
   "306=ĬIĭiŎOŏoŬUŭuЎУЙИйиўуӁЖӂжӐАӑаӖЕӗеḜȨḝȩẶẠặạᾰαᾸΑῐιῘΙῠυῨΥ 307=ĊCċcĖEėeĠGġgİIŻZżzȦAȧaȮOȯoḂBḃbḊDḋdḞF",
   "307=ḟfḢHḣhṀMṁmṄNṅnṖPṗpṘRṙrṠSṡsṤŚṥśṦŠṧšṨṢṩṣṪTṫtẆWẇwẊXẋxẎYẏyẛſ 308=ÄAËEÏIÖOÜUäaëeïiöoüuÿyŸYΪΙΫΥϊιϋυ",
   "308=ϔϒЁЕЇІёеїіӒАӓаӚӘӛәӜЖӝжӞЗӟзӤИӥиӦОӧоӪӨӫөӬЭӭэӰУӱуӴЧӵчӸЫӹыḦHḧhṎÕṏõṺŪṻūẄWẅwẌXẍxẗt 309=ẢAảaẨÂẩâẲĂẳă",
   "309=ẺEẻeỂÊểêỈIỉiỎOỏoỔÔổôỞƠởơỦUủuỬƯửưỶYỷy 30a=ÅAåaŮUůuẘwẙy 30b=ŐOőoŰUűuӲУӳу 30c=ČCčcĎDďdĚEěeĽLľlŇN",
   "30c=ňnŘRřrŠSšsŤTťtŽZžzǍAǎaǏIǐiǑOǒoǓUǔuǙÜǚüǦGǧgǨKǩkǮƷǯʒǰjȞHȟh 30f=ȀAȁaȄEȅeȈIȉiȌOȍoȐRȑrȔUȕuѶѴѷѵ",
   "311=ȂAȃaȆEȇeȊIȋiȎOȏoȒRȓrȖUȗu 313=ἀαἈΑἐεἘΕἠηἨΗἰιἸΙὀοὈΟὐυὠωὨΩῤρ 314=ἁαἉΑἑεἙΕἡηἩΗἱιἹΙὁοὉΟὑυὙΥὡωὩΩῥρ",
   "314=ῬΡ 31b=ƠOơoƯUưu 323=ḄBḅbḌDḍdḤHḥhḲKḳkḶLḷlṂMṃmṆNṇnṚRṛrṢSṣsṬTṭtṾVṿvẈWẉwẒZẓzẠAạaẸEẹeỊIịiỌOọoỢƠợơ",
   "323=ỤUụuỰƯựưỴYỵy 324=ṲUṳu 325=ḀAḁa 326=ȘSșsȚTțt 327=ÇCçcĢGģgĶKķkĻLļlŅNņnŖRŗrŞSşsŢTţtȨEȩeḐDḑdḨHḩh",
   "328=ĄAąaĘEęeĮIįiŲUųuǪOǫo 32d=ḒDḓdḘEḙeḼLḽlṊNṋnṰTṱtṶUṷu 32e=ḪHḫh 330=ḚEḛeḬIḭiṴUṵu 331=ḆBḇbḎDḏdḴKḵk",
   "331=ḺLḻlṈNṉnṞRṟrṮTṯtẔZẕzẖh 338=↚←↛→↮↔⇍⇐⇎⇔⇏⇒∄∃∉∈∌∋∤∣∦∥≁∼≄≃≇≅≉≈≠=≢≡≭≍≮<≯>≰≤≱≥≴≲≵≳≸≶≹≷⊀≺⊁≻⊄⊂⊅⊃⊈⊆⊉⊇⊬⊢",
   "338=⊭⊨⊮⊩⊯⊫⋠≼⋡≽⋢⊑⋣⊒⋪⊲⋫⊳⋬⊴⋭⊵ 342=ἆἀἇἁἎἈἏἉἦἠἧἡἮἨἯἩἶἰἷἱἾἸἿἹὖὐὗὑὟὙὦὠὧὡὮὨὯὩᾶα῁¨ῆη῏᾿ῖιῗϊ῟῾ῦυῧϋῶω",
   "345=ᾀἀᾁἁᾂἂᾃἃᾄἄᾅἅᾆἆᾇἇᾈἈᾉἉᾊἊᾋἋᾌἌᾍἍᾎἎᾏἏᾐἠᾑἡᾒἢᾓἣᾔἤᾕἥᾖἦᾗἧᾘἨᾙἩᾚἪᾛἫᾜἬᾝἭᾞἮᾟἯᾠὠᾡὡᾢὢᾣὣᾤὤᾥὥᾦὦᾧὧᾨὨᾩὩᾪὪᾫὫᾬὬᾭὭ",
   "345=ᾮὮᾯὯᾲὰᾳαᾴάᾷᾶᾼΑῂὴῃηῄήῇῆῌΗῲὼῳωῴώῷῶῼΩ 653=آا 654=أاؤوئيۀەۂہۓے 655=إا 93c=ऩनऱरऴळ bd7=ஔஒ",
   "102e=ဦဥ 1b35=ᬆᬅᬈᬇᬊᬉᬌᬋᬎᬍᬒᬑ 3099=がかぎきぐくげけごこざさじしずすぜせぞそだたぢちづつでてどとばはびひぶふべへぼほゔうゞゝガカギキグクゲケゴコザサジシズスゼセゾソダタ",
   "3099=ヂチヅツデテドトバハビヒブフベヘボホヴウヷワヸヰヹヱヺヲヾヽ 309a=ぱはぴひぷふぺへぽほパハピヒプフペヘポホ 110ba=𑂚𑂙𑂜𑂛𑂫𑂥"]

/-- Vowel signs that are formed from a pair. -/
def vowelSigns : List (Nat × Nat × Option Nat) := parseMappings
  ["9cb=9c7+9be,9c7+9d7 b48=b47+b56 b=b47+b3e,b47+b57 ca=bc6+bbe,bc7+bbe,bc6+bd7 c48=c46+c56",
   "c0=cbf+cd5 7=cc6+cd5,cc6+cd6 a=cc6+cc2,cca+cd5 d4a=d46+d3e,d47+d3e,d46+d57 da=dd9+dca",
   "c=dd9+dcf,ddc+dca,dd9+ddf 1b3b=1b3a+1b35 d=1b3c+1b35 40=1b3e+1b35,1b3f+1b35 3=1b42+1b35",
   "1112e=11131+11127,11132+11127 34b=11347+1133e,11347+11357 4bb=114b9+114ba,114b9+114b0",
   "e=114b9+114bd 5ba=115b8+115af,115b9+115af 938=11935+11930"]

/-- Characters that stand for a pair and are formed again from it. -/
def composites : Array (Nat × Nat × Option Nat) :=
  (marked.flatMap (fun (mark, letters) => markEntries mark letters) ++ vowelSigns).toArray

/-- Characters that are not formed again from what they stand for. -/
def excluded : Array (Nat × Nat × Option Nat) :=
  ((ideographs.flatMap fun (code, (images : List Nat)) =>
    images.mapIdx fun i x => (code + i, x, none)) ++
    parseMappings
    ["340=300,301 3=313,308+301 74=2b9 e=3b 87=b7",
     "958=915+93c,916+93c,917+93c,91c+93c,921+93c,922+93c,92b+93c,92f+93c dc=9a1+9bc,9a2+9bc",
     "f=9af+9bc a33=a32+a3c 6=a38+a3c 59=a16+a3c,a17+a3c,a1c+a3c e=a2b+a3c b5c=b21+b3c,b22+b3c",
     "f43=f42+fb7 d=f4c+fb7 52=f51+fb7 7=f56+fb7 c=f5b+fb7 69=f40+fb5 73=f71+f72 5=f71+f74,fb2+f80",
     "8=fb3+f80 81=f71+f80 93=f92+fb7 d=f9c+fb7 a2=fa1+fb7 7=fa6+fb7 c=fab+fb7 b9=f90+fb5 1f71=3ac",
     "3=3ad 5=3ae 7=3af 9=3cc b=3cd d=3ce bb=386 e=3b9 c9=388 b=389 d3=390 b=38a e3=3b0 b=38e",
     "e=385,60 f9=38c b=38f d=b4 2000=2002,2003 126=3a9 a=4b,c5 329=3008,3009 adc=2add+338",
     "fb1d=5d9+5b4 f=5f2+5b7",
     "2a=5e9+5c1,5e9+5c2,fb49+5c1,fb49+5c2,5d0+5b7,5d0+5b8,5d0+5bc,5d1+5bc,5d2+5bc,5d3+5bc,5d4+5bc,5d5+5bc,5d6+5bc",
     "8=5d8+5bc,5d9+5bc,5da+5bc,5db+5bc,5dc+5bc e=5de+5bc 40=5e0+5bc,5e1+5bc 3=5e3+5bc,5e4+5bc",
     "6=5e6+5bc,5e7+5bc,5e8+5bc,5e9+5bc,5ea+5bc,5d5+5b9,5d1+5bf,5db+5bf,5e4+5bf",
     "1d15e=1d157+1d165,1d158+1d165,1d15f+1d16e,1d15f+1d16f,1d15f+1d170,1d15f+1d171,1d15f+1d172",
     "bb=1d1b9+1d165,1d1ba+1d165,1d1bb+1d16e,1d1bc+1d16e,1d1bb+1d16f,1d1bc+1d16f"]).toArray

/-- Runs of characters with one nonzero combining class, written `range:class`. -/
def combiningClasses : Runs := parseRuns decimalNat
  ["300-14:230 5:232 6-9:220 a:232 b:216 c-20:220 1-2:202 3-6:220 7-8:202 9-33:220 4-8:1 9-c:220",
   "d-44:230 5:240 6:230 7-9:220 a-c:230 d-e:220 50-2:230 3-6:220 7:230 8:232 9-a:220 b:230 c:233",
   "d-e:234 f:233 60-1:234 2:233 3-f:230 483-7:230 591:220 2-5:230 6:220 7-9:230 a:222 b:220",
   "c-a1:230 2-7:220 8-9:230 a:220 b-c:230 d:222 e:228 f:230 b0:10 1:11 2:12 3:13 4:14 5:15 6:16",
   "7:17 8:18 9-a:19 b:20 c:21 d:22 f:23 c1:24 2:25 4:230 5:220 7:18 610-7:230 8:30 9:31 a:32",
   "4b:27 c:28 d:29 e:30 f:31 50:32 1:33 2:34 3-4:230 5-6:220 7-b:230 c:220 d-e:230 f:220 70:35",
   "d6-c:230 f-e2:230 3:220 4:230 7-8:230 a:220 b-c:230 d:220 711:36 30:230 1:220 2-3:230 4:220",
   "5-6:230 7-9:220 a:230 b-c:220 d:230 e:220 f-41:230 2:220 3:230 4:220 5:230 6:220 7:230 8:220",
   "9-a:230 eb-f1:230 2:220 3:230 d:220 816-9:230 b-23:230 5-7:230 9-d:230 59-b:220 98:230 9-b:220",
   "c-f:230 ca-e:230 f-d3:220 4-e1:230 3:220 4-5:230 6:220 7-8:230 9:220 a-c:230 d-f:220 f0:27",
   "1:28 2:29 3-5:230 6:220 7-8:230 9-a:220 b-f:230 93c:7 4d:9 51:230 2:220 3-4:230 bc:7 cd:9",
   "fe:230 a3c:7 4d:9 bc:7 cd:9 b3c:7 4d:9 cd:9 c3c:7 4d:9 55:84 6:91 bc:7 cd:9 d3b-c:9 4d:9 ca:9",
   "e38-9:103 a:9 48-b:107 b8-9:118 a:9 c8-b:122 e:122 f18-9:220 35:220 7:220 9:216 71:129 2:130",
   "4:132 a-d:130 80:130 2-3:230 4:9 6-7:230 c6:220 1037:7 9-a:9 8d:220 35d-f:230 714-5:9 34:9",
   "d2:9 d:230 8a9:228 939:222 a:230 b:220 a17:230 8:220 60:9 75-c:230 f:220 b0-4:230 5-a:220",
   "b-c:230 d:220 f-c0:220 1-2:230 3-4:220 5-9:230 a:220 b-e:230 b34:7 44:9 6b:230 c:220 d-73:230",
   "aa-b:9 e6:7 f2-3:9 c37:7 d0-2:230 4:1 5-9:220 a-b:230 c-f:220 e0:230 2-8:1 d:220 f4:230",
   "8-9:230 dc0-1:230 2:220 3-9:230 a:220 b-c:230 d:234 e:214 f:220 d0:202 1-f5:230 6:232 7-8:228",
   "9:220 a:218 b:230 c:233 d:220 e:230 f:220 20d0-1:230 2-3:1 4-7:230 8-a:1 b-c:230 e1:230 5-6:1",
   "7:230 8:220 9:230 a-b:1 c-f:220 f0:230 cef-f1:230 d7f:9 e0-ff:230 302a:218 b:228 c:232 d:222",
   "e-f:224 99-a:8 a66f:230 74-d:230 9e-f:230 f0-1:230 806:9 2c:9 c4:9 e0-f1:230 92b-d:220 53:9",
   "b3:7 c0:9 ab0:230 2-3:230 4:220 7-8:230 e-f:230 c1:230 f6:9 bed:9 fb1e:26 e20-6:230 7-d:220",
   "e-f:230 101fd:220 2e0:220 376-a:230 a0d:220 f:230 38:230 9:1 a:220 f:9 e5:230 6:220 d24-7:230",
   "eab-c:230 fd-f:220 f46-7:220 8-a:230 b:220 c:230 d-50:220 82:230 3:220 4:230 5:220 1046:9 70:9",
   "f:9 b9:9 a:7 100-2:230 33-4:9 73:7 c0:9 a:7 235:9 6:7 e9:7 a:9 33b-c:7 4d:9 66-c:230 70-4:230",
   "442:9 6:7 5e:230 c2:9 3:7 5bf:9 c0:7 63f:9 b6:9 7:7 72b:9 839:9 a:7 93d-e:9 43:7 e0:9 a34:9",
   "47:9 99:9 c3f:9 d42:7 4-5:9 97:9 f41-2:9 6af0-4:1 b30-6:230 ff0-1:6 bc9e:1 d165-6:216 7-9:1",
   "d:226 e-72:216 b-82:220 5-9:230 a-b:220 aa-d:230 242-4:230 e000-6:230 8-18:230 b-21:230",
   "3-4:230 6-a:230 8f:230 130-6:230 2ae:230 ec-f:230 4ec-d:232 e:220 f:230 8d0-6:220 944-9:230",
   "a:7"]

/-- The combining class of a code point; zero for a character that starts a cluster. -/
def combiningClass (code : Nat) : Nat :=
  if code < 0x300 then 0
  else ((combiningClasses.find? code).map (·.2)).getD 0

def decomposeOnce (code : Nat) : Option (Nat × Option Nat) :=
  let hit (t : Array (Nat × Nat × Option Nat)) := (t.find? (·.1 == code)).map (·.2)
  (hit composites).orElse fun _ => hit excluded

def composePair (x y : Nat) : Option Nat :=
  (composites.find? fun (_, a, b) => a == x && b == some y).map (·.1)

def hangulBase : Nat := 0xac00

def decomposeHangul (code : Nat) : List Nat :=
  let s := code - hangulBase
  let l := 0x1100 + s / 588
  let v := 0x1161 + s % 588 / 28
  if s % 28 = 0 then [l, v] else [l, v, 0x11a7 + s % 28]

/-- The full canonical decomposition of a code point; a decomposition is at most four steps
deep. -/
def decompose : (depth : Nat) → Nat → List Nat
  | 0, code => [code]
  | depth + 1, code =>
    if code < 0xc0 then [code]
    else if hangulBase ≤ code && code < hangulBase + 11172 then decomposeHangul code
    else match decomposeOnce code with
      | none => [code]
      | some (x, none) => decompose depth x
      | some (x, some y) => decompose depth x ++ [y]

end VecLang.Unicode
