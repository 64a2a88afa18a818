/-!
# Accents

The accents that can be put on a letter, each as a combining mark, and the letters that
have a character of their own for a letter and its accent: the canonical compositions
of Unicode.
-/

namespace PostRun
namespace Text

/-- An accent. -/
inductive Accent where
  | grave
  | acute
  | circumflex
  | tilde
  | macron
  | breve
  | dotAbove
  | diaeresis
  | ringAbove
  | doubleAcute
  | caron
  | dotBelow
  | cedilla
  | ogonek
  | lineBelow
  | solidus
  deriving DecidableEq

namespace Accent

/-- The combining mark of an accent. -/
def mark : Accent → Char
  | grave => '\u0300'
  | acute => '\u0301'
  | circumflex => '\u0302'
  | tilde => '\u0303'
  | macron => '\u0304'
  | breve => '\u0306'
  | dotAbove => '\u0307'
  | diaeresis => '\u0308'
  | ringAbove => '\u030a'
  | doubleAcute => '\u030b'
  | caron => '\u030c'
  | dotBelow => '\u0323'
  | cedilla => '\u0327'
  | ogonek => '\u0328'
  | lineBelow => '\u0332'
  | solidus => '\u0338'

/-- The letters that an accent composes with, each before what they make. -/
def compositions : Accent → List String
  | grave =>
      ["AÀEÈIÌNǸOÒUÙWẀYỲaàeèiìnǹoòuùwẁyỳ¨῭ÂẦÊỀÔỒÜǛâầêềôồüǜĂẰăằĒḔēḕŌṐōṑƠỜơờƯỪưừΑᾺ",
       "ΕῈΗῊΙῚΟῸΥῪΩῺαὰεὲηὴιὶοὸυὺωὼϊῒϋῢЕЀИЍеѐиѝἀἂἁἃἈἊἉἋἐἒἑἓἘἚἙἛἠἢἡἣἨἪἩἫἰἲἱἳἸἺἹἻὀὂ",
       "ὁὃὈὊὉὋὐὒὑὓὙὛὠὢὡὣὨὪὩὫ᾿῍῾῝"]
  | acute =>
      ["AÁCĆEÉGǴIÍKḰLĹMḾNŃOÓPṔRŔSŚUÚWẂYÝZŹaácćeégǵiíkḱlĺmḿnńoópṕrŕsśuúwẃyýzź¨΅ÂẤ",
       "ÅǺÆǼÇḈÊẾÏḮÔỐÕṌØǾÜǗâấåǻæǽçḉêếïḯôốõṍøǿüǘĂẮăắĒḖēḗŌṒōṓŨṸũṹƠỚơớƯỨưứΑΆΕΈΗΉΙΊΟΌ",
       "ΥΎΩΏαάεέηήιίοόυύωώϊΐϋΰϒϓГЃКЌгѓкќἀἄἁἅἈἌἉἍἐἔἑἕἘἜἙἝἠἤἡἥἨἬἩἭἰἴἱἵἸἼἹἽὀὄὁὅὈὌὉὍ",
       "ὐὔὑὕὙὝὠὤὡὥὨὬὩὭ᾿῎῾῞"]
  | circumflex =>
      ["AÂCĈEÊGĜHĤIÎJĴOÔSŜUÛWŴYŶZẐaâcĉeêgĝhĥiîjĵoôsŝuûwŵyŷzẑẠẬạậẸỆẹệỌỘọộ"]
  | tilde =>
      ["AÃEẼIĨNÑOÕUŨVṼYỸaãeẽiĩnñoõuũvṽyỹÂẪÊỄÔỖâẫêễôỗĂẴăẵƠỠơỡƯỮưữ"]
  | macron =>
      ["AĀEĒGḠIĪOŌUŪYȲaāeēgḡiīoōuūyȳÄǞÆǢÕȬÖȪÜǕäǟæǣõȭöȫüǖǪǬǫǭȦǠȧǡȮȰȯȱΑᾹΙῙΥῩαᾱιῑυῡ",
       "ИӢУӮиӣуӯḶḸḷḹṚṜṛṝ"]
  | breve =>
      ["AĂEĔGĞIĬOŎUŬaăeĕgğiĭoŏuŭȨḜȩḝΑᾸΙῘΥῨαᾰιῐυῠАӐЕӖЖӁИЙУЎаӑеӗжӂийуўẠẶạặ"]
  | dotAbove =>
      ["AȦBḂCĊDḊEĖFḞGĠHḢIİMṀNṄOȮPṖRṘSṠTṪWẆXẊYẎZŻaȧbḃcċdḋeėfḟgġhḣmṁnṅoȯpṗrṙsṡtṫwẇ",
       "xẋyẏzżŚṤśṥŠṦšṧſẛṢṨṣṩ"]
  | diaeresis =>
      ["AÄEËHḦIÏOÖUÜWẄXẌYŸaäeëhḧiïoötẗuüwẅxẍyÿÕṎõṏŪṺūṻΙΪΥΫιϊυϋϒϔІЇАӒЕЁЖӜЗӞИӤОӦУӰ",
       "ЧӴЫӸЭӬаӓеёжӝзӟиӥоӧуӱчӵыӹэӭіїӘӚәӛӨӪөӫ"]
  | ringAbove =>
      ["AÅUŮaåuůwẘyẙ"]
  | doubleAcute =>
      ["OŐUŰoőuűУӲуӳ"]
  | caron =>
      ["AǍCČDĎEĚGǦHȞIǏKǨLĽNŇOǑRŘSŠTŤUǓZŽaǎcčdďeěgǧhȟiǐjǰkǩlľnňoǒrřsštťuǔzžÜǙüǚƷǮ",
       "ʒǯ"]
  | dotBelow =>
      ["AẠBḄDḌEẸHḤIỊKḲLḶMṂNṆOỌRṚSṢTṬUỤVṾWẈYỴZẒaạbḅdḍeẹhḥiịkḳlḷmṃnṇoọrṛsṣtṭuụvṿwẉ",
       "yỵzẓƠỢơợƯỰưự"]
  | cedilla =>
      ["CÇDḐEȨGĢHḨKĶLĻNŅRŖSŞTŢcçdḑeȩgģhḩkķlļnņrŗsştţ"]
  | ogonek =>
      ["AĄEĘIĮOǪUŲaąeęiįoǫuų"]
  | lineBelow => []
  | solidus =>
      ["<≮=≠>≯←↚→↛↔↮⇐⇍⇒⇏⇔⇎∃∄∈∉∋∌∣∤∥∦∼≁≃≄≅≇≈≉≍≭≡≢≤≰≥≱≲≴≳≵≶≸≷≹≺⊀≻⊁≼⋠≽⋡⊂⊄⊃⊅⊆⊈⊇⊉⊑⋢⊒⋣",
       "⊢⊬⊨⊭⊩⊮⊫⊯⊲⋪⊳⋫⊴⋬⊵⋭"]

/-- Looks a letter up in text that lists letters before their compositions. -/
def composedIn? (letter : Char) : List Char → Option Char
  | base :: composed :: rest => if base = letter then some composed else composedIn? letter rest
  | _ => none

/-- The character of a letter with an accent, if there is one. -/
def compose? (a : Accent) (letter : Char) : Option Char :=
  a.compositions.findSome? fun line => composedIn? letter line.toList

/-- A letter without its dot, or any other letter, ready to take an accent. -/
def dotted (letter : Char) : Char :=
  if letter = 'ı' then 'i' else if letter = 'ȷ' then 'j' else letter

/-- Puts an accent on the last letter of a text.  A letter that does not compose stays as it is,
and an empty text becomes the mark alone. -/
def onLast (a : Accent) (text : List Char) : List Char :=
  match text.getLast? with
  | none => [a.mark]
  | some letter => text.dropLast ++ [(a.compose? (dotted letter)).getD (dotted letter)]

end Accent
end Text
end PostRun
