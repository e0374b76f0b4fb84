import EntityGraph.Naming.Pattern

/-!
# Irregular words and endings

The vocabulary by which singular and plural are formed: words whose two forms are listed,
words that have no plural, and rules on endings. Later rules are more special than earlier
ones and go before them. In a replacement `$1` and `$2` stand for the parts that the pattern
keeps and `$0` for the whole fit.
-/
namespace EntityGraph.Naming

open Pattern

/-- Singular and plural of words that follow no rule. -/
def irregularWords : List (String × String) := [
  ("I", "we"), ("me", "us"), ("he", "they"), ("she", "they"), ("them", "them"),
  ("myself", "ourselves"),
  ("yourself", "yourselves"), ("itself", "themselves"), ("herself", "themselves"),
  ("himself", "themselves"), ("themself", "themselves"), ("is", "are"), ("was", "were"),
  ("has", "have"), ("this", "these"), ("that", "those"), ("my", "our"), ("its", "their"),
  ("his", "their"), ("her", "their"), ("echo", "echoes"), ("dingo", "dingoes"),
  ("volcano", "volcanoes"), ("tornado", "tornadoes"), ("torpedo", "torpedoes"),
  ("genus", "genera"), ("viscus", "viscera"), ("stigma", "stigmata"), ("stoma", "stomata"),
  ("dogma", "dogmata"), ("lemma", "lemmata"), ("schema", "schemata"),
  ("anathema", "anathemata"), ("ox", "oxen"), ("axe", "axes"), ("die", "dice"),
  ("yes", "yeses"), ("foot", "feet"), ("eave", "eaves"), ("goose", "geese"), ("tooth", "teeth"),
  ("quiz", "quizzes"), ("human", "humans"), ("proof", "proofs"), ("carve", "carves"),
  ("valve", "valves"), ("looey", "looies"), ("thief", "thieves"), ("groove", "grooves"),
  ("pickaxe", "pickaxes"), ("passerby", "passersby"), ("canvas", "canvases")]

/-- Words that are their own plural. -/
def uncountableWords : List String := [
  "adulthood", "advice", "agenda", "aid", "aircraft", "alcohol", "ammo", "analytics", "anime",
  "athletics", "audio", "bison", "blood", "bream", "buffalo", "butter", "carp", "cash",
  "chassis", "chess", "clothing", "cod", "commerce", "cooperation", "corps", "debris",
  "diabetes", "digestion", "elk", "energy", "equipment", "excretion", "expertise", "firmware",
  "flounder", "fun", "gallows", "garbage", "graffiti", "hardware", "headquarters", "health",
  "herpes", "highjinks", "homework", "housework", "information", "jeans", "justice", "kudos",
  "labour", "literature", "machinery", "mackerel", "mail", "media", "mews", "moose", "music",
  "mud", "manga", "news", "only", "personnel", "pike", "plankton", "pliers", "police",
  "pollution", "premises", "rain", "research", "rice", "salmon", "scissors", "series", "sewage",
  "shambles", "shrimp", "software", "staff", "swine", "tennis", "traffic", "transportation",
  "trout", "tuna", "wealth", "welfare", "whiting", "wildebeest", "wildlife", "you"]

structure EndingRule where
  pattern : Pattern
  replacement : String

/-- A rule for words that end in these parts, one after the other. -/
def ending (parts : List Pattern) (replacement : String) : EndingRule :=
  ⟨.all (parts ++ [.finish]), replacement⟩

/-- Endings of words that are their own plural. -/
def uncountableEndings : List EndingRule := [
  ending [word "pok", within "eé", word "mon"] "$0",
  ending [outside "aeiou", word "ese"] "$0",
  ending [word "deer"] "$0",
  ending [word "fish"] "$0",
  ending [word "measles"] "$0",
  ending [word "o", within "iu", word "s"] "$0",
  ending [word "pox"] "$0",
  ending [word "sheep"] "$0"]

/-- Stems that take `us` and in the plural `i`. -/
def usStems : List String := [
  "alumn", "syllab", "vir", "radi", "nucle", "fung", "cact", "stimul", "termin", "bacill", "foc",
  "uter", "loc", "strat"]

/-- Stems that take `on` and in the plural `a`. -/
def onStems : List String := [
  "apheli", "hyperbat", "periheli", "asyndet", "noumen", "phenomen", "criteri", "organ",
  "prolegomen", "hedr", "automat"]

/-- Stems that take `um` and in the plural `a`. -/
def umStems : List String := [
  "agend", "addend", "millenni", "dat", "extrem", "bacteri", "desiderat", "strat", "candelabr",
  "errat", "ov", "symposi", "curricul"]

/-- What may stand before `lives` in the plural of a word in `life`. -/
def lifePrefix : Pattern :=
  .either [anyWord ["after", "half", "high", "low", "mid", "non", "night"], .outsideWord, .start]

def pluralEndings : List EndingRule := [
  ending [.optional (word "s")] "s",
  ending [.beyondAscii] "$0",
  ending [.keep (.all [outside "aeiou", word "ese"])] "$1",
  ending [.keep (anyWord ["ax", "test"]), word "is"] "$1es",
  ending [.keep (.either [word "alias", .all [outside "aou", word "us"],
    .all [word "t", within "lm", word "as"], word "gas", word "ris"])] "$1es",
  ending [.keep (.all [word "e", within "mn", word "u"]), .optional (word "s")] "$1s",
  ending [.keep (.either [.all [outside "l", word "ias"], .all [within "aeiou", word "las"],
    .all [within "ejzr", word "as"], .all [within "iu", word "am"]])] "$1",
  ending [.keep (anyWord usStems), anyWord ["us", "i"]] "$1i",
  ending [.keep (anyWord ["alumn", "alg", "vertebr"]), anyWord ["a", "ae"]] "$1ae",
  ending [.keep (anyWord ["seraph", "cherub"]), .optional (word "im")] "$1im",
  ending [.keep (anyWord ["her", "at", "gr"]), word "o"] "$1oes",
  ending [.keep (anyWord (umStems ++ ["automat", "quor"])), anyWord ["a", "um"]] "$1a",
  ending [.keep (anyWord onStems), anyWord ["a", "on"]] "$1a",
  ending [word "sis"] "ses",
  ending [.either [.all [.keep (anyWord ["kni", "wi", "li"]), word "fe"],
    .all [.keep (anyWord ["ar", "l", "ea", "eo", "oa", "hoo"]), word "f"]]] "$1$2ves",
  ending [.keep (.either [outside "aeiouy", word "qu"]), word "y"] "$1ies",
  ending [.keep (.all [outside "ch", within "ieo", within "ln"]), word "ey"] "$1ies",
  ending [.keep (anyWord ["x", "ch", "ss", "sh", "zz"])] "$1es",
  ending [.keep (anyWord ["matr", "cod", "mur", "sil", "vert", "ind", "append"]),
    anyWord ["ix", "ex"]] "$1ices",
  ending [.boundary, .keep (.either [.all [.optional (word "tit"), word "m"], word "l"]),
    anyWord ["ice", "ouse"]] "$1ice",
  ending [.keep (word "pe"), anyWord ["rson", "ople"]] "$1ople",
  ending [.keep (word "child"), .optional (word "ren")] "$1ren",
  ending [word "eaux"] "$0",
  ending [word "m", within "ae", word "n"] "men",
  ending [.start, word "thou"] "you"]

def singularEndings : List EndingRule := [
  ending [word "s"] "",
  ending [.keep (word "ss")] "$1",
  ending [.keep (.either [word "wi", word "kni", .all [lifePrefix, word "li"]]), word "ves"] "$1fe",
  ending [.keep (.either [word "ar", .all [.either [word "wo", within "ae"], word "l"],
    .all [within "eo", within "ao"]]), word "ves"] "$1f",
  ending [word "ies"] "y",
  ending [.keep (anyWord ["dg", "ss", "ois", "lk", "ok", "wn", "mb", "th", "ch", "ec", "oal", "is",
    "ck", "ix", "sser", "ts", "wb"]), word "ies"] "$1ie",
  ending [.boundary, .keep (.either [word "l",
    .all [.optional (anyWord ["neck", "cross", "hog", "aun"]), word "t"],
    anyWord ["coll", "faer", "food", "gen", "goon", "group", "hipp", "junk", "vegg"],
    .all [.optional (word "pork"), word "p"], anyWord ["charl", "calor", "cut"]]),
    word "ies"] "$1ie",
  ending [.boundary, .keep (anyWord ["mon", "smil"]), word "ies"] "$1ey",
  ending [.boundary, .keep (.either [.all [.optional (word "tit"), word "m"], word "l"]),
    word "ice"] "$1ouse",
  ending [.keep (anyWord ["seraph", "cherub"]), word "im"] "$1",
  ending [.keep (.either [anyWord ["x", "ch", "ss", "sh", "zz", "tto", "go", "cho", "alias"],
    .all [outside "aou", word "us"], .all [word "t", within "lm", word "as"], word "gas",
    .all [anyWord ["her", "at", "gr"], word "o"], .all [within "aeiou", word "ris"]]),
    .optional (word "es")] "$1",
  ending [.keep (anyWord ["analy", "diagno", "parenthe", "progno", "synop", "the", "empha", "cri",
    "ne"]), anyWord ["sis", "ses"]] "$1sis",
  ending [.keep (.either [anyWord ["movie", "twelve", "abuse"],
    .all [word "e", within "mn", word "u"]]), word "s"] "$1",
  ending [.keep (word "test"), anyWord ["is", "es"]] "$1is",
  ending [.keep (anyWord usStems), anyWord ["us", "i"]] "$1us",
  ending [.keep (anyWord (umStems ++ ["quor"])), word "a"] "$1um",
  ending [.keep (anyWord onStems), word "a"] "$1on",
  ending [.keep (anyWord ["alumn", "alg", "vertebr"]), word "ae"] "$1a",
  ending [.keep (anyWord ["cod", "mur", "sil", "vert", "ind"]), word "ices"] "$1ex",
  ending [.keep (anyWord ["matr", "append"]), word "ices"] "$1ix",
  ending [.keep (word "pe"), .keep (anyWord ["rson", "ople"])] "$1rson",
  ending [.keep (word "child"), word "ren"] "$1",
  ending [.keep (word "eau"), .optional (word "x")] "$1",
  ending [word "men"] "man"]

end EntityGraph.Naming
