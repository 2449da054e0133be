import Mathlib.Data.List.Basic
import Mathlib.Data.Nat.Notation

/-!
Generated group names and the check a chosen one must pass. A group name doubles
as a subdomain, so it is a DNS label.
-/
namespace WireMirage

def maxLabelLen : Nat := 63

def adjectives : List String := [
  "swift", "calm", "amber", "brave", "bright", "clever", "cosmic", "crisp", "dapper", "eager",
  "fancy", "gentle", "glad", "golden", "happy", "jolly", "keen", "lively", "lucky", "merry",
  "mellow", "noble", "plucky", "proud", "quiet", "rapid", "ruby", "sage", "scarlet", "shiny",
  "sleek", "snappy", "solar", "spry", "sterling", "sunny", "teal", "tidy", "vivid", "witty",
  "zesty", "azure", "breezy", "frosty", "hardy", "ivory", "jaunty", "mighty", "agile", "ample",
  "balmy", "bold", "brisk", "chipper", "classic", "clean", "cobalt", "cozy", "dandy", "daring",
  "deft", "dewy", "downy", "dreamy", "earnest", "easy", "fleet", "fond", "frank", "fresh",
  "gallant", "giddy", "graceful", "grand", "hearty", "honest", "humble", "jade", "kind",
  "limber", "lithe", "loyal", "lush", "marble", "modest", "nimble", "opal", "peppy", "placid",
  "polished", "prime", "pure", "quick", "regal", "robust", "rosy", "rugged", "rustic", "serene",
  "sharp", "silver", "smart", "smooth", "snug", "sober", "spirited", "steady", "stoic", "stout",
  "sturdy", "suave", "sunlit", "sweet", "tender", "trusty", "upbeat", "urbane", "valiant",
  "velvet", "verdant", "warm", "vibrant", "wise", "wistful", "wry", "zealous", "zen", "plush"]

def nouns : List String := [
  "otter", "finch", "falcon", "willow", "cedar", "comet", "ember", "river", "meadow", "badger",
  "heron", "sparrow", "lynx", "beacon", "canyon", "delta", "fjord", "glade", "grove", "harbor",
  "isle", "kestrel", "lagoon", "maple", "nimbus", "oak", "pine", "quartz", "reef", "summit",
  "thicket", "vale", "walrus", "yarrow", "zephyr", "basin", "brook", "cove", "dune", "fern",
  "gull", "hollow", "inlet", "jetty", "knoll", "ledge", "marsh", "ridge", "acorn", "alder",
  "arbor", "aspen", "aurora", "birch", "bison", "bluff", "bramble", "breeze", "cliff", "cloud",
  "crane", "creek", "crest", "dahlia", "dale", "dawn", "dell", "drift", "eagle", "egret", "elm",
  "fox", "gale", "garnet", "geyser", "glacier", "gorge", "hawk", "hazel", "hedge", "heath",
  "hill", "ibis", "juniper", "lake", "lark", "laurel", "lily", "lotus", "mantis", "marlin",
  "mesa", "mist", "moss", "moth", "oasis", "onyx", "orchid", "osprey", "owl", "peak", "pebble",
  "petal", "plover", "pond", "poppy", "prairie", "quail", "raven", "robin", "sable", "shore",
  "sierra", "slope", "sorrel", "spruce", "stork", "stream", "tarn", "tundra", "vista", "wren",
  "glen", "beck", "fell", "holt", "wold", "moor"]

abbrev Draw := Fin adjectives.length × Fin nouns.length

/-- The name that a draw of two positions in the word lists gives. -/
def generate (draw : Draw) : String := adjectives.get draw.1 ++ "-" ++ nouns.get draw.2

def labelChar (c : Char) : Bool := c.isLower || c.isDigit || c == '-'

def isValidLabel (name : String) : Bool :=
  let len := name.utf8ByteSize
  if len = 0 ∨ len > maxLabelLen then false
  else if name.toList.head? = some '-' ∨ name.toList.getLast? = some '-' then false
  else name.toList.all labelChar

/-- The characters that `trim` removes: those of the Unicode property `White_Space`. -/
def whiteSpace (c : Char) : Bool :=
  let n := c.toNat
  (9 ≤ n ∧ n ≤ 13) || n == 32 || n == 133 || n == 160 || n == 5760 || (8192 ≤ n ∧ n ≤ 8202) ||
    n == 8232 || n == 8233 || n == 8239 || n == 8287 || n == 12288

def trim (s : String) : String :=
  String.ofList ((s.toList.dropWhile whiteSpace).reverse.dropWhile whiteSpace).reverse

def isBlank (name : String) : Bool := name.toList.all whiteSpace

def debugChar : Char → String
  | '"' => "\\\""
  | '\\' => "\\\\"
  | '\n' => "\\n"
  | '\r' => "\\r"
  | '\t' => "\\t"
  | c => c.toString

/-- The text that debug formatting gives for a text of printable characters. -/
def debugText (s : String) : String := "\"" ++ String.join (s.toList.map debugChar) ++ "\""

end WireMirage
