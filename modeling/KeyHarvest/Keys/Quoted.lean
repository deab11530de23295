/-
Quoted keys: `'dfa.menu.file|File menu'` anywhere in a source. A key has a
name space, a dotted name of ASCII word characters, a bar and a payload,
and stands between quotes. Code that puts keys together with `+` is no
key, so the payload holds none. A key with one of the excluded markers in
it is a placeholder and is left out.
-/
import KeyHarvest.Catalog.Basic
import KeyHarvest.Text.Pattern
import KeyHarvest.Text.Word

namespace KeyHarvest

/-- What is searched for: the name space of the keys, and the markers of
placeholders. -/
structure QuotedKeys where
  space : Text
  excluded : List Text
  deriving DecidableEq, Repr

namespace QuotedKeys

/-- A single or double quote. -/
def isQuote (c : CodePoint) : Bool := c = '\'' || c = '"'

/-- The pattern of a key with its quotes. -/
def pattern (space : Text) : List Pattern.Item :=
  .one isQuote :: Pattern.spelled space
    ++ [.one (· = '.'), .greedy fun c => c.isAsciiWord || c = '.', .one (· = '|'),
        .lazy (· ≠ '+'), .one isQuote]

/-- The keys of a source between their quotes, with repetitions. -/
def captures (space source : Text) : List Text :=
  (Pattern.findAll (pattern space) source).map fun t => (t.drop 1).dropLast

/-- Whether a key is a placeholder. -/
def isPlaceholder (q : QuotedKeys) (key : Text) : Bool :=
  q.excluded.any fun marker => Text.holds marker key

/-- The keys of a source. -/
def extract (q : QuotedKeys) (source : Text) : Catalog :=
  Catalog.empty.insertKeys ((captures q.space source).filter fun key => !q.isPlaceholder key)

end QuotedKeys

end KeyHarvest
