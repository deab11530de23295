/-
What the names of tags decide. A name is told apart from others by its
upper-case bytes. Void elements hold nothing of their own and end where
the next tag begins; some other elements end where a tag begins that they
cannot contain. Names that the standard does not list form one class:
where an end tag looks for something to close, any of them will do.
-/
import KeyHarvest.Text.Letter
import KeyHarvest.Text.Upper

namespace KeyHarvest.Markup

/-- The name of a tag: one of the standard, in lower case, or any other by
its bytes. -/
inductive TagName where
  | listed (name : String)
  | custom (bytes : List UInt8)
  deriving DecidableEq, Repr

namespace TagName

/-- The names that end without an end tag. -/
def voidNames : List String :=
  ["area", "base", "basefont", "bgsound", "br", "col", "command", "embed", "frame", "hr", "image",
   "img", "input", "isindex", "keygen", "link", "menuitem", "meta", "nextid", "param", "source",
   "track", "wbr"]

/-- The other names of the standard. -/
def plainNames : List String :=
  ["a", "abbr", "address", "article", "aside", "audio", "b", "bdi", "bdo", "blockquote", "body",
   "button", "canvas", "caption", "cite", "code", "colgroup", "data", "datalist", "dd", "del",
   "details", "dfn", "dialog", "div", "dl", "dt", "em", "fieldset", "figcaption", "figure",
   "footer", "form", "h1", "h2", "h3", "h4", "h5", "h6", "head", "header", "hgroup", "html", "i",
   "iframe", "ins", "kbd", "label", "legend", "li", "main", "map", "mark", "math", "menu", "meter",
   "nav", "noscript", "object", "ol", "optgroup", "option", "output", "p", "picture", "pre",
   "progress", "q", "rb", "rp", "rt", "rtc", "ruby", "s", "samp", "script", "section", "select",
   "slot", "small", "span", "strong", "style", "sub", "summary", "sup", "svg", "table", "tbody",
   "td", "template", "textarea", "tfoot", "th", "thead", "time", "title", "tr", "u", "ul", "var",
   "video"]

/-- The elements before which a paragraph ends. -/
def paragraphEnders : List String :=
  ["address", "article", "aside", "blockquote", "details", "div", "dl", "fieldset", "figcaption",
   "figure", "footer", "form", "h1", "h2", "h3", "h4", "h5", "h6", "header", "hr", "main", "nav",
   "ol", "p", "pre", "section"]

/-- What a name is compared by: each code point in upper case, and of that
the lowest byte. -/
def bytesOf (t : Text) : List UInt8 := t.map fun c => UInt8.ofNat c.upper.val

/-- The name that a text spells. -/
def ofText (t : Text) : TagName :=
  match (voidNames ++ plainNames).find? fun s => bytesOf (Text.ofString s) = bytesOf t with
  | some s => .listed s
  | none => .custom (bytesOf t)

/-- Whether a name is one of several of the standard. -/
def isOneOf (names : List String) : TagName → Bool
  | .listed s => names.contains s
  | .custom _ => false

/-- A name of an element that holds nothing. -/
def isVoid (name : TagName) : Bool := name.isOneOf voidNames

/-- Whether an end tag would close an element further out: it has the same
name, or neither name is of the standard. -/
def sameClass : TagName → TagName → Bool
  | .listed a, .listed b => a = b
  | .custom _, .custom _ => true
  | _, _ => false

/-- Whether an element may hold a tag; where it may not, it ends. -/
def canContain (parent child : TagName) : Bool :=
  if parent.isOneOf ["li"] then !child.isOneOf ["li"]
  else if parent.isOneOf ["dt", "dd"] then !child.isOneOf ["dt", "dd"]
  else if parent.isOneOf ["p"] then !child.isOneOf paragraphEnders
  else if parent.isOneOf ["colgroup"] then child.isOneOf ["col"]
  else if parent.isOneOf ["rb", "rt", "rp"] then !child.isOneOf ["rb", "rt", "rp"]
  else if parent.isOneOf ["optgroup"] then !child.isOneOf ["optgroup"]
  else if parent.isOneOf ["tr"] then !child.isOneOf ["tr"]
  else if parent.isOneOf ["td", "th"] then !child.isOneOf ["td", "th", "tr"]
  else true

/-- The elements that end with the text: void ones, those that cannot
contain a tag without a name, and the outermost elements of a document. -/
def endsWithText (name : TagName) : Bool :=
  name.isVoid || !name.canContain (ofText []) || name.isOneOf ["html", "head", "body"]

end TagName

-- ========================================================= characters

/-- Blanks of the markup itself. -/
def isSpace (c : CodePoint) : Bool := c.within 0x9 0xD || c = ' '

/-- Blanks that separate the parts of a tag where nothing else can stand:
those at which a line may break. -/
def isGap (c : CodePoint) : Bool :=
  isSpace c || c.inRanges [(0x1680, 0x1680), (0x2000, 0x2006), (0x2008, 0x200A),
    (0x2028, 0x2029), (0x205F, 0x205F), (0x3000, 0x3000)]

/-- A code point of a tag name. -/
def isTagChar (c : CodePoint) : Bool := c.isLetterOrDigit || c = '-' || c = ':'

/-- A code point of an unquoted attribute value. -/
def isValueChar (c : CodePoint) : Bool :=
  !(c = '<' || c = '>' || c = '"' || c = '\'' || c = '=' || isSpace c || c.val = 0)

/-- A code point of an attribute name. -/
def isAttributeChar (c : CodePoint) : Bool := isValueChar c && c ≠ '/'

/-- A code point that can stand in text. -/
def isTextChar (c : CodePoint) : Bool := !(c = '<' || c = '>' || c = '&' || c.val = 0)

end KeyHarvest.Markup
