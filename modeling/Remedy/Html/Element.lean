/-!
What HTML says about elements by their names: which never have content, and which end where another begins.
-/

namespace Remedy.Html

/-- Elements without content, among them some that only old pages use. -/
def voidNames : List String :=
  ["AREA", "BASE", "BASEFONT", "BGSOUND", "BR", "COL", "COMMAND", "EMBED", "FRAME", "HR", "IMAGE", "IMG", "INPUT",
   "ISINDEX", "KEYGEN", "LINK", "MENUITEM", "META", "NEXTID", "PARAM", "SOURCE", "TRACK", "WBR"]

def contentNames : List String :=
  ["A", "ABBR", "ADDRESS", "ARTICLE", "ASIDE", "AUDIO", "B", "BDI", "BDO", "BLOCKQUOTE", "BODY", "BUTTON", "CANVAS",
   "CAPTION", "CITE", "CODE", "COLGROUP", "DATA", "DATALIST", "DD", "DEL", "DETAILS", "DFN", "DIALOG", "DIV", "DL",
   "DT", "EM", "FIELDSET", "FIGCAPTION", "FIGURE", "FOOTER", "FORM", "H1", "H2", "H3", "H4", "H5", "H6", "HEAD",
   "HEADER", "HGROUP", "HTML", "I", "IFRAME", "INS", "KBD", "LABEL", "LEGEND", "LI", "MAIN", "MAP", "MARK", "MATH",
   "MENU", "METER", "NAV", "NOSCRIPT", "OBJECT", "OL", "OPTGROUP", "OPTION", "OUTPUT", "P", "PICTURE", "PRE",
   "PROGRESS", "Q", "RB", "RP", "RT", "RTC", "RUBY", "S", "SAMP", "SCRIPT", "SECTION", "SELECT", "SLOT", "SMALL",
   "SPAN", "STRONG", "STYLE", "SUB", "SUMMARY", "SUP", "SVG", "TABLE", "TBODY", "TD", "TEMPLATE", "TEXTAREA",
   "TFOOT", "TH", "THEAD", "TIME", "TITLE", "TR", "U", "UL", "VAR", "VIDEO"]

def isVoid (name : String) : Bool := voidNames.contains name

def isKnown (name : String) : Bool := isVoid name || contentNames.contains name

/-- Whether two names are of one sort; all names that HTML does not know are of one sort. -/
def sameSort (a b : String) : Bool := a == b || (!isKnown a && !isKnown b)

/-- Elements that end an open paragraph. -/
def endsParagraph : List String :=
  ["ADDRESS", "ARTICLE", "ASIDE", "BLOCKQUOTE", "DETAILS", "DIV", "DL", "FIELDSET", "FIGCAPTION", "FIGURE", "FOOTER",
   "FORM", "H1", "H2", "H3", "H4", "H5", "H6", "HEADER", "HR", "MAIN", "NAV", "OL", "P", "PRE", "SECTION"]

/-- Whether an open element may hold a new one; if not, it ends where the new one begins. -/
def canContain (parent child : String) : Bool :=
  match parent with
  | "LI" => child != "LI"
  | "DT" | "DD" => child != "DT" && child != "DD"
  | "P" => !endsParagraph.contains child
  | "COLGROUP" => child == "COL"
  | "RB" | "RT" | "RP" => child != "RB" && child != "RT" && child != "RP"
  | "OPTGROUP" => child != "OPTGROUP"
  | "TR" => child != "TR"
  | "TD" | "TH" => child != "TD" && child != "TH" && child != "TR"
  | _ => true

end Remedy.Html
