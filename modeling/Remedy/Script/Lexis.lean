import Remedy.Grammar.Rule

/-!
The words of scripts: names, numbers, strings, regular expressions and comments.
-/

namespace Remedy.Script.Lexis

open Grammar

/-- Blanks between tokens: the usual ones, every space separator, and the invisible joiners and marks. -/
def blanks : CharSet :=
  ⟨[(9, 13), (0x20, 0x20), (0xA0, 0xA0), (0x1680, 0x1680), (0x2000, 0x200B), (0x2028, 0x2029), (0x202F, 0x202F),
    (0x205F, 0x205F), (0x2060, 0x2060), (0x3000, 0x3000), (0xFEFF, 0xFEFF)], false⟩

/-- Characters that cannot continue a name. -/
def breakers : List (Nat × Nat) :=
  [(0, 0x1F)] ++ blanks.ranges ++
    (":;`\"'@#.,|^&<=>+-*/\\%?!~()[]\x7b\x7d".toList.map fun c => (c.toNat, c.toNat))

def unicodeEscape : Pattern :=
  .choice [
    .seq (.literal "\\u") (.times (.one CharSet.hexDigit) 4),
    .chain [.literal "\\u\x7b", .some (.one CharSet.hexDigit), .literal "\x7d"]]

def nameStart : Pattern := .alt (.one ⟨(48, 57) :: breakers, true⟩) unicodeEscape
def nameRest : Pattern := .alt (.one ⟨breakers, true⟩) unicodeEscape

def identifier : Pattern := .seq nameStart (.many nameRest)
def privateName : Pattern := .chain [.literal "#", nameStart, .many nameRest]

/-- A name with a hyphen in it, as markup allows. -/
def hyphenated : Pattern :=
  let start : CharSet := ⟨[(65, 90), (97, 122), (95, 95), (36, 36)], false⟩
  let rest := start.union CharSet.digit
  .chain [.one start, .many (.one rest), .literal "-", .many (.one (rest.union (CharSet.ofString "-")))]

/-- Digits of a kind, with single underscores between them. -/
def digits (d : CharSet) : Pattern := .seq (.one d) (.many (.seq (.optional (.literal "_")) (.one d)))

def number : Pattern :=
  let decimal := digits CharSet.digit
  let hex := .seq (.choice [.literal "0x", .literal "0X"]) (digits CharSet.hexDigit)
  let binary := .seq (.choice [.literal "0b", .literal "0B"]) (digits (CharSet.range '0' '1'))
  let octal := .seq (.choice [.literal "0o", .literal "0O"]) (digits (CharSet.range '0' '7'))
  let exponent := .chain [.oneOf "eE", .optional (.oneOf "-+"), decimal]
  let integer := .choice [
    .literal "0",
    .chain [.optional (.literal "0"), .one (CharSet.range '1' '9'),
      .optional (.seq (.optional (.literal "_")) decimal)]]
  .choice [
    hex,
    .chain [integer, .literal ".", .optional decimal, .optional exponent],
    .chain [.literal ".", decimal, .optional exponent],
    .seq integer exponent,
    decimal,
    binary,
    octal,
    .seq (.choice [hex, binary, octal, decimal]) (.literal "n")]

def escape : Pattern :=
  .seq (.literal "\\") (.choice [
    .noneOf "xu01234567",
    .upTo (.one (CharSet.range '0' '7')) 2,
    .seq (.literal "x") (.times (.one CharSet.hexDigit) 2),
    .seq (.literal "u") (.times (.one CharSet.hexDigit) 4),
    .chain [.literal "u\x7b", .some (.one CharSet.hexDigit), .literal "\x7d"],
    .seq (.oneOf "\r?") (.oneOf "\n\u2028\u2029")])

/-- The plain characters of a string between the given quotes. -/
def stringText (quote : String) : Pattern := .some (.noneOf (quote ++ "\\\r\n"))

/-- The plain characters of a string in markup: an ampersand only where no reference begins. -/
def markupStringText (quote : String) : Pattern :=
  .some (.alt (.noneOf (quote ++ "&"))
    (.seq (.literal "&") (.one ⟨[(35, 35), (65, 90), (97, 122)], true⟩)))

def reference : Pattern :=
  .chain [.literal "&",
    .choice [
      .seq (.literal "#") (.choice [
        .seq (.oneOf "xX") (.upTo (.one CharSet.hexDigit) 5),
        .upTo (.one CharSet.digit) 4]),
      .upTo (.one CharSet.letter) 29],
    .literal ";"]

def regexBody : Pattern :=
  let escaped := .seq (.literal "\\") (.noneOf "\n")
  .some (.choice [
    .chain [.literal "[", .many (.choice [escaped, .noneOf "]\n\\"]), .literal "]"],
    escaped,
    .noneOf "/\\[\n"])

def comment : Pattern :=
  let star := Pattern.literal "*"
  .choice [
    .seq (.literal "//") (.many (.noneOf "\r\n\u2028\u2029")),
    .chain [.literal "/*", .many (.noneOf "*"), .some star,
      .many (.chain [.noneOf "/*", .many (.noneOf "*"), .some star]), .literal "/"]]

/-- `static get` at the end of a line, which names a field. -/
def staticGet : Pattern :=
  let blank := Pattern.one CharSet.space
  .chain [.literal "static", .some blank, .literal "get", .many blank, .literal "\n"]

end Remedy.Script.Lexis
