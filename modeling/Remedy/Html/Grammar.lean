import Remedy.Grammar.Language
import Remedy.Html.Scanner
import Remedy.Parse.Outline

/-!
The grammar of HTML as it stands in files: tags are paired where that is possible, and text that is no markup stays
text.
-/

namespace Remedy.Html

open Grammar Grammar.Rule

private def attributeNameShape : Pattern := .some (.one ⟨[(9, 13), (32, 32), (34, 34), (39, 39), (47, 47), (60, 62)], true⟩)
private def attributeValueShape : Pattern := .some (.one ⟨[(9, 13), (32, 32), (34, 34), (39, 39), (60, 62)], true⟩)

private def entity : Pattern :=
  let digits := Pattern.one CharSet.digit
  let hex := Pattern.one CharSet.hexDigit
  .chain [.literal "&",
    .choice [
      .seq (.literal "#") (.choice [.seq (.oneOf "xX") (.upTo hex 5), .upTo digits 4]),
      .upTo (.one CharSet.letter) 29],
    .optional (.literal ";")]

/-- Text between markup, without the blanks around it. -/
private def text : Pattern :=
  let inner : CharSet := ⟨[(38, 38), (60, 60), (62, 62)], true⟩
  let edge : CharSet := ⟨[(9, 13), (32, 32), (38, 38), (60, 60), (62, 62)], true⟩
  .seq (.one edge) (.optional (.seq (.many (.one inner)) (.one edge)))

private def anyCase (word : String) : Pattern :=
  .chain (word.toList.map fun c => .oneOf (String.ofList [c.toUpper, c.toLower]))

def definition : Definition where
  rules := [
    ("document", star "_node"),
    ("doctype", seq [str "<!", shownAs "_doctype" "doctype", pat (.some (.noneOf ">")), str ">"]),
    ("_doctype", pat (anyCase "doctype")),
    ("_node", choice ["doctype", "entity", "text", "element", "script_element", "style_element",
      "erroneous_end_tag"]),
    ("element", choice [
      seq ["start_tag", star "_node", choice ["end_tag", "_implicit_end_tag"]],
      "self_closing_tag"]),
    ("script_element", seq [called "script_start_tag" "start_tag", opt "raw_text", "end_tag"]),
    ("style_element", seq [called "style_start_tag" "start_tag", opt "raw_text", "end_tag"]),
    ("start_tag", seq [str "<", called "_start_tag_name" "tag_name", star "attribute", str ">"]),
    ("script_start_tag", seq [str "<", called "_script_start_tag_name" "tag_name", star "attribute", str ">"]),
    ("style_start_tag", seq [str "<", called "_style_start_tag_name" "tag_name", star "attribute", str ">"]),
    ("self_closing_tag", seq [str "<", called "_start_tag_name" "tag_name", star "attribute", str "/>"]),
    ("end_tag", seq [str "</", called "_end_tag_name" "tag_name", str ">"]),
    ("erroneous_end_tag", seq [str "</", "erroneous_end_tag_name", str ">"]),
    ("attribute", seq ["attribute_name",
      opt (seq [str "=", choice ["attribute_value", "quoted_attribute_value"]])]),
    ("attribute_name", pat attributeNameShape),
    ("attribute_value", pat attributeValueShape),
    ("entity", pat entity),
    ("quoted_attribute_value", choice [
      seq [str "'", opt (called (pat (.some (.noneOf "'"))) "attribute_value"), str "'"],
      seq [str "\"", opt (called (pat (.some (.noneOf "\""))) "attribute_value"), str "\""]]),
    ("text", pat text)]
  externals := [.scanned "_start_tag_name", .scanned "_script_start_tag_name", .scanned "_style_start_tag_name",
    .scanned "_end_tag_name", .scanned "erroneous_end_tag_name", .literal "/>", .scanned "_implicit_end_tag",
    .scanned "raw_text", .scanned "comment"]
  extras := ["comment"]
  blanks := CharSet.space
  inlined := []
  supertypes := []
  orderings := []
  word := none
  reserved := []
  unsought := ["attribute_name", "attribute_value", "text"]

def language : Language := definition.prepare

/-- The tree of an HTML text. -/
def parse (source : String) : Node :=
  let text := Parse.Text.ofString source
  Parse.rootNode language text (Parse.run ⟨language, scan, text⟩)

end Remedy.Html
