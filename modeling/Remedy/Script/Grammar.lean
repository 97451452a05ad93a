import Remedy.Grammar.Language
import Remedy.Parse.Outline
import Remedy.Script.Lexis
import Remedy.Script.Scanner

/-!
The grammar of plain scripts, with markup in expressions.
-/

namespace Remedy.Script

open Grammar Grammar.Rule

namespace Build

def precedence (name : String) (r : Rule) : Rule := prec (.named name) none r
def leftwards (name : String) (r : Rule) : Rule := prec (.named name) (some .left) r
def rightwards (name : String) (r : Rule) : Rule := prec (.named name) (some .right) r
def left (r : Rule) : Rule := prec (.level 0) (some .left) r
def right (r : Rule) : Rule := prec (.level 0) (some .right) r
/-- One of several literal tokens. -/
def oneOf (texts : List String) : Rule := choice (texts.map str)
/-- The parts between braces. -/
def braced (parts : List Rule) : Rule := seq ([str "\x7b"] ++ parts ++ [str "\x7d"])
def name : Rule := "identifier"
def property : Rule := called "identifier" "property_identifier"
/-- A word that may be reserved elsewhere, as a plain name. -/
def reservedName : Rule := called "_reserved_identifier" "identifier"
def anyName : Rule := choice ["identifier", "_reserved_identifier"]

end Build

open Build

private def statements : List (String × Rule) := [
  ("program", seq [opt "hash_bang_line", star "statement"]),
  ("hash_bang_line", pat (.seq (.literal "#!") (.many (.noneOf "\n")))),
  ("export_statement", choice [
    seq [str "export",
      choice [
        seq [str "*", "_from_clause"],
        seq ["namespace_export", "_from_clause"],
        seq ["export_clause", "_from_clause"],
        "export_clause"],
      "_semicolon"],
    seq [star (field "decorator" "decorator"),
      str "export",
      choice [
        field "declaration" "declaration",
        seq [str "default", choice [
          field "declaration" "declaration",
          seq [field "value" "expression", "_semicolon"]]]]]]),
  ("namespace_export", seq [str "*", str "as", "_module_export_name"]),
  ("export_clause", braced [commaSep "export_specifier", opt (str ",")]),
  ("export_specifier", seq [field "name" "_module_export_name",
    opt (seq [str "as", field "alias" "_module_export_name"])]),
  ("_module_export_name", choice ["identifier", "string", str "default"]),
  ("declaration", choice ["function_declaration", "generator_function_declaration", "class_declaration",
    "lexical_declaration", "variable_declaration"]),
  ("import", str "import"),
  ("import_statement", seq [str "import",
    choice [seq ["import_clause", "_from_clause"], field "source" "string"],
    opt "import_attribute", "_semicolon"]),
  ("import_clause", choice [
    "namespace_import",
    "named_imports",
    seq ["identifier", opt (seq [str ",", choice ["namespace_import", "named_imports"]])]]),
  ("_from_clause", seq [str "from", field "source" "string"]),
  ("namespace_import", seq [str "*", str "as", "identifier"]),
  ("named_imports", braced [commaSep "import_specifier", opt (str ",")]),
  ("import_specifier", choice [
    field "name" "identifier",
    seq [field "name" (choice ["_module_export_name", called (str "default") "identifier"]),
      str "as", field "alias" "identifier"]]),
  ("import_attribute", seq [str "with", "object"]),
  ("statement", choice ["export_statement", "import_statement", "debugger_statement", "expression_statement",
    "declaration", "statement_block", "if_statement", "switch_statement", "for_statement", "for_in_statement",
    "while_statement", "do_statement", "try_statement", "with_statement", "break_statement", "continue_statement",
    "return_statement", "throw_statement", "empty_statement", "labeled_statement"]),
  ("expression_statement", seq ["_expressions", "_semicolon"]),
  ("variable_declaration", seq [str "var", commaSep1 "variable_declarator", "_semicolon"]),
  ("lexical_declaration", seq [field "kind" (oneOf ["let", "const"]), commaSep1 "variable_declarator",
    "_semicolon"]),
  ("variable_declarator", seq [field "name" (choice ["identifier", "_destructuring_pattern"]),
    opt "_initializer"]),
  ("statement_block", right (seq [str "\x7b", star "statement", str "\x7d", opt "_automatic_semicolon"])),
  ("else_clause", seq [str "else", "statement"]),
  ("if_statement", right (seq [str "if", field "condition" "parenthesized_expression",
    field "consequence" "statement", opt (field "alternative" "else_clause")])),
  ("switch_statement", seq [str "switch", field "value" "parenthesized_expression",
    field "body" "switch_body"]),
  ("for_statement", seq [str "for", str "(",
    choice [
      field "initializer" (choice ["lexical_declaration", "variable_declaration"]),
      seq [field "initializer" "_expressions", str ";"],
      field "initializer" "empty_statement"],
    field "condition" (choice [seq ["_expressions", str ";"], "empty_statement"]),
    field "increment" (opt "_expressions"),
    str ")",
    field "body" "statement"]),
  ("for_in_statement", seq [str "for", opt (str "await"), "_for_header", field "body" "statement"]),
  ("_for_header", seq [str "(",
    choice [
      field "left" (choice ["_lhs_expression", "parenthesized_expression"]),
      seq [field "kind" (str "var"),
        field "left" (choice ["identifier", "_destructuring_pattern"]),
        opt "_initializer"],
      seq [field "kind" (oneOf ["let", "const"]),
        field "left" (choice ["identifier", "_destructuring_pattern"]),
        opt "_automatic_semicolon"]],
    field "operator" (oneOf ["in", "of"]),
    field "right" "_expressions",
    str ")"]),
  ("while_statement", seq [str "while", field "condition" "parenthesized_expression",
    field "body" "statement"]),
  ("do_statement", right (seq [str "do", field "body" "statement", str "while",
    field "condition" "parenthesized_expression", opt "_semicolon"])),
  ("try_statement", seq [str "try", field "body" "statement_block", opt (field "handler" "catch_clause"),
    opt (field "finalizer" "finally_clause")]),
  ("with_statement", seq [str "with", field "object" "parenthesized_expression", field "body" "statement"]),
  ("break_statement", seq [str "break", field "label" (opt (called "identifier" "statement_identifier")),
    "_semicolon"]),
  ("continue_statement", seq [str "continue", field "label" (opt (called "identifier" "statement_identifier")),
    "_semicolon"]),
  ("debugger_statement", seq [str "debugger", "_semicolon"]),
  ("return_statement", seq [str "return", opt "_expressions", "_semicolon"]),
  ("throw_statement", seq [str "throw", "_expressions", "_semicolon"]),
  ("empty_statement", str ";"),
  ("labeled_statement", dynamic (-1) (seq [field "label" (called anyName "statement_identifier"), str ":",
    field "body" "statement"])),
  ("switch_body", braced [star (choice ["switch_case", "switch_default"])]),
  ("switch_case", seq [str "case", field "value" "_expressions", str ":", field "body" (star "statement")]),
  ("switch_default", seq [str "default", str ":", field "body" (star "statement")]),
  ("catch_clause", seq [str "catch",
    opt (seq [str "(", field "parameter" (choice ["identifier", "_destructuring_pattern"]), str ")"]),
    field "body" "statement_block"]),
  ("finally_clause", seq [str "finally", field "body" "statement_block"]),
  ("parenthesized_expression", seq [str "(", "_expressions", str ")"])]

private def literals : List (String × Rule) := [
  ("_expressions", choice ["expression", "sequence_expression"]),
  ("expression", choice ["primary_expression", "_jsx_element", "assignment_expression",
    "augmented_assignment_expression", "await_expression", "unary_expression", "binary_expression",
    "ternary_expression", "update_expression", "new_expression", "yield_expression"]),
  ("primary_expression", choice ["subscript_expression", "member_expression", "parenthesized_expression",
    "_identifier", reservedName, "this", "super", "number", "string", "template_string", "regex", "true", "false",
    "null", "object", "array", "function_expression", "arrow_function", "generator_function", "class",
    "meta_property", "call_expression"]),
  ("yield_expression", right (seq [str "yield",
    choice [seq [str "*", "expression"], opt "expression"]])),
  ("object", precedence "object" (braced [commaSep (opt (choice ["pair", "spread_element", "method_definition",
    called anyName "shorthand_property_identifier"]))])),
  ("object_pattern", precedence "object" (braced [commaSep (opt (choice ["pair_pattern", "rest_pattern",
    "object_assignment_pattern", called anyName "shorthand_property_identifier_pattern"]))])),
  ("assignment_pattern", seq [field "left" "pattern", str "=", field "right" "expression"]),
  ("object_assignment_pattern", seq [
    field "left" (choice [
      called (choice ["_reserved_identifier", "identifier"]) "shorthand_property_identifier_pattern",
      "_destructuring_pattern"]),
    str "=", field "right" "expression"]),
  ("array", seq [str "[", commaSep (opt (choice ["expression", "spread_element"])), str "]"]),
  ("array_pattern", seq [str "[", commaSep (opt (choice ["pattern", "assignment_pattern"])), str "]"])]

private def markup : List (String × Rule) := [
  ("_jsx_element", choice ["jsx_element", "jsx_self_closing_element"]),
  ("jsx_element", seq [field "open_tag" "jsx_opening_element", star "_jsx_child",
    field "close_tag" "jsx_closing_element"]),
  ("html_character_reference", pat Lexis.reference),
  ("jsx_expression", braced [opt (choice ["expression", "sequence_expression", "spread_element"])]),
  ("_jsx_child", choice ["jsx_text", "html_character_reference", "_jsx_element", "jsx_expression"]),
  ("jsx_opening_element", dynamic (-1) (seq [str "<",
    opt (seq [field "name" "_jsx_element_name", star (field "attribute" "_jsx_attribute")]),
    str ">"])),
  ("jsx_identifier", pat Lexis.hyphenated),
  ("_jsx_identifier", choice [called "jsx_identifier" "identifier", "identifier"]),
  ("nested_identifier", precedence "member" (seq [
    field "object" (choice ["identifier", called "nested_identifier" "member_expression"]),
    str ".", field "property" property])),
  ("jsx_namespace_name", seq ["_jsx_identifier", str ":", "_jsx_identifier"]),
  ("_jsx_element_name", choice ["_jsx_identifier", called "nested_identifier" "member_expression",
    "jsx_namespace_name"]),
  ("jsx_closing_element", seq [str "</", opt (field "name" "_jsx_element_name"), str ">"]),
  ("jsx_self_closing_element", seq [str "<", field "name" "_jsx_element_name",
    star (field "attribute" "_jsx_attribute"), str "/>"]),
  ("_jsx_attribute", choice ["jsx_attribute", "jsx_expression"]),
  ("_jsx_attribute_name", choice [called "_jsx_identifier" "property_identifier", "jsx_namespace_name"]),
  ("jsx_attribute", seq ["_jsx_attribute_name", opt (seq [str "=", "_jsx_attribute_value"])]),
  ("_jsx_string", choice [
    seq [str "\"",
      star (choice [called "unescaped_double_jsx_string_fragment" "string_fragment", "html_character_reference"]),
      str "\""],
    seq [str "'",
      star (choice [called "unescaped_single_jsx_string_fragment" "string_fragment", "html_character_reference"]),
      str "'"]]),
  ("unescaped_double_jsx_string_fragment", immediate (Lexis.markupStringText "\"") 1),
  ("unescaped_single_jsx_string_fragment", immediate (Lexis.markupStringText "'") 1),
  ("_jsx_attribute_value", choice [called "_jsx_string" "string", "jsx_expression", "_jsx_element"])]

private def functions : List (String × Rule) := [
  ("class", precedence "literal" (seq [star (field "decorator" "decorator"), str "class",
    field "name" (opt "identifier"), opt "class_heritage", field "body" "class_body"])),
  ("class_declaration", precedence "declare" (seq [star (field "decorator" "decorator"), str "class",
    field "name" "identifier", opt "class_heritage", field "body" "class_body", opt "_automatic_semicolon"])),
  ("class_heritage", seq [str "extends", "expression"]),
  ("function_expression", precedence "literal" (seq [opt (str "async"), str "function",
    field "name" (opt "identifier"), "_call_signature", field "body" "statement_block"])),
  ("function_declaration", rightwards "declare" (seq [opt (str "async"), str "function",
    field "name" "identifier", "_call_signature", field "body" "statement_block", opt "_automatic_semicolon"])),
  ("generator_function", precedence "literal" (seq [opt (str "async"), str "function", str "*",
    field "name" (opt "identifier"), "_call_signature", field "body" "statement_block"])),
  ("generator_function_declaration", rightwards "declare" (seq [opt (str "async"), str "function", str "*",
    field "name" "identifier", "_call_signature", field "body" "statement_block", opt "_automatic_semicolon"])),
  ("arrow_function", seq [opt (str "async"),
    choice [field "parameter" (choice [reservedName, "identifier"]), "_call_signature"],
    str "=>",
    field "body" (choice ["expression", "statement_block"])]),
  ("_call_signature", field "parameters" "formal_parameters"),
  ("_formal_parameter", choice ["pattern", "assignment_pattern"]),
  ("optional_chain", str "?."),
  ("call_expression", choice [
    precedence "call" (seq [field "function" (choice ["expression", "import"]),
      field "arguments" "arguments"]),
    precedence "template_call" (seq [field "function" (choice ["primary_expression", "new_expression"]),
      field "arguments" "template_string"]),
    precedence "member" (seq [field "function" "primary_expression", field "optional_chain" "optional_chain",
      field "arguments" "arguments"])]),
  ("new_expression", rightwards "new" (seq [str "new",
    field "constructor" (choice ["primary_expression", "new_expression"]),
    field "arguments" (opt (dynamic 1 "arguments"))])),
  ("await_expression", precedence "unary_void" (seq [str "await", "expression"])),
  ("member_expression", precedence "member" (seq [
    field "object" (choice ["expression", "primary_expression", "import"]),
    choice [str ".", field "optional_chain" "optional_chain"],
    field "property" (choice ["private_property_identifier", unreserved property])])),
  ("subscript_expression", rightwards "member" (seq [
    field "object" (choice ["expression", "primary_expression"]),
    opt (field "optional_chain" "optional_chain"),
    str "[", field "index" "_expressions", str "]"])),
  ("_lhs_expression", choice ["member_expression", "subscript_expression", "_identifier", reservedName,
    "_destructuring_pattern"]),
  ("assignment_expression", rightwards "assign" (seq [opt (str "using"),
    field "left" (choice ["parenthesized_expression", "_lhs_expression"]), str "=",
    field "right" "expression"])),
  ("_augmented_assignment_lhs", choice ["member_expression", "subscript_expression", reservedName, "identifier",
    "parenthesized_expression"]),
  ("augmented_assignment_expression", rightwards "assign" (seq [field "left" "_augmented_assignment_lhs",
    field "operator" (oneOf ["+=", "-=", "*=", "/=", "%=", "^=", "&=", "|=", ">>=", ">>>=", "<<=", "**=", "&&=",
      "||=", "??="]),
    field "right" "expression"])),
  ("_initializer", seq [str "=", field "value" "expression"]),
  ("_destructuring_pattern", choice ["object_pattern", "array_pattern"]),
  ("spread_element", seq [str "...", "expression"]),
  ("ternary_expression", rightwards "ternary" (seq [field "condition" "expression",
    shownAs "_ternary_qmark" "?", field "consequence" "expression", str ":",
    field "alternative" "expression"]))]

private def binary (text ranked : String) : Rule :=
  let operands := fun (left : Rule) =>
    seq [field "left" left, field "operator" (str text), field "right" "expression"]
  match text with
  | "**" => rightwards ranked (operands "expression")
  | "in" => leftwards ranked (operands (choice ["expression", "private_property_identifier"]))
  | _ => leftwards ranked (operands "expression")

private def operators : List (String × Rule) := [
  ("binary_expression", choice [
    binary "&&" "logical_and", binary "||" "logical_or", binary ">>" "binary_shift", binary ">>>" "binary_shift",
    binary "<<" "binary_shift", binary "&" "bitwise_and", binary "^" "bitwise_xor", binary "|" "bitwise_or",
    binary "+" "binary_plus", binary "-" "binary_plus", binary "*" "binary_times", binary "/" "binary_times",
    binary "%" "binary_times", binary "**" "binary_exp", binary "<" "binary_relation",
    binary "<=" "binary_relation", binary "==" "binary_equality", binary "===" "binary_equality",
    binary "!=" "binary_equality", binary "!==" "binary_equality", binary ">=" "binary_relation",
    binary ">" "binary_relation", binary "??" "ternary", binary "instanceof" "binary_relation",
    binary "in" "binary_relation"]),
  ("unary_expression", leftwards "unary_void" (seq [
    field "operator" (oneOf ["!", "~", "-", "+", "typeof", "void", "delete"]),
    field "argument" "expression"])),
  ("update_expression", left (choice [
    seq [field "argument" "expression", field "operator" (oneOf ["++", "--"])],
    seq [field "operator" (oneOf ["++", "--"]), field "argument" "expression"]])),
  ("sequence_expression", right (commaSep1 "expression"))]

private def words : List (String × Rule) := [
  ("string", choice [
    seq [str "\"", star (choice [called "unescaped_double_string_fragment" "string_fragment", "escape_sequence"]),
      str "\""],
    seq [str "'", star (choice [called "unescaped_single_string_fragment" "string_fragment", "escape_sequence"]),
      str "'"]]),
  ("unescaped_double_string_fragment", immediate (Lexis.stringText "\"") 1),
  ("unescaped_single_string_fragment", immediate (Lexis.stringText "'") 1),
  ("escape_sequence", immediate Lexis.escape 0),
  ("comment", pat Lexis.comment),
  ("template_string", seq [str "`",
    star (choice [called "_template_chars" "string_fragment", "escape_sequence", "template_substitution"]),
    str "`"]),
  ("template_substitution", seq [str "$\x7b", "_expressions", str "\x7d"]),
  ("regex", seq [str "/", field "pattern" "regex_pattern", immediateStr "/" 1,
    opt (field "flags" "regex_flags")]),
  ("regex_pattern", immediate Lexis.regexBody (-1)),
  ("regex_flags", immediate (.some (.one (CharSet.range 'a' 'z'))) 0),
  ("number", pat Lexis.number),
  ("_identifier", choice ["undefined", "identifier"]),
  ("identifier", pat Lexis.identifier),
  ("private_property_identifier", pat Lexis.privateName),
  ("meta_property", choice [seq [str "new", str ".", str "target"], seq [str "import", str ".", str "meta"]]),
  ("this", str "this"),
  ("super", str "super"),
  ("true", str "true"),
  ("false", str "false"),
  ("null", str "null"),
  ("undefined", str "undefined")]

/-- `static`, alone or with a `get` that ends its line. -/
private def staticMark : Rule := opt (choice [str "static", shownAs (pat Lexis.staticGet) "static get"])

private def members : List (String × Rule) := [
  ("arguments", seq [str "(", commaSep (opt (choice ["expression", "spread_element"])), str ")"]),
  ("decorator", seq [str "@", choice ["identifier", called "decorator_member_expression" "member_expression",
    called "decorator_call_expression" "call_expression"]]),
  ("decorator_member_expression", precedence "member" (seq [
    field "object" (choice ["identifier", called "decorator_member_expression" "member_expression"]),
    str ".", field "property" property])),
  ("decorator_call_expression", precedence "call" (seq [
    field "function" (choice ["identifier", called "decorator_member_expression" "member_expression"]),
    field "arguments" "arguments"])),
  ("class_body", braced [star (choice [
    seq [field "member" "method_definition", opt (str ";")],
    seq [field "member" "field_definition", "_semicolon"],
    field "member" "class_static_block",
    str ";"])]),
  ("field_definition", seq [star (field "decorator" "decorator"), staticMark,
    field "property" "_property_name", opt "_initializer"]),
  ("formal_parameters", seq [str "(", opt (seq [commaSep1 "_formal_parameter", opt (str ",")]), str ")"]),
  ("class_static_block", seq [str "static", opt "_automatic_semicolon", field "body" "statement_block"]),
  ("pattern", dynamic (-1) (choice ["_lhs_expression", "rest_pattern"])),
  ("rest_pattern", right (seq [str "...", "_lhs_expression"])),
  ("method_definition", seq [star (field "decorator" "decorator"), staticMark, opt (str "async"),
    opt (oneOf ["get", "set", "*"]), field "name" "_property_name", field "parameters" "formal_parameters",
    field "body" "statement_block"]),
  ("pair", seq [field "key" "_property_name", str ":", field "value" "expression"]),
  ("pair_pattern", seq [field "key" "_property_name", str ":",
    field "value" (choice ["pattern", "assignment_pattern"])]),
  ("_property_name", unreserved (choice [called anyName "property_identifier", "private_property_identifier",
    "string", "number", "computed_property_name"])),
  ("computed_property_name", seq [str "[", "expression", str "]"]),
  ("_reserved_identifier", oneOf ["get", "set", "async", "static", "export", "let"]),
  ("_semicolon", choice ["_automatic_semicolon", str ";"])]

/-- The rules of plain scripts, the start rule first. -/
def plainRules : List (String × Rule) :=
  statements ++ literals ++ markup ++ functions ++ operators ++ words ++ members

def plainExternals : List External :=
  [.scanned "_automatic_semicolon", .scanned "_template_chars", .scanned "_ternary_qmark",
    .scanned "html_comment", .literal "||", .rule "escape_sequence", .rule "regex_pattern", .scanned "jsx_text"]

def plainOrderings : List (List Ranked) := [
  [.name "member", .name "template_call", .name "call", .rule "update_expression", .name "unary_void",
    .name "binary_exp", .name "binary_times", .name "binary_plus", .name "binary_shift", .name "binary_compare",
    .name "binary_relation", .name "binary_equality", .name "bitwise_and", .name "bitwise_xor", .name "bitwise_or",
    .name "logical_and", .name "logical_or", .name "ternary", .rule "sequence_expression", .rule "arrow_function"],
  [.name "assign", .rule "primary_expression"],
  [.name "member", .name "template_call", .name "new", .name "call", .rule "expression"],
  [.name "declare", .name "literal"],
  [.rule "primary_expression", .rule "statement_block", .name "object"],
  [.rule "meta_property", .rule "import"],
  [.rule "import_statement", .rule "import"],
  [.rule "export_statement", .rule "primary_expression"],
  [.rule "lexical_declaration", .rule "primary_expression"]]

def plainInlined : List String :=
  ["_call_signature", "_formal_parameter", "_expressions", "_semicolon", "_identifier", "_reserved_identifier",
    "_jsx_attribute", "_jsx_element_name", "_jsx_child", "_jsx_element", "_jsx_attribute_name",
    "_jsx_attribute_value"]

def reservedWords : List String :=
  ["break", "case", "catch", "class", "const", "continue", "debugger", "default", "delete", "do", "else", "export",
    "extends", "false", "finally", "for", "function", "if", "import", "in", "instanceof", "new", "null", "return",
    "super", "switch", "this", "throw", "true", "try", "typeof", "var", "void", "while", "with"]

/-- Patterns that match almost anything, and are not looked for amid an error. -/
def unsoughtTokens : List String :=
  ["unescaped_double_jsx_string_fragment", "unescaped_single_jsx_string_fragment",
    "unescaped_double_string_fragment", "unescaped_single_string_fragment", "regex_pattern", "regex_flags"]

def plainDefinition : Definition where
  rules := plainRules
  externals := plainExternals
  extras := ["comment", "html_comment"]
  blanks := Lexis.blanks
  inlined := plainInlined
  supertypes := ["statement", "declaration", "expression", "primary_expression", "pattern"]
  orderings := plainOrderings
  word := some "identifier"
  reserved := reservedWords
  unsought := unsoughtTokens

def plainLanguage : Language := plainDefinition.prepare

end Remedy.Script
