import Remedy.Script.Grammar

/-!
The grammar of typed scripts: the plain one with declarations, signatures and types. Markup and type assertions use
the same brackets, so each of the two forms of the language leaves one of them out.
-/

namespace Remedy.Script

open Grammar Grammar.Rule Build

/-- Whether expressions may hold markup, or type assertions in its place. -/
inductive Form where
  | markup
  | assertions
  deriving BEq, DecidableEq

private def typeName : Rule := called "identifier" "type_identifier"
private def annotated : Rule := field "type" (opt "type_annotation")
private def typeParameters : Rule := field "type_parameters" (opt "type_parameters")
private def typeArguments : Rule := field "type_arguments" (opt "type_arguments")
private def decorated : Rule := star (field "decorator" "decorator")
private def access : Rule := opt "accessibility_modifier"
private def overriding : Rule := opt "override_modifier"
private def optStr (text : String) : Rule := opt (str text)
private def accessor : Rule := opt (oneOf ["get", "set", "*"])
private def privateOr (r : Rule) : Rule := choice ["private_property_identifier", r]

private def declarations (base : String → Rule) : List (String × Rule) := [
  ("public_field_definition", seq [decorated,
    opt (choice [
      seq [str "declare", access],
      seq ["accessibility_modifier", optStr "declare"]]),
    choice [
      seq [optStr "static", overriding, optStr "readonly"],
      seq [optStr "abstract", optStr "readonly"],
      seq [optStr "readonly", optStr "abstract"],
      optStr "accessor"],
    field "name" "_property_name",
    opt (oneOf ["?", "!"]),
    annotated,
    opt "_initializer"]),
  ("catch_clause", seq [str "catch",
    opt (seq [str "(", field "parameter" (choice ["identifier", "_destructuring_pattern"]),
      opt (field "type" "type_annotation"), str ")"]),
    field "body" "statement_block"]),
  ("call_expression", choice [
    precedence "call" (seq [field "function" (choice ["expression", "import"]), typeArguments,
      field "arguments" "arguments"]),
    precedence "template_call" (seq [field "function" (choice ["primary_expression", "new_expression"]),
      field "arguments" "template_string"]),
    precedence "member" (seq [field "function" "primary_expression", str "?.", typeArguments,
      field "arguments" "arguments"])]),
  ("new_expression", rightwards "new" (seq [str "new", field "constructor" "primary_expression", typeArguments,
    field "arguments" (opt "arguments")])),
  ("assignment_expression", rightwards "assign" (seq [optStr "using",
    field "left" (choice ["parenthesized_expression", "_lhs_expression"]), str "=",
    field "right" "expression"])),
  ("_augmented_assignment_lhs", choice [base "_augmented_assignment_lhs", "non_null_expression"]),
  ("_lhs_expression", choice [base "_lhs_expression", "non_null_expression"]),
  ("primary_expression", choice [base "primary_expression", "non_null_expression"]),
  ("_jsx_start_opening_element", seq [str "<",
    opt (seq [
      choice [
        field "name" (choice ["_jsx_identifier", "jsx_namespace_name"]),
        seq [field "name" (choice ["identifier", called "nested_identifier" "member_expression"]),
          typeArguments]],
      star (field "attribute" "_jsx_attribute")])]),
  ("jsx_opening_element", dynamic (-1) (seq ["_jsx_start_opening_element", str ">"])),
  ("jsx_self_closing_element", dynamic (-1) (seq ["_jsx_start_opening_element", str "/>"])),
  ("export_specifier", seq [opt (oneOf ["type", "typeof"]), base "export_specifier"]),
  ("_import_identifier", choice ["identifier", called (str "type") "identifier"]),
  ("import_specifier", seq [opt (oneOf ["type", "typeof"]),
    choice [
      field "name" "_import_identifier",
      seq [field "name" (choice ["_module_export_name", called (str "type") "identifier"]), str "as",
        field "alias" "_import_identifier"]]]),
  ("import_clause", choice [
    "namespace_import",
    "named_imports",
    seq ["_import_identifier", opt (seq [str ",", choice ["namespace_import", "named_imports"]])]]),
  ("import_statement", seq [str "import", opt (oneOf ["type", "typeof"]),
    choice [seq ["import_clause", "_from_clause"], "import_require_clause", field "source" "string"],
    opt "import_attribute", "_semicolon"]),
  ("export_statement", choice [
    base "export_statement",
    seq [str "export", str "type", "export_clause", opt "_from_clause", "_semicolon"],
    seq [str "export", str "import", "import_alias"],
    seq [str "export", str "=", "expression", "_semicolon"],
    seq [str "export", str "as", str "namespace", "identifier", "_semicolon"]]),
  ("non_null_expression", leftwards "unary" (seq ["expression", str "!"])),
  ("variable_declarator", choice [
    seq [field "name" (choice ["identifier", "_destructuring_pattern"]), annotated, opt "_initializer"],
    precedence "declare" (seq [field "name" "identifier", str "!", field "type" "type_annotation"])]),
  ("method_signature", seq [access, optStr "static", overriding, optStr "readonly", optStr "async", accessor,
    field "name" "_property_name", optStr "?", "_call_signature"]),
  ("abstract_method_signature", seq [access, str "abstract", overriding, accessor,
    field "name" "_property_name", optStr "?", "_call_signature"]),
  ("parenthesized_expression", seq [str "(",
    choice [seq ["expression", annotated], "sequence_expression"], str ")"]),
  ("_formal_parameter", choice ["required_parameter", "optional_parameter"]),
  ("function_signature", seq [optStr "async", str "function", field "name" "identifier", "_call_signature",
    choice ["_semicolon", "_function_signature_automatic_semicolon"]]),
  ("decorator", seq [str "@", choice ["identifier", called "decorator_member_expression" "member_expression",
    called "decorator_call_expression" "call_expression",
    called "decorator_parenthesized_expression" "parenthesized_expression"]]),
  ("decorator_call_expression", precedence "call" (seq [
    field "function" (choice ["identifier", called "decorator_member_expression" "member_expression"]),
    opt (field "type_arguments" "type_arguments"),
    field "arguments" "arguments"])),
  ("decorator_parenthesized_expression", seq [str "(",
    choice ["identifier", called "decorator_member_expression" "member_expression",
      called "decorator_call_expression" "call_expression"],
    str ")"]),
  ("class_body", braced [star (choice [
    seq [decorated, "method_definition", opt "_semicolon"],
    seq ["method_signature", choice ["_function_signature_automatic_semicolon", str ","]],
    "class_static_block",
    seq [choice ["abstract_method_signature", "index_signature", "method_signature", "public_field_definition"],
      choice ["_semicolon", str ","]],
    str ";"])]),
  ("method_definition", left (seq [access, optStr "static", overriding, optStr "readonly", optStr "async",
    accessor, field "name" "_property_name", optStr "?", "_call_signature",
    field "body" "statement_block"])),
  ("declaration", choice [base "declaration", "function_signature", "abstract_class_declaration", "module",
    prec (.named "declare") none "internal_module", "type_alias_declaration", "enum_declaration",
    "interface_declaration", "import_alias", "ambient_declaration"]),
  ("type_assertion", leftwards "unary" (seq ["type_arguments", "expression"])),
  ("as_expression", leftwards "binary" (seq ["expression", str "as", choice [str "const", "type"]])),
  ("satisfies_expression", leftwards "binary" (seq ["expression", str "satisfies", "type"])),
  ("instantiation_expression", precedence "instantiation" (seq ["expression",
    field "type_arguments" "type_arguments"])),
  ("class_heritage", choice [seq ["extends_clause", opt "implements_clause"], "implements_clause"]),
  ("import_require_clause", seq ["identifier", str "=", str "require", str "(", field "source" "string", str ")"]),
  ("extends_clause", seq [str "extends", commaSep1 "_extends_clause_single"]),
  ("_extends_clause_single", precedence "extends" (seq [field "value" "expression", typeArguments])),
  ("implements_clause", seq [str "implements", commaSep1 "type"]),
  ("ambient_declaration", seq [str "declare", choice [
    "declaration",
    seq [str "global", "statement_block"],
    seq [str "module", str ".", property, str ":", "type", "_semicolon"]]]),
  ("class", precedence "literal" (seq [decorated, str "class", field "name" (opt typeName), typeParameters,
    opt "class_heritage", field "body" "class_body"])),
  ("abstract_class_declaration", precedence "declare" (seq [decorated, str "abstract", str "class",
    field "name" typeName, typeParameters, opt "class_heritage", field "body" "class_body"])),
  ("class_declaration", leftwards "declare" (seq [decorated, str "class", field "name" typeName, typeParameters,
    opt "class_heritage", field "body" "class_body", opt "_automatic_semicolon"])),
  ("module", seq [str "module", "_module"]),
  ("internal_module", seq [str "namespace", "_module"]),
  ("_module", right (seq [field "name" (choice ["string", "identifier", "nested_identifier"]),
    field "body" (opt "statement_block")])),
  ("import_alias", seq [str "import", "identifier", str "=", choice ["identifier", "nested_identifier"],
    "_semicolon"]),
  ("nested_type_identifier", precedence "member" (seq [
    field "module" (choice ["identifier", "nested_identifier"]), str ".", field "name" typeName])),
  ("interface_declaration", precedence "declare" (seq [str "interface", field "name" typeName, typeParameters,
    opt "extends_type_clause", field "body" (called "object_type" "interface_body")])),
  ("extends_type_clause", seq [str "extends",
    commaSep1 (field "type" (choice [typeName, "nested_type_identifier", "generic_type"]))]),
  ("enum_declaration", precedence "declare" (seq [optStr "const", str "enum", field "name" "identifier",
    field "body" "enum_body"])),
  ("enum_body", braced [opt (seq [commaSep1 (choice [field "name" "_property_name", "enum_assignment"]),
    optStr ","])]),
  ("enum_assignment", seq [field "name" "_property_name", "_initializer"]),
  ("type_alias_declaration", precedence "declare" (seq [str "type", field "name" typeName, typeParameters,
    str "=", field "value" "type", "_semicolon"])),
  ("accessibility_modifier", oneOf ["public", "private", "protected"]),
  ("override_modifier", str "override"),
  ("required_parameter", seq ["_parameter_name", annotated, opt "_initializer"]),
  ("optional_parameter", seq ["_parameter_name", str "?", annotated, opt "_initializer"]),
  ("_parameter_name", seq [decorated, access, overriding, optStr "readonly",
    field "pattern" (choice ["pattern", "this"])])]

private def queryMember : Rule := called "_type_query_member_expression" "member_expression"
private def querySubscript : Rule := called "_type_query_subscript_expression" "subscript_expression"
private def queryCall : Rule := called "_type_query_call_expression" "call_expression"
private def annotationMember : Rule :=
  called "_type_query_member_expression_in_type_annotation" "member_expression"
private def annotationCall : Rule := called "_type_query_call_expression_in_type_annotation" "call_expression"

private def types (base : String → Rule) : List (String × Rule) := [
  ("omitting_type_annotation", seq [str "-?:", "type"]),
  ("adding_type_annotation", seq [str "+?:", "type"]),
  ("opting_type_annotation", seq [str "?:", "type"]),
  ("type_annotation", seq [str ":", choice ["type",
    called "_type_query_member_expression_in_type_annotation" "type_query",
    called "_type_query_call_expression_in_type_annotation" "type_query"]]),
  ("_type_query_member_expression_in_type_annotation", seq [
    field "object" (choice ["import", annotationMember, annotationCall]),
    str ".",
    field "property" (privateOr property)]),
  ("_type_query_call_expression_in_type_annotation", seq [
    field "function" (choice ["import", annotationMember]),
    field "arguments" "arguments"]),
  ("asserts", seq [str "asserts", choice ["type_predicate", "identifier", "this"]]),
  ("asserts_annotation", seq [str ":", "asserts"]),
  ("type", choice ["primary_type", "function_type", "readonly_type", "constructor_type", "infer_type",
    prec (.level (-1)) none annotationMember,
    prec (.level (-1)) none annotationCall]),
  ("tuple_parameter", seq [field "name" (choice ["identifier", "rest_pattern"]),
    field "type" "type_annotation"]),
  ("optional_tuple_parameter", seq [field "name" "identifier", str "?", field "type" "type_annotation"]),
  ("optional_type", seq ["type", str "?"]),
  ("rest_type", seq [str "...", "type"]),
  ("_tuple_type_member", choice [called "tuple_parameter" "required_parameter",
    called "optional_tuple_parameter" "optional_parameter", "optional_type", "rest_type", "type"]),
  ("constructor_type", left (seq [optStr "abstract", str "new", typeParameters,
    field "parameters" "formal_parameters", str "=>", field "type" "type"])),
  ("primary_type", choice ["parenthesized_type", "predefined_type", typeName, "nested_type_identifier",
    "generic_type", "object_type", "array_type", "tuple_type", "flow_maybe_type", "type_query",
    "index_type_query", called "this" "this_type", "existential_type", "literal_type", "lookup_type",
    "conditional_type", "template_literal_type", "intersection_type", "union_type", str "const"]),
  ("template_type", seq [str "$\x7b", choice ["primary_type", "infer_type"], str "\x7d"]),
  ("template_literal_type", seq [str "`",
    star (choice [called "_template_chars" "string_fragment", "template_type"]), str "`"]),
  ("infer_type", right (seq [str "infer", typeName, opt (seq [str "extends", "type"])])),
  ("conditional_type", left (seq [field "left" "type", str "extends", field "right" "type", str "?",
    field "consequence" "type", str ":", field "alternative" "type"])),
  ("generic_type", precedence "call" (seq [field "name" (choice [typeName, "nested_type_identifier"]),
    field "type_arguments" "type_arguments"])),
  ("type_predicate", seq [
    field "name" (choice ["identifier", "this", called "predefined_type" "identifier"]),
    str "is", field "type" "type"]),
  ("type_predicate_annotation", seq [str ":", "type_predicate"]),
  ("_type_query_member_expression", seq [
    field "object" (choice ["identifier", "this", querySubscript, queryMember, queryCall]),
    oneOf [".", "?."],
    field "property" (privateOr property)]),
  ("_type_query_subscript_expression", seq [
    field "object" (choice ["identifier", "this", querySubscript, queryMember, queryCall]),
    optStr "?.",
    str "[", field "index" (choice ["predefined_type", "string", "number"]), str "]"]),
  ("_type_query_call_expression", seq [
    field "function" (choice ["import", "identifier", queryMember, querySubscript]),
    field "arguments" "arguments"]),
  ("_type_query_instantiation_expression", seq [
    field "function" (choice ["import", "identifier", queryMember, querySubscript]),
    field "type_arguments" "type_arguments"]),
  ("type_query", right (seq [str "typeof", choice [querySubscript, queryMember, queryCall,
    called "_type_query_instantiation_expression" "instantiation_expression", "identifier", "this"]])),
  ("index_type_query", seq [str "keyof", "primary_type"]),
  ("lookup_type", seq ["primary_type", str "[", "type", str "]"]),
  ("mapped_type_clause", seq [field "name" typeName, str "in", field "type" "type",
    opt (seq [str "as", field "alias" "type"])]),
  ("literal_type", choice [called "_number" "unary_expression", "number", "string", "true", "false", "null",
    "undefined"]),
  ("_number", prec (.level 1) (some .left) (seq [field "operator" (oneOf ["-", "+"]),
    field "argument" "number"])),
  ("existential_type", str "*"),
  ("flow_maybe_type", right (seq [str "?", "primary_type"])),
  ("parenthesized_type", seq [str "(", "type", str ")"]),
  ("predefined_type", choice [str "any", str "number", str "boolean", str "string", str "symbol",
    shownAs (seq [str "unique", str "symbol"]) "unique symbol", str "void", str "unknown", str "string",
    str "never", str "object"]),
  ("type_arguments", seq [str "<", commaSep1 "type", optStr ",", str ">"]),
  ("object_type", seq [oneOf ["\x7b", "\x7b|"],
    opt (seq [
      opt (oneOf [",", ";"]),
      separated (choice [str ",", "_semicolon"]) (choice ["export_statement", "property_signature",
        "call_signature", "construct_signature", "index_signature", "method_signature"]),
      opt (choice [str ",", "_semicolon"])]),
    oneOf ["\x7d", "|\x7d"]]),
  ("call_signature", "_call_signature"),
  ("property_signature", seq [access, optStr "static", overriding, optStr "readonly",
    field "name" "_property_name", optStr "?", annotated]),
  ("_call_signature", seq [typeParameters, field "parameters" "formal_parameters",
    field "return_type" (opt (choice ["type_annotation", "asserts_annotation", "type_predicate_annotation"]))]),
  ("type_parameters", seq [str "<", commaSep1 "type_parameter", optStr ",", str ">"]),
  ("type_parameter", seq [optStr "const", field "name" typeName, field "constraint" (opt "constraint"),
    field "value" (opt "default_type")]),
  ("default_type", seq [str "=", "type"]),
  ("constraint", seq [oneOf ["extends", ":"], "type"]),
  ("construct_signature", seq [optStr "abstract", str "new", typeParameters,
    field "parameters" "formal_parameters", annotated]),
  ("index_signature", seq [
    opt (seq [field "sign" (opt (oneOf ["-", "+"])), str "readonly"]),
    str "[",
    choice [
      seq [field "name" (choice ["identifier", reservedName]), str ":", field "index_type" "type"],
      "mapped_type_clause"],
    str "]",
    field "type" (choice ["type_annotation", "omitting_type_annotation", "adding_type_annotation",
      "opting_type_annotation"])]),
  ("array_type", seq ["primary_type", str "[", str "]"]),
  ("tuple_type", seq [str "[", commaSep "_tuple_type_member", optStr ",", str "]"]),
  ("readonly_type", seq [str "readonly", "type"]),
  ("union_type", left (seq [opt "type", str "|", "type"])),
  ("intersection_type", left (seq [opt "type", str "&", "type"])),
  ("function_type", left (seq [typeParameters, field "parameters" "formal_parameters", str "=>",
    field "return_type" (choice ["type", "asserts", "type_predicate"])])),
  ("_reserved_identifier", choice [oneOf ["declare", "namespace", "type", "public", "private", "protected",
    "override", "readonly", "module", "any", "number", "boolean", "string", "symbol", "export", "object", "new",
    "readonly"], base "_reserved_identifier"])]
where
  separated (mark body : Rule) : Rule := seq [body, star (seq [mark, body])]

private def ruleNamed (name : String) : Rule :=
  ((plainRules.find? (·.1 == name)).map (·.2)).getD .blank

/-- Expressions, with markup or with assertions. -/
private def expression (form : Form) : Rule :=
  let added : List Rule := ["as_expression", "satisfies_expression", "instantiation_expression", "internal_module"]
  let plain := match ruleNamed "expression" with
    | .choice options => options
    | r => [r]
  match form with
  | .assertions =>
    let others := plain.filter fun r =>
      match r with
      | .symbol name => name != "_jsx_element"
      | _ => true
    choice (added ++ [Rule.symbol "type_assertion"] ++ others)
  | .markup => choice (added ++ plain)

/-- The plain rules, each replaced where the typed language has its own, and then the new ones. -/
private def typedRules (form : Form) : List (String × Rule) :=
  let own := declarations ruleNamed ++ [("expression", expression form)] ++ types ruleNamed
  let replaced := plainRules.map fun (name, r) => (name, ((own.find? (·.1 == name)).map (·.2)).getD r)
  replaced ++ own.filter fun (name, _) => !plainRules.any (·.1 == name)

private def typedOrderings : List (List Ranked) := plainOrderings ++ [
  [.name "call", .name "instantiation", .name "unary", .name "binary", .rule "await_expression",
    .rule "arrow_function"],
  [.name "extends", .name "instantiation"],
  [.rule "intersection_type", .rule "union_type", .rule "conditional_type", .rule "function_type",
    .name "binary", .rule "type_predicate", .rule "readonly_type"],
  [.rule "mapped_type_clause", .rule "primary_expression"],
  [.rule "accessibility_modifier", .rule "primary_expression"],
  [.name "unary_void", .rule "expression"],
  [.rule "extends_clause", .rule "primary_expression"],
  [.name "unary", .name "assign"],
  [.name "declare", .rule "expression"],
  [.rule "predefined_type", .rule "unary_expression"],
  [.rule "type", .rule "flow_maybe_type"],
  [.rule "tuple_type", .rule "array_type", .rule "pattern", .rule "type"],
  [.rule "readonly_type", .rule "pattern"],
  [.rule "readonly_type", .rule "primary_expression"],
  [.rule "type_query", .rule "subscript_expression", .rule "expression"],
  [.rule "type_query", .rule "_type_query_subscript_expression"],
  [.rule "nested_type_identifier", .rule "generic_type", .rule "primary_type", .rule "lookup_type",
    .rule "index_type_query", .rule "type"],
  [.rule "as_expression", .rule "satisfies_expression", .rule "primary_type"],
  [.rule "_type_query_member_expression", .rule "member_expression"],
  [.rule "member_expression", .rule "_type_query_member_expression_in_type_annotation"],
  [.rule "_type_query_member_expression", .rule "primary_expression"],
  [.rule "_type_query_subscript_expression", .rule "subscript_expression"],
  [.rule "_type_query_subscript_expression", .rule "primary_expression"],
  [.rule "_type_query_call_expression", .rule "primary_expression"],
  [.rule "_type_query_instantiation_expression", .rule "primary_expression"],
  [.rule "type_query", .rule "primary_expression"],
  [.rule "override_modifier", .rule "primary_expression"],
  [.rule "decorator_call_expression", .rule "decorator"],
  [.rule "literal_type", .rule "pattern"],
  [.rule "predefined_type", .rule "pattern"],
  [.rule "call_expression", .rule "_type_query_call_expression"],
  [.rule "call_expression", .rule "_type_query_call_expression_in_type_annotation"],
  [.rule "new_expression", .rule "primary_expression"],
  [.rule "meta_property", .rule "primary_expression"],
  [.rule "construct_signature", .rule "_property_name"]]

def typedDefinition (form : Form) : Definition where
  rules := typedRules form
  externals := plainExternals ++ [.scanned "_function_signature_automatic_semicolon", .scanned "__error_recovery"]
  extras := ["comment", "html_comment"]
  blanks := Lexis.blanks
  inlined := (plainInlined.filter fun name => name != "_formal_parameter" && name != "_call_signature") ++
    ["_jsx_start_opening_element"]
  supertypes := ["statement", "declaration", "expression", "primary_expression", "pattern", "type", "primary_type"]
  orderings := typedOrderings
  word := some "identifier"
  reserved := []
  unsought := unsoughtTokens

def typedLanguage : Language := (typedDefinition .assertions).prepare
def markupLanguage : Language := (typedDefinition .markup).prepare

/-- The languages in which scripts are written. -/
inductive Kind where
  /-- Plain scripts. -/
  | plain
  | typed
  /-- Typed scripts with markup. -/
  | markup
  deriving BEq, DecidableEq, Repr

/-- The tree of a script. -/
def parse (kind : Kind) (source : String) : Node :=
  let text := Parse.Text.ofString source
  let (language, dialect) := match kind with
    | .plain => (plainLanguage, Dialect.plain)
    | .typed => (typedLanguage, Dialect.typed)
    | .markup => (markupLanguage, Dialect.typed)
  Parse.rootNode language text (Parse.run ⟨language, scan dialect, text⟩)

end Remedy.Script
