import ScriptSense.Script.Rule

/-! The grammar of scripts. A construct whose name begins with an underscore shapes the text but
leaves no node of its own. Of two competing readings, the constructs further up in this file are
preferred when nothing else decides. -/
namespace ScriptSense
namespace Script

open Rule

def contextual : Rule := choice ["get", "set", "async", "await", "static", "export", "let"]

def anyName : Rule := choice [Lexeme.name, contextual]

/-- A name, with the word for the missing value a token of its own. -/
def plainName : Rule := choice ["undefined", Lexeme.name]

def semicolon : Rule := choice [Lexeme.statementEnd, ";"]

def expressions : Rule := choice [use "expression", use "sequence_expression"]

def assignable : Rule :=
  choice [use "member_expression", use "subscript_expression", plainName, contextual,
    use "_destructuring_pattern"]

def binding : Rule := choice [Lexeme.name, use "_destructuring_pattern"]

def parameter : Rule := choice [use "pattern", use "assignment_pattern"]

def decorators : Rule := repeated (use "decorator")

def uses (names : List String) : Rule := choice (names.map use)

def sharing : List (String × Rule) :=
  [("program", seq [optional Lexeme.hashBang, repeated (use "statement")]),
    ("export_statement",
      choice
        [seq ["export",
            choice [seq ["*", use "_from_clause"], seq [use "namespace_export", use "_from_clause"],
              seq [use "export_clause", use "_from_clause"], use "export_clause"],
            semicolon],
          seq [decorators, "export",
            choice [use "declaration",
              seq ["default",
                choice [use "declaration", seq [use "expression", semicolon]]]]]]),
    ("namespace_export", seq ["*", "as", use "_export_name"]),
    ("export_clause",
      seq ["\x7b", optional (listed (use "export_specifier")), optional ",", "\x7d"]),
    ("export_specifier", seq [use "_export_name", optional (seq ["as", use "_export_name"])]),
    ("_export_name", choice [Lexeme.name, use "string", "default"]),
    ("declaration",
      uses ["function_declaration", "generator_function_declaration", "class_declaration",
        "lexical_declaration", "variable_declaration", "using_declaration"]),
    ("import", "import"),
    ("import_statement",
      seq ["import", choice [seq [use "import_clause", use "_from_clause"], use "string"],
        optional (use "import_attribute"), semicolon]),
    ("import_clause",
      choice [use "namespace_import", use "named_imports",
        seq [Lexeme.name,
          optional (seq [",", choice [use "namespace_import", use "named_imports"]])]]),
    ("_from_clause", seq ["from", use "string"]),
    ("namespace_import", seq ["*", "as", Lexeme.name]),
    ("named_imports",
      seq ["\x7b", optional (listed (use "import_specifier")), optional ",", "\x7d"]),
    ("import_specifier",
      choice [Lexeme.name, seq [use "_export_name", "as", Lexeme.name]]),
    ("import_attribute", seq ["with", use "object"])]

def parenthesized : Rule := use "parenthesized_expression"

def statement : Rule := use "statement"

def usingWords : Rule := choice ["using", seq ["await", "using"]]

def statements : List (String × Rule) :=
  [("statement",
      uses ["export_statement", "import_statement", "debugger_statement", "expression_statement",
        "declaration", "statement_block", "if_statement", "switch_statement", "for_statement",
        "for_in_statement", "while_statement", "do_statement", "try_statement", "with_statement",
        "break_statement", "continue_statement", "return_statement", "throw_statement",
        "empty_statement", "labeled_statement"]),
    ("expression_statement", seq [expressions, semicolon]),
    ("variable_declaration", seq ["var", listed (use "variable_declarator"), semicolon]),
    ("lexical_declaration",
      seq [choice ["let", "const"], listed (use "variable_declarator"), semicolon]),
    ("using_declaration", seq [usingWords, listed (use "variable_declarator"), semicolon]),
    ("variable_declarator", seq [binding, optional (use "_initializer")]),
    ("statement_block",
      grouped .right
        (seq ["\x7b", repeated statement, "\x7d", optional Lexeme.statementEnd])),
    ("else_clause", seq ["else", statement]),
    ("if_statement",
      grouped .right (seq ["if", parenthesized, statement, optional (use "else_clause")])),
    ("switch_statement", seq ["switch", parenthesized, use "switch_body"]),
    ("for_statement",
      seq ["for", "(",
        choice [use "lexical_declaration", use "variable_declaration", seq [expressions, ";"],
          use "empty_statement"],
        choice [seq [expressions, ";"], use "empty_statement"],
        optional expressions, ")", statement]),
    ("for_in_statement", seq ["for", optional "await", use "_for_header", statement]),
    ("_for_header",
      seq ["(",
        choice [assignable, parenthesized,
          seq ["var", binding, optional (use "_initializer")],
          seq [choice ["let", "const"], binding, optional Lexeme.statementEnd],
          seq [usingWords, binding, optional Lexeme.statementEnd]],
        choice ["in", "of"], expressions, ")"]),
    ("while_statement", seq ["while", parenthesized, statement]),
    ("do_statement",
      grouped .right (seq ["do", statement, "while", parenthesized, optional semicolon])),
    ("try_statement",
      seq ["try", use "statement_block", optional (use "catch_clause"),
        optional (use "finally_clause")]),
    ("with_statement", seq ["with", parenthesized, statement]),
    ("break_statement", seq ["break", optional Lexeme.name, semicolon]),
    ("continue_statement", seq ["continue", optional Lexeme.name, semicolon]),
    ("debugger_statement", seq ["debugger", semicolon]),
    ("return_statement", seq ["return", optional expressions, semicolon]),
    ("throw_statement", seq ["throw", expressions, semicolon]),
    ("empty_statement", ";"),
    ("labeled_statement", weight (-1) (seq [anyName, ":", statement])),
    ("switch_body",
      seq ["\x7b", repeated (choice [use "switch_case", use "switch_default"]), "\x7d"]),
    ("switch_case", seq ["case", expressions, ":", repeated statement]),
    ("switch_default", seq ["default", ":", repeated statement]),
    ("catch_clause",
      seq ["catch", optional (seq ["(", binding, ")"]), use "statement_block"]),
    ("finally_clause", seq ["finally", use "statement_block"])]

def element : Rule := choice [use "expression", use "spread_element"]

def values : List (String × Rule) :=
  [("parenthesized_expression", seq ["(", expressions, ")"]),
    ("expression",
      uses ["primary_expression", "jsx_element", "jsx_self_closing_element",
        "assignment_expression", "augmented_assignment_expression", "await_expression",
        "unary_expression", "binary_expression", "ternary_expression", "update_expression",
        "new_expression", "yield_expression"]),
    ("primary_expression",
      choice [use "subscript_expression", use "member_expression", parenthesized, plainName,
        contextual, "this", "super", Lexeme.number, use "string", use "template_string",
        use "regex", "true", "false", "null", use "object", use "array",
        use "function_expression", use "arrow_function", use "generator_function", use "class",
        use "meta_property", use "call_expression"]),
    ("yield_expression",
      grouped .right
        (seq ["yield", choice [seq ["*", use "expression"], optional (use "expression")]])),
    ("object",
      level "object"
        (seq ["\x7b",
          optional (listed (optional
            (choice [use "pair", use "spread_element", use "method_definition", anyName]))),
          "\x7d"])),
    ("object_pattern",
      level "object"
        (seq ["\x7b",
          optional (listed (optional
            (choice [use "pair_pattern", use "rest_pattern", use "object_assignment_pattern",
              anyName]))),
          "\x7d"])),
    ("assignment_pattern", seq [use "pattern", "=", use "expression"]),
    ("object_assignment_pattern",
      seq [choice [anyName, use "_destructuring_pattern"], "=", use "expression"]),
    ("array", seq ["[", optional (listed (optional element)), "]"]),
    ("array_pattern", seq ["[", optional (listed (optional parameter)), "]"])]

def markup : Rule := uses ["jsx_element", "jsx_self_closing_element"]

def tag : Rule := choice [Lexeme.tagName, Lexeme.name]

def tagName : Rule := choice [tag, use "nested_identifier", use "jsx_namespace_name"]

def attributes : Rule := repeated (uses ["jsx_attribute", "jsx_expression"])

def markups : List (String × Rule) :=
  [("jsx_element",
      seq [use "jsx_opening_element",
        repeated (choice [Lexeme.markupText, Lexeme.reference, markup, use "jsx_expression"]),
        use "jsx_closing_element"]),
    ("jsx_expression",
      seq ["\x7b",
        optional (uses ["expression", "sequence_expression", "spread_element"]), "\x7d"]),
    ("jsx_opening_element", weight (-1) (seq ["<", optional (seq [tagName, attributes]), ">"])),
    ("nested_identifier",
      level "member"
        (seq [choice [Lexeme.name, use "nested_identifier"], ".", Lexeme.name])),
    ("jsx_namespace_name", seq [tag, ":", tag]),
    ("jsx_closing_element", seq ["</", optional tagName, ">"]),
    ("jsx_self_closing_element", seq ["<", tagName, attributes, "/>"]),
    ("jsx_attribute",
      seq [choice [tag, use "jsx_namespace_name"],
        optional (seq ["=", choice [use "_jsx_string", use "jsx_expression", markup]])]),
    ("_jsx_string",
      choice
        [seq ["\"", repeated (choice [Lexeme.doubleAttribute, Lexeme.reference]), "\""],
          seq ["'", repeated (choice [Lexeme.singleAttribute, Lexeme.reference]), "'"]])]

def formals : Rule := use "formal_parameters"

def functionBody (star : List Rule) (name : Rule) : List Rule :=
  [optional "async", "function"] ++ star ++ [name, formals, use "statement_block"]

def functions : List (String × Rule) :=
  [("class",
      level "literal"
        (seq [decorators, "class", optional Lexeme.name, optional (use "class_heritage"),
          use "class_body"])),
    ("class_declaration",
      level "declare"
        (seq [decorators, "class", Lexeme.name, optional (use "class_heritage"),
          use "class_body", optional Lexeme.statementEnd])),
    ("class_heritage", seq ["extends", use "expression"]),
    ("function_expression", level "literal" (seq (functionBody [] (optional Lexeme.name)))),
    ("function_declaration",
      rightOf "declare" (seq (functionBody [] Lexeme.name ++ [optional Lexeme.statementEnd]))),
    ("generator_function", level "literal" (seq (functionBody ["*"] (optional Lexeme.name)))),
    ("generator_function_declaration",
      rightOf "declare" (seq (functionBody ["*"] Lexeme.name ++ [optional Lexeme.statementEnd]))),
    ("arrow_function",
      seq [optional "async", choice [contextual, Lexeme.name, formals], "=>",
        choice [use "expression", use "statement_block"]]),
    ("call_expression",
      choice
        [level "call" (seq [choice [use "expression", use "import"], use "arguments"]),
          level "template"
            (seq [uses ["primary_expression", "new_expression"], use "template_string"]),
          level "member" (seq [use "primary_expression", "?.", use "arguments"])]),
    ("new_expression",
      rightOf "new"
        (seq ["new", uses ["primary_expression", "new_expression"],
          optional (weight 1 (use "arguments"))])),
    ("await_expression", level "unary" (seq ["await", use "expression"])),
    ("member_expression",
      level "member"
        (seq [uses ["expression", "primary_expression", "import"], choice [".", "?."],
          choice [Lexeme.privateName, property Lexeme.name]])),
    ("subscript_expression",
      rightOf "member"
        (seq [uses ["expression", "primary_expression"], optional "?.", "[", expressions, "]"]))]

/-- The binary operators with their levels, all but one grouping to the left. -/
def operators : List (String × String) :=
  [("&&", "and"), ("||", "or"), (">>", "shift"), (">>>", "shift"), ("<<", "shift"),
    ("&", "bit and"), ("^", "bit xor"), ("|", "bit or"), ("+", "sum"), ("-", "sum"),
    ("*", "product"), ("/", "product"), ("%", "product"), ("**", "power"), ("<", "relation"),
    ("<=", "relation"), ("==", "equality"), ("===", "equality"), ("!=", "equality"),
    ("!==", "equality"), (">=", "relation"), (">", "relation"), ("??", "conditional"),
    ("instanceof", "relation"), ("in", "relation")]

/-- Two operands around a binary operator; a private name may be sought in an object. -/
def operation : String × String → Rule
  | (sign, name) =>
    let first := if sign == "in" then choice [use "expression", Lexeme.privateName]
      else use "expression"
    rank (some name) (some (if sign == "**" then .right else .left))
      (seq [first, sign, use "expression"])

def operations : List (String × Rule) :=
  [("assignment_expression",
      rightOf "assign" (seq [choice [parenthesized, assignable], "=", use "expression"])),
    ("_updatable",
      choice [use "member_expression", use "subscript_expression", contextual, Lexeme.name,
        parenthesized]),
    ("augmented_assignment_expression",
      rightOf "assign"
        (seq [use "_updatable",
          choice ["+=", "-=", "*=", "/=", "%=", "^=", "&=", "|=", ">>=", ">>>=", "<<=", "**=",
            "&&=", "||=", "??="],
          use "expression"])),
    ("_initializer", seq ["=", use "expression"]),
    ("_destructuring_pattern", uses ["object_pattern", "array_pattern"]),
    ("spread_element", seq ["...", use "expression"]),
    ("ternary_expression",
      rightOf "conditional"
        (seq [use "expression", Lexeme.questionMark, use "expression", ":", use "expression"])),
    ("binary_expression", choice (operators.map operation)),
    ("unary_expression",
      leftOf "unary"
        (seq [choice ["!", "~", "-", "+", "typeof", "void", "delete"], use "expression"])),
    ("update_expression",
      grouped .left
        (choice [seq [use "expression", choice ["++", "--"]],
          seq [choice ["++", "--"], use "expression"]])),
    ("sequence_expression", grouped .right (listed (use "expression")))]

def literals : List (String × Rule) :=
  [("string",
      choice
        [seq ["\"", repeated (choice [Lexeme.doubleText, Lexeme.escape]), "\""],
          seq ["'", repeated (choice [Lexeme.singleText, Lexeme.escape]), "'"]]),
    ("template_string",
      seq ["\x60",
        repeated (choice [Lexeme.templateText, Lexeme.escape, use "template_substitution"]),
        "\x60"]),
    ("template_substitution", seq ["$\x7b", expressions, "\x7d"]),
    ("regex", seq ["/", Lexeme.pattern, Lexeme.patternEnd, optional Lexeme.flags]),
    ("meta_property", choice [seq ["new", ".", "target"], seq ["import", ".", "meta"]]),
    ("arguments", seq ["(", optional (listed (optional element)), ")"])]

def members : List (String × Rule) :=
  [("decorator",
      seq ["@", choice [Lexeme.name, uses ["decorator_member_expression",
        "decorator_call_expression"]]]),
    ("decorator_member_expression",
      level "member"
        (seq [choice [Lexeme.name, use "decorator_member_expression"], ".", Lexeme.name])),
    ("decorator_call_expression",
      level "call"
        (seq [choice [Lexeme.name, use "decorator_member_expression"], use "arguments"])),
    ("class_body",
      seq ["\x7b",
        repeated
          (choice [seq [use "method_definition", optional ";"],
            seq [use "field_definition", semicolon], use "class_static_block", ";"]),
        "\x7d"]),
    ("field_definition",
      seq [decorators, optional "static", use "_property_name", optional (use "_initializer")]),
    ("formal_parameters", seq ["(", optional (seq [listed parameter, optional ","]), ")"]),
    ("class_static_block",
      seq ["static", optional Lexeme.statementEnd, use "statement_block"]),
    ("pattern", weight (-1) (choice [assignable, use "rest_pattern"])),
    ("rest_pattern", grouped .right (seq ["...", assignable])),
    ("method_definition",
      seq [decorators, optional (choice ["static", Lexeme.staticGet]), optional "async",
        optional (choice ["get", "set", "*"]), use "_property_name", formals,
        use "statement_block"]),
    ("pair", seq [use "_property_name", ":", use "expression"]),
    ("pair_pattern", seq [use "_property_name", ":", parameter]),
    ("_property_name",
      property
        (choice [anyName, Lexeme.privateName, use "string", Lexeme.number,
          use "computed_property_name"])),
    ("computed_property_name", seq ["[", use "expression", "]"])]

/-- The constructs of scripts; the first is the whole of one. -/
def rules : List (String × Rule) :=
  sharing ++ statements ++ values ++ markups ++ functions ++ operations ++ literals ++ members

/-- The constructs that only gather others and leave no node of their own. -/
def gatherings : List String :=
  ["statement", "declaration", "expression", "primary_expression", "pattern"]

/-- What an ordering of precedences mentions: a level, or every alternative of a construct. -/
inductive Rung where
  | level (name : String)
  | rule (name : String)
  deriving DecidableEq, Repr

/-- The orderings of precedence, each from the tightest to the loosest. The first one that mentions
both of two competitors decides between them. -/
def ladders : List (List Rung) :=
  [[.level "member", .level "template", .level "call", .rule "update_expression", .level "unary",
      .level "power", .level "product", .level "sum", .level "shift", .level "relation",
      .level "equality", .level "bit and", .level "bit xor", .level "bit or", .level "and",
      .level "or", .level "conditional", .rule "sequence_expression", .rule "arrow_function"],
    [.level "assign", .rule "primary_expression"],
    [.level "member", .level "template", .level "new", .level "call", .rule "expression"],
    [.level "declare", .level "literal"],
    [.rule "primary_expression", .rule "statement_block", .level "object"],
    [.rule "meta_property", .rule "import"],
    [.rule "import_statement", .rule "import"],
    [.rule "export_statement", .rule "primary_expression"],
    [.rule "lexical_declaration", .rule "primary_expression"]]

end Script
end ScriptSense
