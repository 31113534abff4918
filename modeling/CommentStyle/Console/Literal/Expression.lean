import CommentStyle.Console.Literal.Written

/-!
# Expressions

The grammar of expressions, with the mistakes that are reported by name. Literals are expressions, so that a
text that is no literal is first judged as an expression.
-/

namespace CommentStyle.Console.Literal

inductive Rule where
  | whole
  | expressions
  | expression
  | plainExpression
  | yielded
  | starExpressions
  | starExpression
  | starNamedExpressions
  | starNamedExpression
  | assignment
  | namedExpression
  | misnamed
  | disjunction
  | conjunction
  | inversion
  | comparison
  | comparisonRest
  | bitOr
  | bitXor
  | bitAnd
  | shift
  | sum
  | term
  | factor
  | power
  | awaited
  | primary
  | suffix
  | atom
  | tuple
  | group
  | generator
  | mapping
  | set
  | mappingGenerator
  | setGenerator
  | badGenerator
  | entries
  | entry
  | pair
  | badPair
  | texts
  | function
  | parameters
  | badParameters
  | slash
  | defaultSlash
  | starParameters
  | namedParameters
  | plainParameter
  | defaultParameter
  | anyParameter
  | default
  | clauses
  | clause
  | arguments
  | args
  | positional
  | starred
  | keywords
  | keywordOrStarred
  | keywordOrUnpacked
  | badKeyword
  | targets
  | target
  | plainTarget
deriving DecidableEq, Repr

/-! ## Tokens -/

def keywords : List String :=
  ["False", "None", "True", "and", "as", "assert", "async", "await", "break", "class", "continue", "def",
    "del", "elif", "else", "except", "finally", "for", "from", "global", "if", "import", "in", "is",
    "lambda", "nonlocal", "not", "or", "pass", "raise", "return", "try", "while", "with", "yield"]

namespace Token

def word (t : Token) : String := String.ofList t.text

def isName (t : Token) : Bool := t.kind = .name && !keywords.contains t.word

/-- A sign or keyword. -/
def is (word : String) (t : Token) : Bool := (t.kind = .sign || t.kind = .name) && t.word = word

def isNumber (t : Token) : Bool := t.kind = .number

def isText (t : Token) : Bool := t.kind = .text

end Token

/-- A name that begins a word which is a keyword in some places only. -/
def isContextual (t : Token) : Bool :=
  t.isName && ["_", "case", "match"].any fun word => startsWith t.text word.toList

/-! ## Words for phrases -/

/-- What a phrase is called in a reason. -/
def Tree.name : Tree → String
  | leaf t =>
    if t.word = "..." then "ellipsis"
    else if t.word = "True" ∨ t.word = "False" ∨ t.word = "None" then t.word
    else if t.kind = .name then "name"
    else "literal"
  | node .tuple _ => "tuple"
  | node .set _ => "set display"
  | node .mapping _ => "dict literal"
  | node .starred _ => "starred"
  | node .texts parts =>
    if parts.any fun p => match p with
      | leaf t => (Written.ofText t.text).isFormatted
      | _ => false
    then "f-string expression" else "literal"
  | node .comparison _ => "comparison"
  | node .conditional _ => "conditional expression"
  | node .assignment _ => "named expression"
  | node .function _ => "lambda"
  | node .yielded _ => "yield expression"
  | node .awaited _ => "await expression"
  | node .generator _ => "generator expression"
  | node .setGenerator _ => "set comprehension"
  | node .mappingGenerator _ => "dict comprehension"
  | node .applied parts =>
    match parts.getLast? with
    | some (node .attribute _) => "attribute"
    | _ => "function call"
  | node _ _ => "expression"

def nameOf (ts : List Tree) : String := (ts.head?.map Tree.name).getD "expression"

/-- The name is one of the words that once were statements. -/
def isFormerStatement : List Tree → Bool
  | .leaf t :: _ => t.isName && (t.word = "print" || t.word = "exec")
  | _ => false

def formerStatement (ts : List Tree) : Option String :=
  match ts with
  | .leaf t :: _ =>
    if isFormerStatement ts then
      some ("Missing parentheses in call to '" ++ t.word ++ "'. Did you mean " ++ t.word ++ "(...)?")
    else none
  | _ => none

mutual

/-- The part of a target that cannot be assigned to. -/
def wrongTarget : Tree → Option String
  | .leaf t => if t.isName then none else some (Tree.leaf t).name
  | .node .tuple parts => wrongTargets parts
  | .node .starred parts => wrongTargets parts
  | .node .comparison (left :: .leaf op :: _) => if op.word = "in" then wrongTarget left else none
  | .node .comparison _ => none
  | .node .applied parts =>
    match parts.getLast? with
    | some (.node .attribute _) => none
    | _ => some "function call"
  | t => some t.name

def wrongTargets : List Tree → Option String
  | [] => none
  | t :: ts => (wrongTarget t).or (wrongTargets ts)

end

def Tree.isKeyword : Tree → Bool
  | node .keyword _ | node .unpacked _ => true
  | _ => false

def Tree.isUnpacked : Tree → Bool
  | node .unpacked _ => true
  | _ => false

/-! ## The grammar -/

namespace Rule

abbrev P := Pattern Rule

def sign (word : String) : P := .mark (·.is word)

def kept (words : List String) : P := .leaf fun t => words.any t.is

def name : P := .leaf Token.isName

/-- Operands with operators between them, or one operand alone. -/
def operation (phrase : Phrase) (operand : P) (operators : List String) : P :=
  .first [.node phrase (.all [operand, .some (.all [kept operators, operand])]), operand]

/-- Mistakes that are looked for only with care. -/
def guarded (ms : List (P × (List Tree → Nat → Option String))) : P := .careful (.mistakes ms)

def always (reason : String) : List Tree → Nat → Option String := fun _ _ => some reason

/-- An expression that is not followed by an assignment. -/
def unassigned : P := .first [.rule assignment, .all [.rule expression, .notAhead (sign ":=")]]

def noAssignment : P := .notAhead (.first [sign "=", sign ":="])

def afterCall : P := .first [sign "(", sign ".", sign "["]

/-- A parameter ends with a comma or before the colon. -/
def endsParameter : P := .first [sign ",", .ahead (sign ":")]

def pattern : Rule → P
  | whole => .all [.rule expressions, .many (.mark (·.kind = .lineEnd)), .mark (·.kind = .finish)]
  | expressions => .first
      [.node .tuple (.all [.rule expression, .some (.all [sign ",", .rule expression]), .opt (sign ",")]),
        .node .tuple (.all [.rule expression, sign ","]), .rule expression]
  | expression => .first
      [guarded
        [(.all [.notAhead (.first [.all [name, .mark Token.isText], .mark isContextual]),
            .rule disjunction, .rule plainExpression],
          fun ts level => if isFormerStatement ts || level = 0 then none
            else some "invalid syntax. Perhaps you forgot a comma?"),
          (.all [.rule disjunction, sign "if", .rule disjunction, .notAhead (.first [sign "else", sign ":"])],
            always "expected 'else' after 'if' expression")],
        guarded
          [(.all [name, .notAhead (sign "("), .rule starExpressions],
            fun ts _ => formerStatement ts)],
        .node .conditional
          (.all [.rule disjunction, sign "if", .rule disjunction, sign "else", .rule expression]),
        .rule disjunction, .rule function]
  | plainExpression => .careless (.first
      [.node .conditional
          (.all [.rule disjunction, sign "if", .rule disjunction, sign "else", .rule expression]),
        .rule disjunction, .rule function])
  | yielded => .node .yielded (.first
      [.all [sign "yield", sign "from", .rule expression], .all [sign "yield", .opt (.rule starExpressions)]])
  | starExpressions => .first
      [.node .tuple
          (.all [.rule starExpression, .some (.all [sign ",", .rule starExpression]), .opt (sign ",")]),
        .node .tuple (.all [.rule starExpression, sign ","]), .rule starExpression]
  | starExpression => .first [.node .starred (.all [sign "*", .rule bitOr]), .rule expression]
  | starNamedExpressions => .all [.divided (sign ",") (.rule starNamedExpression), .opt (sign ",")]
  | starNamedExpression => .first [.node .starred (.all [sign "*", .rule bitOr]), .rule namedExpression]
  | assignment => .node .assignment (.all [name, sign ":=", .rule expression])
  | namedExpression => .first
      [.rule assignment, .rule misnamed, .all [.rule expression, .notAhead (sign ":=")]]
  | misnamed => guarded
      [(.all [.rule expression, sign ":=", .rule expression],
          fun ts _ => some ("cannot use assignment expressions with " ++ nameOf ts)),
        (.all [name, sign "=", .rule bitOr, noAssignment],
          always "invalid syntax. Maybe you meant '==' or ':=' instead of '='?"),
        (.all [.notAhead (.first [.rule tuple, .rule generator, kept ["True", "None", "False"]]), .rule bitOr,
            sign "=", .rule bitOr, noAssignment],
          fun ts _ =>
            some ("cannot assign to " ++ nameOf ts ++ " here. Maybe you meant '==' instead of '='?"))]
  | disjunction => operation .expression (.rule conjunction) ["or"]
  | conjunction => operation .expression (.rule inversion) ["and"]
  | inversion => .first [.node .expression (.all [sign "not", .rule inversion]), .rule comparison]
  | comparison => .first
      [.node .comparison (.all [.rule bitOr, .some (.rule comparisonRest)]), .rule bitOr]
  | comparisonRest => .first
      [.all [kept ["==", "!=", "<=", "<", ">=", ">"], .rule bitOr],
        .all [kept ["not"], sign "in", .rule bitOr], .all [kept ["in"], .rule bitOr],
        .all [kept ["is"], sign "not", .rule bitOr], .all [kept ["is"], .rule bitOr]]
  | bitOr => operation .expression (.rule bitXor) ["|"]
  | bitXor => operation .expression (.rule bitAnd) ["^"]
  | bitAnd => operation .expression (.rule shift) ["&"]
  | shift => operation .expression (.rule sum) ["<<", ">>"]
  | sum => operation .sum (.rule term) ["+", "-"]
  | term => operation .expression (.rule factor) ["*", "/", "//", "%", "@"]
  | factor => .first
      [.node .signed (.all [kept ["+", "-"], .rule factor]), .node .expression (.all [sign "~", .rule factor]),
        .rule power]
  | power => .first [.node .expression (.all [.rule awaited, sign "**", .rule factor]), .rule awaited]
  | awaited => .first [.node .awaited (.all [sign "await", .rule primary]), .rule primary]
  | primary => .first [.node .applied (.all [.rule atom, .some (.rule suffix)]), .rule atom]
  | suffix => .first
      [.node .attribute (.all [sign ".", name]), .node .call (.rule generator),
        .node .call (.all [sign "(", .opt (.rule arguments), sign ")"])]
  | atom => .first
      [name, kept ["True", "False", "None"], .rule texts, .judged (.leaf Token.isNumber) numberFault,
        .all [.ahead (sign "("), .first [.rule tuple, .rule group, .rule generator]],
        .all [.ahead (sign "\x7b"),
          .first [.rule mapping, .rule set, .rule mappingGenerator, .rule setGenerator]],
        kept ["..."]]
  | tuple => .node .tuple (.all [sign "(",
      .opt (.all [.rule starNamedExpression, sign ",", .opt (.rule starNamedExpressions)]), sign ")"])
  | group => .first
      [.all [sign "(", .first [.rule yielded, .rule namedExpression], sign ")"],
        guarded
          [(.all [sign "(", .rule starred, sign ")"], always "cannot use starred expression here"),
            (.all [sign "(", sign "**", .rule expression, sign ")"],
              always "cannot use double starred expression here")]]
  | generator => .first
      [.node .generator (.all [sign "(", unassigned, .rule clauses, sign ")"]), .rule badGenerator]
  | mapping => .first
      [.node .mapping (.all [sign "\x7b", .opt (.rule entries), sign "\x7d"]),
        .all [sign "\x7b", .first
          [.all [.divided (sign ",") (.rule entry), sign ",", .rule badPair],
            .mistakes
              [(.all [.rule expression, sign ":", sign "*", .rule bitOr],
                  always "cannot use a starred expression in a dictionary value"),
                (.all [.rule expression, sign ":", .ahead (.first [sign "\x7d", sign ","])],
                  always "expression expected after dictionary key and ':'")]], sign "\x7d"]]
  | set => .node .set (.all [sign "\x7b", .rule starNamedExpressions, sign "\x7d"])
  | mappingGenerator => .first
      [.node .mappingGenerator (.all [sign "\x7b", .rule pair, .rule clauses, sign "\x7d"]),
        guarded [(.all [sign "\x7b", sign "**", .rule bitOr, .rule clauses, sign "\x7d"],
          always "dict unpacking cannot be used in dict comprehension")]]
  | setGenerator => .first
      [.node .setGenerator (.all [sign "\x7b", .rule namedExpression, .rule clauses, sign "\x7d"]),
        .rule badGenerator]
  | badGenerator => guarded
      [(.all [.first [sign "(", sign "\x7b"], .rule starred, .rule clauses],
          always "iterable unpacking cannot be used in comprehension"),
        (.all [sign "\x7b", .rule starNamedExpression, sign ",", .rule starNamedExpressions, .rule clauses],
          always "did you forget parentheses around the comprehension target?"),
        (.all [sign "\x7b", .rule starNamedExpression, sign ",", .rule clauses],
          always "did you forget parentheses around the comprehension target?")]
  | entries => .all [.divided (sign ",") (.rule entry), .opt (sign ",")]
  | entry => .first [.node .unpacked (.all [sign "**", .rule bitOr]), .rule pair]
  | pair => .node .pair (.all [.rule expression, sign ":", .rule expression])
  | badPair => .mistakes
      [(.all [.rule expression, .notAhead (sign ":")], always "':' expected after dictionary key"),
        (.all [.rule expression, sign ":", sign "*", .rule bitOr],
          always "cannot use a starred expression in a dictionary value"),
        (.all [.rule expression, sign ":", .ahead (.first [sign "\x7d", sign ","])],
          always "expression expected after dictionary key and ':'")]
  | texts => .node .texts (.judged (.some (.leaf Token.isText)) (textsFault none))
  | function => .node .function (.all
      [sign "lambda", .opt (.rule parameters), sign ":", .rule expression])
  | parameters => .first
      [.rule badParameters, .all [.rule slash, .many (.rule plainParameter), .many (.rule defaultParameter),
          .opt (.rule starParameters)],
        .all [.rule defaultSlash, .many (.rule defaultParameter), .opt (.rule starParameters)],
        .all [.some (.rule plainParameter), .many (.rule defaultParameter), .opt (.rule starParameters)],
        .all [.some (.rule defaultParameter), .opt (.rule starParameters)], .rule starParameters]
  | slash => .all [.some (.rule plainParameter), sign "/", endsParameter]
  | defaultSlash =>
      .all [.many (.rule plainParameter), .some (.rule defaultParameter), sign "/", endsParameter]
  | starParameters => .first
      [guarded
        [(.all [sign "*", .first [sign ":", .all [sign ",", .first [sign ":", sign "**"]]]],
            always "named arguments must follow bare *"),
          (.all [sign "*", name, sign "="], always "var-positional argument cannot have default value"),
          (.all [sign "*", .first [.rule plainParameter, sign ","], .many (.rule anyParameter), sign "*",
              .first [.rule plainParameter, sign ","]],
            always "* argument may appear only once")],
        .all [sign "*", .rule plainParameter, .many (.rule anyParameter), .opt (.rule namedParameters)],
        .all [sign "*", sign ",", .some (.rule anyParameter), .opt (.rule namedParameters)],
        .rule namedParameters]
  | namedParameters => .first
      [guarded
        [(.all [sign "**", name, sign "="], always "var-keyword argument cannot have default value"),
          (.all [sign "**", name, sign ",", .first [name, sign "*", sign "**", sign "/"]],
            always "arguments cannot follow var-keyword argument")],
        .all [sign "**", .rule plainParameter]]
  | plainParameter => .all [name, endsParameter]
  | defaultParameter => .all [name, .rule default, endsParameter]
  | anyParameter => .all [name, .opt (.rule default), endsParameter]
  | default => .first
      [.all [sign "=", .rule expression],
        guarded [(.all [sign "=", .ahead (.first [sign ")", sign ","])],
          always "expected default value expression")]]
  | badParameters =>
      let slashed : P := .first [.rule slash, .rule defaultSlash]
      guarded
        [(.all [.many (.rule plainParameter), .first [.rule defaultSlash, .some (.rule defaultParameter)],
              .rule plainParameter],
            always "non-default argument follows default argument"),
          (.all [.many (.rule plainParameter), sign "(", .divided (sign ",") name, .opt (sign ","), sign ")"],
            always "Lambda expression parameters cannot be parenthesized"),
          (.all [sign "/", sign ","], always "at least one argument must precede /"),
          (.all [slashed, .many (.rule anyParameter), sign "/"], always "/ may appear only once"),
          (.all [.opt slashed, .many (.rule anyParameter), sign "*", .first [sign ",", .rule plainParameter],
              .many (.rule anyParameter), sign "/"],
            always "/ must be ahead of *"),
          (.all [.some (.rule anyParameter), sign "/", sign "*"], always "expected comma between / and *")]
  | clauses => .some (.rule clause)
  | clause => .first
      [.all [.opt (sign "async"), sign "for", .rule targets, sign "in", .rule disjunction,
          .many (.all [sign "if", .rule disjunction])],
        .all [.notAhead (.all [.opt (sign "async"), sign "for", .rule targets, sign "in"]),
          guarded [(.all [.opt (sign "async"), sign "for", .rule starExpressions],
            fun ts _ => (wrongTargets ts).map ("cannot assign to " ++ ·))]]]
  | arguments => .first
      [.all [.rule args, .opt (sign ","), .ahead (sign ")")],
        guarded
          [(.all [.rule args, sign ",", sign "*"],
              always "iterable argument unpacking follows keyword argument unpacking"),
            (.all [.rule expression, .rule clauses, sign ",",
                .opt (.first [.rule args, .all [.rule expression, .rule clauses]])],
              always "Generator expression must be parenthesized"),
            (.all [name, sign "=", .rule expression, .rule clauses],
              always "invalid syntax. Maybe you meant '==' or ':=' instead of '='?"),
            (.all [.node .tuple (.rule args), .rule clauses],
              fun ts _ => match ts with
                | .node _ parts :: _ =>
                  if (parts.filter fun p => !p.isKeyword).length ≤ 1 then none
                  else some "Generator expression must be parenthesized"
                | _ => none),
            (.all [.rule args, sign ",", .rule expression, .rule clauses],
              always "Generator expression must be parenthesized"),
            (.all [.node .tuple (.rule args), sign ",", .rule args],
              fun ts _ => match ts with
                | .node _ parts :: _ =>
                  some (if parts.any Tree.isUnpacked then
                    "positional argument follows keyword argument unpacking"
                    else "positional argument follows keyword argument")
                | _ => none)]]
  | args => .first
      [.all [.divided (sign ",") (.rule positional), .opt (.all [sign ",", .rule keywords])], .rule keywords]
  | positional => .first [.rule starred, .all [unassigned, .notAhead (sign "=")]]
  | starred => .first
      [.node .starred (.all [sign "*", .rule expression]),
        .mistakes [(sign "*", always "Invalid star expression")]]
  | keywords => .first
      [.all [.divided (sign ",") (.rule keywordOrStarred), sign ",",
          .divided (sign ",") (.rule keywordOrUnpacked)],
        .divided (sign ",") (.rule keywordOrStarred), .divided (sign ",") (.rule keywordOrUnpacked)]
  | keywordOrStarred => .first
      [.rule badKeyword, .node .keyword (.all [name, sign "=", .rule expression]), .rule starred]
  | keywordOrUnpacked => .first
      [.rule badKeyword, .node .keyword (.all [name, sign "=", .rule expression]),
        .node .unpacked (.all [sign "**", .rule expression])]
  | badKeyword => guarded
      [(.all [kept ["True", "False", "None"], sign "="], fun ts _ => some ("cannot assign to " ++ nameOf ts)),
        (.all [name, sign "=", .rule expression, .rule clauses],
          always "invalid syntax. Maybe you meant '==' or ':=' instead of '='?"),
        (.all [.notAhead (.all [name, sign "="]), .rule expression, sign "="],
          always "expression cannot contain assignment, perhaps you meant \"==\"?")]
  | targets => .all [.rule target, .many (.all [sign ",", .rule target]), .opt (sign ",")]
  | target => .first [.all [sign "*", .notAhead (sign "*"), .rule target], .rule plainTarget]
  | plainTarget => .first
      [.all [.rule atom, .ahead afterCall, .many (.all [.rule suffix, .ahead afterCall]), sign ".", name,
          .notAhead afterCall],
        name, .all [sign "(", .rule plainTarget, sign ")"],
        .all [sign "(", .opt (.first
          [.all [.rule target, .some (.all [sign ",", .rule target]), .opt (sign ",")],
            .all [.rule target, sign ","]]), sign ")"]]

/-- Rules that remember what they matched whatever the care. -/
def shared : Rule → Bool
  | expression | starExpression | disjunction | conjunction | inversion | bitOr | bitXor | bitAnd | shift
  | sum | term | factor | awaited | primary | texts | arguments | target | plainTarget => true
  | _ => false

end Rule

def expressionGrammar : Grammar Rule where
  pattern := Rule.pattern
  shared := Rule.shared

/-- The tree of an expression. -/
def expression (text : List Char) : Except String (List Tree) :=
  expressionGrammar.read .whole (tokens text).toArray

end CommentStyle.Console.Literal
