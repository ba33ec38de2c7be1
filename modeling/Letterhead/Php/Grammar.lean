import Letterhead.Php.Production
/-
# The grammar of PHP

Statements, declarations and expressions. Binary operators are taken from left
to right without regard to their strength, as it cannot decide whether a text
is code. No rule stands for nothing.

Part of the stand-in parser (`Php.Tree`), on which no result rests.
-/
namespace Letterhead.Php

/-- The rules of the grammar. The first one is the whole of a script. -/
inductive Rule
  | script | statement | block | parenthesised | ifRest | foreachValue | caseBranch | handler
  | useStatement | declaration | constantList | functionHead | functionBodyOrStop
  | parameters | parameter | returnType | type | simpleType | className | attributes
  | classBody | member | enumMember | memberDeclaration | traitRule | modifier | visibility
  | hooks
  | expressions | expression | operand | unary | primary | closure | matchExpression | matchArm
  | literal | quoted | doublePart | backtickPart | documentPart | quotedIndex
  | anyVariable | simpleVariable | constant | base | memberName | arguments | argument
  | array | arrayItem | byReference | pattern | bracketPattern | bracketSlot | wordPattern
  | wordSlot
  | instantiation | classReference | anonymousClass | castType
deriving DecidableEq, Repr

namespace Rule

open Production

/-- All rules, the whole of a script in front. -/
def rules : List Rule :=
  [script, statement, block, parenthesised, ifRest, foreachValue, caseBranch, handler,
   useStatement, declaration, constantList, functionHead, functionBodyOrStop,
   parameters, parameter, returnType, type, simpleType, className, attributes,
   classBody, member, enumMember, memberDeclaration, traitRule, modifier, visibility,
   hooks,
   expressions, expression, operand, unary, primary, closure, matchExpression, matchArm,
   literal, quoted, doublePart, backtickPart, documentPart, quotedIndex,
   anyVariable, simpleVariable, constant, base, memberName, arguments, argument,
   array, arrayItem, byReference, pattern, bracketPattern, bracketSlot, wordPattern, wordSlot,
   instantiation, classReference, anonymousClass, castType]

/-- A name; any word is one where no keyword of that spelling can stand. -/
def name : Production Rule := .token .name

/-- The end of a statement. -/
def stop : Production Rule := .choice (op ";") (.token .stopAhead)

def statements : Production Rule := .many (.rule statement)

/-- The other form of a body: a colon, statements and a closing keyword. -/
def untilKeyword (w : String) : Production Rule := all [op ":", statements, kw w, stop]

def variableName : Production Rule := .seq (op "$") name

/-- A value behind an equals sign. -/
def assigned : Production Rule := .seq (op "=") (.rule expression)

def path : Production Rule := separated (op "\\") name

/-- A name in a namespace that is told along with it. -/
def qualified : Production Rule := oneOf
  [.seq (op "\\") path, all [name, op "\\", path], all [kw "namespace", op "\\", path]]

/-- The words for a class that depend on the place. -/
def relativeClass : Production Rule := .choice (words ["self", "parent"]) (kw "static")

def asName : Production Rule := .seq (kw "as") name

def extendsClause : Production Rule := .seq (kw "extends") (commaList (.rule className))

def implementsClause : Production Rule := .seq (kw "implements") (commaList (.rule className))

/-- The production, perhaps with attributes in front. -/
def attributed (p : Production Rule) : Production Rule := .seq (optional (.rule attributes)) p

/-- The statements that a keyword begins. -/
def keywordStatements : List (Production Rule) :=
  [all [kw "if", .rule parenthesised, .rule ifRest],
   all [kw "while", .rule parenthesised, .choice (untilKeyword "endwhile") (.rule statement)],
   all [kw "do", .rule statement, kw "while", .rule parenthesised, stop],
   all [kw "for", op "(", optional (.rule expressions), op ";", optional (.rule expressions),
     op ";", optional (.rule expressions), op ")",
     oneOf [.token .stopAhead, untilKeyword "endfor", .rule statement]],
   all [kw "foreach", op "(", .rule expression, kw "as",
     .choice (.seq (.rule expression) (optional (.seq (op "=>") (.rule foreachValue))))
       (.rule foreachValue),
     op ")", oneOf [.token .stopAhead, untilKeyword "endforeach", .rule statement]],
   all [kw "switch", .rule parenthesised, .choice
     (all [op "\x7b", .many (.rule caseBranch), op "\x7d"])
     (all [op ":", .many (.rule caseBranch), kw "endswitch", stop])],
   all [kws ["break", "continue", "return"], optional (.rule expression), stop],
   all [kw "echo", .rule expressions, stop],
   all [kw "exit", optional (all [op "(", optional (.rule expression), op ")"]), stop],
   all [kw "unset", op "(", commaList (.rule anyVariable), optional (op ","), op ")", stop],
   all [kw "global", commaList (.rule simpleVariable), stop],
   all [kw "static", commaList (.seq variableName (optional assigned)), stop],
   all [kw "goto", name, stop],
   all [kw "try", .rule block, oneOrMore (.rule handler)],
   all [kw "declare", op "(", words ["ticks", "encoding", "strict_types"], op "=", .rule literal,
     op ")", oneOf [.token .stopAhead, untilKeyword "enddeclare", .rule statement]],
   all [kw "namespace", path, .choice stop (.rule block)],
   .seq (kw "namespace") (.rule block),
   .rule useStatement]

/-- The declarations that attributes can lead. -/
def declarations : List (Production Rule) :=
  [.seq (.rule functionHead) (.rule block),
   all [.many (kws ["abstract", "final", "readonly"]), kw "class", name, optional extendsClause,
     optional implementsClause, .rule classBody],
   all [kw "interface", name, optional extendsClause, .rule classBody],
   all [kw "trait", name, .rule classBody],
   all [kw "enum", name, optional (.seq (op ":") (.rule type)), optional implementsClause,
     op "\x7b", .many (.rule enumMember), op "\x7d"]]

def binaryOperators : Production Rule := .choice
  (ops ["===", "!==", "<=>", "==", "!=", "<>", "<=", ">=", "&&", "||", "<<", ">>", "**", "??",
    "+", "-", "*", "/", "%", "<", ">", ".", "&", "|", "^"])
  (kws ["and", "or", "xor"])

/-- The operators that store the result of an operation. -/
def storeOperators : Production Rule :=
  ops ["**=", "<<=", ">>=", "??=", "+=", "-=", "*=", "/=", ".=", "%=", "&=", "|=", "^="]

def inclusion : Production Rule :=
  .seq (kws ["include", "include_once", "require", "require_once"]) (.rule expression)

/-- A type in parentheses, in front of what is converted to it. -/
def cast : Production Rule := all [op "(", .rule castType, op ")"]

def indexing : Production Rule := .choice
  (all [op "[", optional (.rule expression), op "]"])
  (all [op "\x7b", .rule expression, op "\x7d"])

def arrowMember : Production Rule := .seq (ops ["->", "?->"]) (.rule memberName)

/-- The parts of code between quotes. -/
def partBetween (q : Quote) : Production Rule := oneOf
  [.token (.stretch q),
   .seq variableName (optional (.choice
     (all [.token .index, .rule quotedIndex, op "]"]) (.seq (.token .member) name))),
   all [optional (op "$"), op "\x7b", .rule expression, op "\x7d"]]

/-- What one value of a list goes to; a pattern in a pattern is of its kind. -/
def slotOf (inner : Rule) : Production Rule :=
  .seq (optional (.seq (.rule expression) (op "=>")))
    (oneOf [.rule anyVariable, .rule byReference, .rule inner])

/-- The production of each rule. -/
def definition : Rule → Production Rule
  | script => .seq statements (.token .endOfText)
  | statement => oneOf ([op ";", .rule block, .seq name (op ":"), .seq (.rule expression) stop,
      attributed (.rule declaration), .rule constantList] ++ keywordStatements)
  | block => all [op "\x7b", statements, op "\x7d"]
  | parenthesised => all [op "(", .rule expression, op ")"]
  | ifRest => .choice
      (all [op ":", statements,
        .many (all [kw "elseif", .rule parenthesised, op ":", statements]),
        optional (all [kw "else", op ":", statements]), kw "endif", stop])
      (all [.rule statement, .many (all [kw "elseif", .rule parenthesised, .rule statement]),
        optional (.seq (kw "else") (.rule statement))])
  | foreachValue => oneOf [.rule expression, .rule byReference, .rule pattern]
  | caseBranch => all [.choice (.seq (kw "case") (.rule expression)) (kw "default"),
      ops [":", ";"], statements]
  | handler => .choice
      (all [kw "catch", op "(", separated (op "|") (.rule className), optional variableName,
        op ")", .rule block])
      (.seq (kw "finally") (.rule block))
  | useStatement => all [kw "use", optional (kws ["function", "const"]), .choice
      (commaList (all [optional (op "\\"), path, optional asName]))
      (all [optional (op "\\"), path, op "\\", op "\x7b",
        commaList (all [optional (kws ["function", "const"]), path, optional asName]),
        op "\x7d"]),
      stop]
  | declaration => oneOf declarations
  | constantList => all [kw "const", optional (.rule type),
      commaList (.seq (.choice name relativeClass) assigned), stop]
  | functionHead => all [kw "function", optional (op "&"), name, .rule parameters,
      optional (.rule returnType)]
  | functionBodyOrStop => .choice stop (.rule block)
  | parameters => all [op "(", commaListOpen (.rule parameter), op ")"]
  | parameter => attributed (oneOf
      [all [optional (.rule type), optional (op "&"), .choice
        (.seq variableName (optional assigned)) (.seq (op "...") variableName)],
       all [.rule visibility, optional (kw "readonly"), optional (.rule type), optional (op "&"),
         variableName, optional assigned, optional (.rule hooks)]])
  | returnType => .seq (op ":") (.choice (.rule type) (words ["never"]))
  | type => .choice
      (separated (op "|") (.choice (.rule simpleType)
        (all [op "(", separated (op "&") (.rule simpleType), op ")"])))
      (separated (op "&") (.rule simpleType))
  | simpleType => .seq (optional (op "?")) (oneOf [.rule className, kws ["callable", "static"],
      words ["array", "iterable", "bool", "float", "int", "string", "void", "mixed", "false",
        "null", "true"]])
  | className => .choice name qualified
  | attributes => oneOrMore (all [op "#[",
      commaList (.seq (.rule className) (optional (.rule arguments))), optional (op ","), op "]"])
  | classBody => all [op "\x7b", .many (.rule member), op "\x7d"]
  | member => .choice (attributed (.rule memberDeclaration))
      (all [kw "use", commaList (.rule className), .choice stop
        (all [op "\x7b", .many (.rule traitRule), op "\x7d"])])
  | enumMember => .choice (.rule member)
      (attributed (all [kw "case", name, optional assigned, stop]))
  | memberDeclaration => oneOf
      [.seq (.many (.rule modifier)) (.rule constantList),
       all [.many (.rule modifier), .rule functionHead, .rule functionBodyOrStop],
       all [oneOrMore (.rule modifier), optional (.rule type),
         commaList (.seq variableName (optional assigned)), .choice stop (.rule hooks)]]
  | traitRule => .seq
      (.choice
        (all [.rule constant, kw "insteadof", commaList (.rule className)])
        (all [.choice (.rule constant) name, kw "as",
          .choice name (.seq (.rule visibility) (optional name))]))
      stop
  | modifier => .choice (.rule visibility) (kws ["static", "abstract", "final", "readonly", "var"])
  | visibility => .seq (kws ["public", "protected", "private"])
      (optional (all [op "(", kw "set", op ")"]))
  | hooks => all [op "\x7b", .many (attributed (all [optional (kw "final"), optional (op "&"), name,
      optional (.rule parameters), .choice (.rule functionBodyOrStop)
        (all [op "=>", .rule expression, stop])])), op "\x7d"]
  | expressions => commaList (.rule expression)
  | expression => .seq (.rule operand) (.many (.choice
      (.seq binaryOperators (.rule operand))
      (all [op "?", optional (.rule expression), op ":", .rule operand])))
  | operand => oneOf
      [.seq (.rule unary) (optional (.seq (kw "instanceof") (.rule classReference))),
       .seq (op "@") (.rule operand),
       .seq (.choice (.rule anyVariable) (.rule pattern))
         (all [op "=", optional (op "&"), .rule expression]),
       all [.rule anyVariable, storeOperators, .rule expression],
       .seq (kw "yield") (optional (.choice (.rule arrayItem)
         (.seq (kw "from") (.rule expression)))),
       .rule matchExpression, inclusion]
  | unary => oneOf
      [.rule primary, .seq (kw "clone") (.rule primary),
       .seq (ops ["+", "-", "~", "!"]) (.rule operand),
       .seq cast (oneOf [.rule unary, .seq (op "@") (.rule operand), inclusion])]
  | primary => oneOf
      [.rule anyVariable, .rule constant, .rule className, .rule literal, .rule array,
       .rule parenthesised, attributed (.rule closure), .rule instantiation,
       .seq (kws ["print", "throw"]) (.rule expression),
       .seq (ops ["++", "--"]) (.rule anyVariable), .seq (.rule anyVariable) (ops ["++", "--"]),
       all [op "\x60", .many (.rule backtickPart), op "\x60"]]
  | closure => .seq (optional (kw "static")) (.choice
      (all [kw "function", optional (op "&"), .rule parameters,
        optional (all [kw "use", op "(", commaList (.seq (optional (op "&")) variableName),
          optional (op ","), op ")"]),
        optional (.rule returnType), .rule block])
      (all [kw "fn", optional (op "&"), .rule parameters, optional (.rule returnType), op "=>",
        .rule expression]))
  | matchExpression => all [kw "match", .rule parenthesised, op "\x7b",
      commaListOpen (.rule matchArm), op "\x7d"]
  | matchArm => all [
      .choice (kw "default") (.seq (commaList (.rule expression)) (optional (op ","))),
      op "=>", .rule expression]
  | literal => oneOf [.token .integer, .token .float, kws ["true", "false", "null"], .rule quoted]
  | quoted => oneOf
      [.token .plainText, .token .plainDocument,
       all [.token .openQuote, .many (.rule doublePart), op "\""],
       .seq (.token .openDocument) (.choice (.token .closeDocument)
         (all [.token .lineEnd, .many (.rule documentPart), .token .closeDocument]))]
  | doublePart => partBetween .double
  | backtickPart => partBetween .backtick
  | documentPart => partBetween .document
  | quotedIndex => oneOf [.seq (optional (op "-")) (.token .integer), name, variableName]
  | anyVariable => oneOf
      [.rule simpleVariable, .seq (.rule base) (oneOf [indexing, .rule arguments, arrowMember]),
       all [.choice (.rule base) relativeClass, op "::", .rule simpleVariable],
       .seq cast (.rule anyVariable)]
  | simpleVariable => .seq (op "$")
      (oneOf [name, .rule simpleVariable, all [op "\x7b", .rule expression, op "\x7d"]])
  | constant => all [.choice (.rule base) relativeClass, op "::",
      oneOf [name, relativeClass, all [op "\x7b", .rule expression, op "\x7d"]]]
  | base => oneOf
      [.rule anyVariable, .rule constant, .rule className, .rule array, .rule parenthesised,
       .rule quoted, .seq (kw "new") (.choice (.seq (.rule classReference) (.rule arguments))
         (.rule anonymousClass))]
  | memberName => oneOf
      [name, .rule simpleVariable, all [op "\x7b", .rule expression, op "\x7d"]]
  | arguments => all [op "(", .choice (commaListOpen (.rule argument)) (op "..."), op ")"]
  | argument => all [
      optional (.seq (oneOf [name, relativeClass, kws ["array", "fn", "function", "match",
        "namespace", "null", "throw", "true", "false"]]) (op ":")),
      optional (op "&"),
      oneOf [.rule expression, relativeClass, .seq (op "...") (.rule expression)]]
  | array => .choice
      (all [kw "array", op "(", commaListOpen (.rule arrayItem), op ")"])
      (all [op "[", commaListOpen (.rule arrayItem), op "]"])
  | arrayItem => oneOf
      [.seq (.rule expression) (optional (.seq (op "=>")
        (.choice (.rule byReference) (.rule expression)))),
       .rule byReference, .seq (op "...") (.rule expression)]
  | byReference => .seq (op "&") (.rule anyVariable)
  | pattern => .choice (.rule bracketPattern) (.rule wordPattern)
  | bracketPattern => all [op "[", optional (.rule bracketSlot),
      .many (.seq (op ",") (optional (.rule bracketSlot))), op "]"]
  | bracketSlot => slotOf bracketPattern
  | wordPattern => all [kw "list", op "(", optional (.rule wordSlot),
      .many (.seq (op ",") (optional (.rule wordSlot))), op ")"]
  | wordSlot => slotOf wordPattern
  | instantiation => .seq (kw "new") (.choice
      (.seq (.rule classReference) (optional (.rule arguments))) (.rule anonymousClass))
  | classReference => oneOf
      [.rule className, relativeClass, .rule parenthesised,
       .seq (.choice (.rule simpleVariable)
           (all [.choice (.rule className) relativeClass, op "::", .rule simpleVariable]))
         (.many (oneOf [indexing, arrowMember, .seq (op "::") (.rule simpleVariable)]))]
  | anonymousClass => all [optional (.rule attributes), optional (kw "readonly"), kw "class",
      optional (.rule arguments), optional extendsClause, optional implementsClause,
      .rule classBody]
  | castType => kws ["array", "binary", "bool", "boolean", "double", "float", "int", "integer",
      "object", "real", "string", "unset"]

end Rule
end Letterhead.Php
