import SwiftDependencies.Program.Rule

/-!
# Statements

Control flow, the sequences of statements, and the operators of expressions.
-/

namespace SwiftDependencies.Program.Rules

open Phrase

/-- The rules of statements. -/
def statementRules : List Rule := [
  elseBranch.is (.oneOf [block, ifStatement]),
  ifStatement.is <|
    .right Rank.condition (.seq [
      "if", .separated condition ",", block, .maybe (.seq [Mark.elseWord, elseBranch])]),
  condition.is (.oneOf [bindingCondition, expression, availabilityCondition]),
  bindingCondition.is <|
    .seq [conditionBinding, .maybe (.seq [equalsSign, expression]), .maybe whereClause],
  guardStatement.is <|
    .right Rank.condition (.seq ["guard", .separated condition ",", Mark.elseWord, block]),
  switchStatement.is <|
    .right Rank.switch (.seq ["switch", expression, "\x7b", .many switchEntry, "\x7d"]),
  switchEntry.is <|
    .seq [
      .maybe modifiers,
      .oneOf [
        .seq [
          "case", .seq [switchPattern, .maybe (.seq [Mark.whereWord, expression])],
          .many (.seq [",", switchPattern])], Mark.defaultWord], ":", statements,
      .maybe "fallthrough"],
  switchPattern.is valuePattern,
  doStatement.is (.right Rank.body (.seq ["do", block, .many catchBlock])),
  catchBlock.is (.seq [Mark.catchWord, .maybe plainPattern, .maybe whereClause, block]),
  whereClause.is (.left 0 (.seq [Mark.whereWord, expression])),
  keyPath.is <|
    .right Rank.keyPath (.seq [
      "\\", .maybe (.oneOf [namedTypePart, arrayType, dictionaryType]),
      .many (.seq [".", keyPathComponent])]),
  keyPathString.is (.left Rank.keyPath (.seq [numberSign, "keyPath", "(", expression, ")"])),
  keyPathComponent.is <|
    .left Rank.keyPath (.oneOf [.seq [name, .many keyPathSuffix], .series keyPathSuffix]),
  keyPathSuffix.is <|
    .oneOf ["?", exclamationMark, "self", inSquare (.maybe (.separated argument ","))],
  tryOperator.is (.right 0 (.seq ["try", .oneOf [.maybe trySuffix, Mark.tryMark]])),
  trySuffix.is (.oneOf [attached "!", attached "?"]),
  assignmentOperator.is (.oneOf ["+=", "-=", "*=", "/=", "%=", equalsSign]),
  equalityOperator.is (.oneOf ["!=", "!==", doubleEqualsSign, "==="]),
  comparisonOperator.is (.oneOf ["<", ">", "<=", ">="]),
  threeDots.is "...",
  halfOpenOperator.is "..<",
  isOperator.is "is",
  additiveOperator.is (.oneOf [Mark.plusBeforeBlank, Mark.minusBeforeBlank, "+", "-"]),
  multiplicativeOperator.is (.oneOf ["*", Pattern.slash, "%"]),
  castOperator.is (.oneOf [asWord, asQuestionMark, asExclamationMark]),
  prefixOperator.is <|
    .right 0 (.oneOf ["++", "--", "-", "+", exclamationMark, "&", "~", dot, customOperator]),
  bitwiseOperator.is (.oneOf ["&", "|", "^", "<<", ">>"]),
  postfixOperator.is (.oneOf ["++", "--", exclamationMark]),
  assignable.is (.level Rank.assignment expression),
  statements.is (.left 0 (.listed localStatement separator)),
  localStatement.is <|
    .oneOf [expression, localDeclaration, labeledStatement, controlTransfer, throwStatement],
  topLevelStatement.is (.oneOf [expression, globalDeclaration, labeledStatement, throwStatement]),
  block.is (.level Rank.block (inCurly (.maybe statements))),
  labeledStatement.is <|
    .seq [
      .maybe statementLabel,
      .oneOf [
        forStatement, whileStatement, repeatStatement, doStatement, ifStatement, guardStatement,
        switchStatement]],
  statementLabel.is Pattern.statementLabel,
  forStatement.is <|
    .level Rank.loop (.seq [
      "for", .maybe tryOperator, .maybe awaitOperator, plainPattern, .maybe typeClause, "in",
      forCollection, .maybe whereClause, block]),
  forCollection.is (.oneOf [expression, awaitedCollection]),
  awaitedCollection.is (.seq [awaitOperator, expression]),
  whileStatement.is <|
    .level Rank.loop (.seq [
      "while", .separated condition ",", "\x7b", .maybe statements, "\x7d"]),
  repeatStatement.is <|
    .level Rank.loop (.seq [
      "repeat", "\x7b", .maybe statements, "\x7d", .many Mark.lineEnd, "while",
      .separated condition ","]),
  controlTransfer.is (.right Rank.transfer (.seq [controlWord, .maybe expression])),
  throwStatement.is (.seq [throwWord, expression]),
  throwWord.is "throw",
  controlWord.is (.oneOf ["return", "continue", "break", "yield"]),
  assignment.is (.left Rank.assignment (.seq [assignable, assignmentOperator, expression])),
  valuePack.is (.left Rank.pack (.seq ["each", expression])),
  valuePackExpansion.is (.left Rank.pack (.seq ["repeat", expression])),
  availabilityCondition.is <|
    .seq [
      numberSign, .oneOf ["available", "unavailable"], "(", .listed availabilityArgument ",",
      ")"],
  availabilityArgument.is (.oneOf [.seq [dottedName, .separated integerLiteral "."], "*"])]

end SwiftDependencies.Program.Rules
