import SwiftDependencies.Program.Rule

/-!
# Expressions

Expressions but for their operators and statements. What may be taken for the left part of a longer
expression is ranked, and so is an operator with its operands.
-/

namespace SwiftDependencies.Program.Rules

open Phrase

/-- The rules of expressions. -/
def expressions : List Rule := [
  expression.is <|
    .level Rank.expression (.oneOf [
      name, unaryExpression, binaryExpression, conditionalExpression, primaryExpression,
      ifStatement, switchStatement, assignment, valuePack, valuePackExpansion,
      .seq [expression, attachedQuestionMark]]),
  unaryExpression.is <|
    .oneOf [
      postfixExpression, functionCall, macroCall, constructorCall, memberAccess, prefixExpression,
      castExpression, selectorExpression, rangeUpTo, rangeFrom, directive, diagnostic],
  postfixExpression.is (.left Rank.postfixOperation (.seq [expression, postfixOperator])),
  constructorCall.is <|
    .level Rank.call (.seq [.oneOf [arrayType, dictionaryType, namedType], constructorSuffix]),
  parenthesizedType.is (inRound (.oneOf [opaqueType, existentialType, dictionaryType])),
  memberAccess.is <|
    .left Rank.member (.seq [
      .oneOf [typeWithMembers, expression, parenthesizedType], memberSuffix]),
  typeWithMembers.is (.oneOf [namedType, arrayType, dictionaryType]),
  rangeUpTo.is (.right Rank.range (.seq [rangeOperator, .right Rank.rangeEnd expression])),
  rangeOperator.is (.oneOf [halfOpenOperator, threeDots]),
  rangeFrom.is (.right Rank.range (.seq [expression, .right Rank.rangeEnd threeDots])),
  prefixExpression.is <|
    .left Rank.prefixOperation (.seq [
      prefixOperator, .oneOf [expression, .oneOf ["async", "if", "switch"]]]),
  castExpression.is (.left Rank.cast (.seq [expression, castOperator, anyType])),
  selectorExpression.is <|
    .seq [numberSign, "selector", "(", .maybe (.oneOf ["getter:", "setter:"]), expression, ")"],
  binaryExpression.is <|
    .oneOf [
      multiplicativeExpression, additiveExpression, rangeExpression, infixExpression,
      coalescingExpression, typeCheck, equalityExpression, comparisonExpression,
      conjunctionExpression, disjunctionExpression, bitwiseExpression],
  multiplicativeExpression.is <|
    .left Rank.multiplication (.seq [expression, multiplicativeOperator, rightOperand]),
  additiveExpression.is (.left Rank.addition (.seq [expression, additiveOperator, rightOperand])),
  rangeExpression.is (.right Rank.range (.seq [expression, rangeOperator, rightOperand])),
  infixExpression.is <|
    .left Rank.infixOperation (.seq [expression, customOperator, rightOperand]),
  coalescingExpression.is <|
    .right Rank.coalescing (.seq [expression, coalescingOperator, rightOperand]),
  typeCheck.is (.left Rank.check (.seq [expression, isOperator, anyType])),
  comparisonExpression.is <|
    .left Rank.comparison (.seq [expression, comparisonOperator, rightOperand]),
  equalityExpression.is (.left Rank.equality (.seq [expression, equalityOperator, rightOperand])),
  conjunctionExpression.is <|
    .left Rank.conjunction (.seq [expression, conjunctionOperator, rightOperand]),
  disjunctionExpression.is <|
    .left Rank.disjunction (.seq [expression, disjunctionOperator, rightOperand]),
  bitwiseExpression.is (.left 0 (.seq [expression, bitwiseOperator, rightOperand])),
  customOperator.is (.oneOf [Pattern.starredSlash, Mark.customOperator]),
  memberSuffix.is (.seq [dot, .oneOf [name, integerLiteral]]),
  callSuffix.is <|
    .level Rank.callSuffix (.oneOf [
      valueArguments, .weighted (-1) trailingClosures, .seq [valueArguments, trailingClosures]]),
  constructorSuffix.is <|
    .level Rank.callSuffix (.oneOf [
      roundArguments, .weighted (-1) trailingClosures, .seq [roundArguments, trailingClosures]]),
  roundArguments.is (inRound (.maybe (.listed argument ","))),
  trailingClosures.is (.separated closure (.seq [name, ":"])),
  typeArguments.is (.left 0 (.seq ["<", .listed anyType ",", ">"])),
  valueArguments.is <|
    .oneOf [inRound (.maybe (.listed argument ",")), inSquare (.maybe (.listed argument ","))],
  argumentLabel.is (.left 0 (.oneOf [name, "if", "switch"])),
  argument.is <|
    .left 0 (.seq [
      .maybe typeAttributes,
      .oneOf [
        .series (.seq [argumentLabel, ":"]),
        .seq [.maybe (.seq [argumentLabel, ":"]), expression]]]),
  tryExpression.is <|
    .right Rank.attempt (.seq [
      tryOperator,
      .oneOf [
        .right (-2) expression, .left 0 binaryExpression, .left 0 functionCall,
        .weighted 1 (.left (-1) conditionalExpression)]]),
  awaitExpression.is <|
    .right Rank.wait (.seq [
      awaitOperator,
      .oneOf [
        .right (-2) expression, .left 0 binaryExpression, .left 0 functionCall,
        .weighted 1 (.left (-1) conditionalExpression)]]),
  awaitOperator.is "await",
  conditionalExpression.is <|
    .right Rank.conditional (.seq [expression, questionMark, expression, ":", rightOperand]),
  rightOperand.is (.left Rank.operand (.oneOf [expression, operandCall])),
  operandCall.is (.seq [expression, operandCallSuffix]),
  operandCallSuffix.is (.level Rank.callSuffix valueArguments),
  functionCall.is (.level Rank.call (.weighted 1 (.seq [expression, callSuffix]))),
  macroCall.is <|
    .level Rank.call (.weighted 1 (.seq [numberSign, name, .maybe typeParameters, callSuffix])),
  primaryExpression.is <|
    .oneOf [
      tupleExpression, basicLiteral, closure, specialLiteral, playgroundLiteral, arrayLiteral,
      dictionaryLiteral, selfExpression, superExpression, tryExpression, awaitExpression,
      operatorName, keyPath, keyPathString, .right Rank.openRange threeDots],
  tupleExpression.is <|
    .right Rank.tuple (inRound (.maybe (.listed (.seq [.maybe (.seq [name, ":"]), expression])
      ","))),
  arrayLiteral.is (inSquare (.maybe (.listed expression ","))),
  dictionaryLiteral.is (.seq ["[", .oneOf [":", .listed dictionaryEntry ","], .maybe ",", "]"]),
  dictionaryEntry.is (.seq [expression, ":", expression]),
  specialLiteral.is <|
    .seq [
      numberSign,
      .oneOf ["file", "fileID", "filePath", "line", "column", "function", "dsohandle"]],
  playgroundLiteral.is <|
    .seq [
      numberSign, .oneOf ["colorLiteral", "fileLiteral", "imageLiteral"], "(",
      .listed (.seq [name, ":", expression]) ",", ")"],
  closure.is <|
    .left Rank.closure (.seq [
      .oneOf ["\x7b", "^\x7b"], .maybe closureHead, .maybe statements, "\x7d"]),
  closureHead.is <|
    .seq [
      .many attributeClause, .level Rank.expression (.maybe captureList), .maybe closureType,
      "in"],
  captureList.is (inSquare (.listed capture ",")),
  capture.is <|
    .oneOf [
      selfExpression,
      .level Rank.expression (.seq [
        .maybe ownershipModifier, name, .maybe (.seq [equalsSign, expression])])],
  closureType.is <|
    .level Rank.expression (.seq [
      .oneOf [closureParameters, inRound (.maybe closureParameters)], .maybe asyncWord,
      .maybe (.oneOf [throwsClause, throwsWord]), .maybe (.seq [arrow, unwrappedType])]),
  closureParameters.is (.listed closureParameter ","),
  closureParameter.is <|
    .oneOf [
      selfExpression, .level Rank.expression name,
      .level Rank.expression (.seq [
        .maybe name, name, ":", .maybe parameterModifiers, unwrappedType])],
  selfExpression.is "self",
  superExpression.is "super"]

end SwiftDependencies.Program.Rules
