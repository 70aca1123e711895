import SwiftDependencies.Program.Rule

/-!
# Members of types

What is declared inside types and protocols only, operators, and the signs that stand between the
parts of declarations.
-/

namespace SwiftDependencies.Program.Rules

open Phrase

/-- The rules of members of types. -/
def members : List Rule := [
  equalsSign.is Mark.equalsSign,
  doubleEqualsSign.is Mark.doubleEqualsSign,
  dot.is Mark.dot,
  arrow.is Mark.arrow,
  conjunctionOperator.is Mark.conjunction,
  disjunctionOperator.is Mark.disjunction,
  coalescingOperator.is Mark.coalescing,
  asWord.is Mark.asWord,
  asQuestionMark.is Mark.asQuestionMark,
  asExclamationMark.is Mark.asExclamationMark,
  numberSign.is Mark.numberSign,
  asyncWord.is Mark.async,
  exclamationMark.is (.oneOf [Mark.exclamationMark, "!"]),
  asyncModifier.is "async",
  throwsWord.is (.oneOf [Mark.throws, Mark.rethrows]),
  throwsClause.is (.seq [Mark.throws, "(", plainType, ")"]),
  enumBody.is (inCurly (.many (.oneOf [enumEntry, memberDeclaration]))),
  enumEntry.is <|
    .seq [
      .maybe modifiers, .maybe "indirect", "case",
      .separated (.seq [name, .maybe enumEntrySuffix]) ",", .maybe ";"],
  enumEntrySuffix.is (.oneOf [associatedValues, .seq [equalsSign, expression]]),
  associatedValues.is <|
    inRound (.maybe (.separated
      (.seq [
        .maybe (.seq [.maybe wildcard, name, ":"]), anyType,
        .maybe (.seq [equalsSign, expression])])
      ",")),
  protocolDeclaration.is <|
    .right 0 (.seq [
      .maybe modifiers, "protocol", name, .maybe typeParameters,
      .maybe (.seq [":", inheritedTypes]), .maybe typeConstraints, protocolBody]),
  protocolBody.is (inCurly (.maybe requirements)),
  requirements.is (.seq [.separated requirement separator, .maybe separator]),
  requirement.is <|
    .oneOf [
      .seq [functionHead, .maybe functionBody], initDeclaration, deinitDeclaration,
      requiredProperty, typeAliasDeclaration, associatedTypeDeclaration, subscriptDeclaration],
  initDeclaration.is <|
    .right 0 (.seq [
      .maybe modifiers, .maybe "class", "init", .maybe (.oneOf [questionMark, exclamationMark]),
      .maybe typeParameters, parameterLists, .maybe asyncWord,
      .maybe (.oneOf [throwsClause, throwsWord]), .maybe typeConstraints, .maybe functionBody]),
  deinitDeclaration.is (.right 0 (.seq [.maybe modifiers, "deinit", functionBody])),
  subscriptDeclaration.is <|
    .right 0 (.seq [
      .maybe modifiers, "subscript", .maybe typeParameters, parameterLists,
      .maybe (.seq [arrow, unwrappedType]), .maybe typeConstraints, computedProperty]),
  computedProperty.is <|
    inCurly (.oneOf [
      .maybe statements, .many (.oneOf [computedGetter, computedSetter, computedModify])]),
  computedGetter.is (.seq [.many attributeClause, getterHead, .maybe block]),
  computedModify.is (.seq [.many attributeClause, modifyHead, .maybe block]),
  computedSetter.is <|
    .seq [.many attributeClause, setterHead, .maybe (inRound name), .maybe block],
  getterHead.is (.seq [.maybe mutationModifier, "get", .maybe getterEffects]),
  setterHead.is (.seq [.maybe mutationModifier, "set"]),
  modifyHead.is (.seq [.maybe mutationModifier, "_modify"]),
  getterEffects.is (.series (.oneOf [asyncWord, throwsClause, throwsWord])),
  operatorDeclaration.is <|
    .seq [
      .oneOf ["prefix", "infix", "postfix"], "operator", operatorName, .maybe (.seq [":", name]),
      .maybe operatorBody],
  operatorBody.is (inCurly (.many (.oneOf [name, basicLiteral]))),
  precedenceGroup.is <|
    .seq ["precedencegroup", name, "\x7b", .maybe precedenceAttributes, "\x7d"],
  precedenceAttributes.is (.series precedenceAttribute),
  precedenceAttribute.is (.seq [name, ":", .oneOf [name, booleanLiteral]]),
  associatedTypeDeclaration.is <|
    .seq [
      .maybe modifiers, "associatedtype", name, .maybe (.seq [":", anyType]),
      .maybe typeConstraints, .maybe (.seq [equalsSign, anyType])],
  attributeClause.is (.seq ["@", namedType, .maybe (inRound (.listed attributeArgument ","))]),
  attributeArgument.is <|
    .oneOf [
      .seq [name, ":", expression], expression, .series (.seq [name, ":"]),
      .seq [.series name, .separated integerLiteral "."]]]

end SwiftDependencies.Program.Rules
