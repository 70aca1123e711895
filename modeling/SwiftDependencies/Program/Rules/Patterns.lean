import SwiftDependencies.Program.Rule

/-!
# Patterns and modifiers

The patterns that values are matched with, the modifiers of declarations, and the conditions of
conditional compilation.
-/

namespace SwiftDependencies.Program.Rules

open Phrase

/-- The rules of patterns and modifiers. -/
def patterns : List Rule := [
  commonPattern.is (.oneOf [wildcard, tuplePattern, castPattern, casePattern]),
  boundName.is name,
  plainPattern.is (.seq [.oneOf [commonPattern, bindingPattern, boundName], .maybe questionMark]),
  boundPattern.is (.seq [.oneOf [commonPattern, boundName], .maybe questionMark]),
  valuePattern.is <|
    .seq [.oneOf [commonPattern, bindingPattern, expression], .maybe questionMark],
  conditionBinding.is <|
    .seq [.oneOf [bindingAndPattern, .seq ["case", plainPattern]], .maybe typeClause],
  bindingWord.is (.oneOf ["var", "let"]),
  bindingKind.is (.seq [.maybe asyncModifier, bindingWord]),
  bindingAndPattern.is (.seq [bindingKind, boundPattern]),
  wildcard.is "_",
  tuplePatternItem.is (.oneOf [.seq [name, .seq [":", valuePattern]], valuePattern]),
  tuplePattern.is (inRound (.listed tuplePatternItem ",")),
  casePattern.is (.seq [.maybe "case", .maybe namedType, dot, name, .maybe tuplePattern]),
  castPattern.is (.oneOf [.seq ["is", anyType], .seq [plainPattern, asWord, anyType]]),
  bindingPattern.is (.seq [.seq [.maybe "case", bindingWord], boundPattern]),
  modifiers.is <|
    .series (.left 0 (.oneOf [
      memberScopeModifier, .series (.oneOf [attributeClause, localModifier])])),
  parameterModifiers.is (.series parameterModifier),
  memberScopeModifier.is <|
    .oneOf [
      memberModifier, visibilityModifier, functionModifier, mutationModifier, propertyModifier,
      parameterModifier],
  localModifier.is (.oneOf [ownershipModifier, inheritanceModifier, behaviorModifier]),
  behaviorModifier.is "lazy",
  typeAttributes.is (.series attributeClause),
  memberModifier.is <|
    .oneOf ["override", "convenience", "required", "nonisolated", "nonisolated(unsafe)"],
  visibilityModifier.is <|
    .seq [
      .oneOf ["public", "private", "internal", "fileprivate", "open", "package"],
      .maybe (inRound "set")],
  typeParameterAttributes.is (.series attributeClause),
  functionModifier.is (.oneOf ["infix", "postfix", "prefix"]),
  mutationModifier.is (.oneOf ["mutating", "nonmutating"]),
  propertyModifier.is (.oneOf ["static", "dynamic", "optional", "class", "distributed"]),
  inheritanceModifier.is "final",
  parameterModifier.is (.oneOf ["inout", "@escaping", "@autoclosure", parameterOwnership]),
  ownershipModifier.is (.oneOf ["weak", "unowned", "unowned(safe)", "unowned(unsafe)"]),
  parameterOwnership.is (.oneOf ["borrowing", "consuming"]),
  directive.is <|
    .right Rank.directive (.oneOf [
      .seq [Mark.ifLine, compilationCondition], .seq [Mark.elseIfLine, compilationCondition],
      Mark.elseLine, Mark.endIfLine]),
  compilationCondition.is <|
    .right 0 (.oneOf [
      .seq ["os", "(", name, ")"], .seq ["arch", "(", name, ")"],
      .seq ["swift", "(", comparisonOperator, .separated integerLiteral ".", ")"],
      .seq ["compiler", "(", comparisonOperator, .separated integerLiteral ".", ")"],
      .seq ["canImport", "(", .separated name ".", ")"],
      .seq ["targetEnvironment", "(", name, ")"], booleanLiteral, name,
      inRound compilationCondition, .seq ["!", compilationCondition],
      .seq [compilationCondition, conjunctionOperator, compilationCondition],
      .seq [compilationCondition, disjunctionOperator, compilationCondition]]),
  diagnostic.is <|
    .level Rank.directive (.seq [
      numberSign,
      .oneOf [Pattern.errorDirective, Pattern.warningDirective, Pattern.sourceLocation]])]

end SwiftDependencies.Program.Rules
