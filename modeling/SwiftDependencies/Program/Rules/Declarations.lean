import SwiftDependencies.Program.Rule

/-!
# Declarations

Constants, functions, types and what they consist of.
-/

namespace SwiftDependencies.Program.Rules

open Phrase

/-- The rules of declarations. -/
def declarations : List Rule := [
  globalDeclaration.is <|
    .oneOf [
      importDeclaration, propertyDeclaration, typeAliasDeclaration, functionDeclaration,
      initDeclaration, typeDeclaration, protocolDeclaration, operatorDeclaration, precedenceGroup,
      associatedTypeDeclaration, macroDeclaration],
  memberDeclaration.is <|
    .oneOf [
      importDeclaration, propertyDeclaration, typeAliasDeclaration, functionDeclaration,
      initDeclaration, typeDeclaration, protocolDeclaration, deinitDeclaration,
      subscriptDeclaration, operatorDeclaration, precedenceGroup, associatedTypeDeclaration],
  localDeclaration.is (.oneOf [localProperty, localTypeAlias, localFunction, localType]),
  localProperty.is (.seq [.many (.oneOf [attributeClause, localModifier]), plainProperty]),
  localTypeAlias.is (.seq [.many (.oneOf [attributeClause, localModifier]), plainTypeAlias]),
  localFunction.is (.seq [.many (.oneOf [attributeClause, localModifier]), plainFunction]),
  localType.is (.seq [.many (.oneOf [attributeClause, localModifier]), plainTypeDeclaration]),
  importDeclaration.is (.seq [.maybe modifiers, "import", .maybe importKind, dottedName]),
  importKind.is <|
    .oneOf ["typealias", "struct", "class", "enum", "protocol", "let", "var", "func"],
  requiredProperty.is <|
    .right 0 (.seq [
      .maybe modifiers, bindingAndPattern, .maybe typeClause, .maybe typeConstraints,
      propertyRequirements]),
  propertyRequirements.is (inCurly (.many (.oneOf [getterHead, setterHead]))),
  propertyDeclaration.is (.seq [.maybe modifiers, plainProperty]),
  plainProperty.is (.right 0 (.seq [bindingKind, .separated propertyBinding ","])),
  propertyBinding.is <|
    .left 0 (.seq [
      boundPattern, .maybe typeClause, .maybe typeConstraints,
      .maybe (.oneOf [observedValue, initialValue, observers, computedProperty])]),
  observedValue.is (.weighted 1 (.seq [equalsSign, expression, observers])),
  initialValue.is (.seq [equalsSign, expression]),
  observers.is <|
    .oneOf [
      .seq ["\x7b", willSetClause, .maybe didSetClause, "\x7d"],
      .seq ["\x7b", didSetClause, .maybe willSetClause, "\x7d"]],
  willSetClause.is (.seq [.maybe modifiers, "willSet", .maybe (inRound name), block]),
  didSetClause.is (.seq [.maybe modifiers, "didSet", .maybe (inRound name), block]),
  typeAliasDeclaration.is (.seq [.maybe modifiers, plainTypeAlias]),
  plainTypeAlias.is (.seq ["typealias", name, .maybe typeParameters, equalsSign, anyType]),
  functionDeclaration.is (.right 0 (.seq [functionHead, functionBody])),
  plainFunction.is (.right 0 (.seq [plainFunctionHead, functionBody])),
  functionHead.is (.seq [.maybe modifiers, .maybe "class", plainFunctionHead]),
  plainFunctionHead.is <|
    .right 0 (.seq [
      functionTitle, .maybe typeParameters, parameterLists, .maybe asyncWord,
      .maybe (.oneOf [throwsClause, throwsWord]), .maybe (.seq [arrow, unwrappedType]),
      .maybe typeConstraints]),
  functionBody.is block,
  macroDeclaration.is <|
    .seq [
      macroHead, name, .maybe typeParameters, macroSignature, .maybe macroDefinition,
      .maybe typeConstraints],
  macroHead.is (.seq [.maybe modifiers, "macro"]),
  macroSignature.is (.seq [parameterLists, .maybe (.seq [arrow, plainType])]),
  macroDefinition.is (.seq [equalsSign, .oneOf [expression, externalDefinition]]),
  externalDefinition.is (.seq [numberSign, "externalMacro", valueArguments]),
  typeDeclaration.is (.seq [.maybe modifiers, plainTypeDeclaration]),
  plainTypeDeclaration.is <|
    .right 0 (.oneOf [
      .seq [
        .oneOf ["class", "struct", "actor"], name, .maybe typeParameters,
        .maybe (.seq [":", inheritedTypes]), .maybe typeConstraints, typeBody],
      .seq [
        "extension", plainType, .maybe typeParameters, .maybe (.seq [":", inheritedTypes]),
        .maybe typeConstraints, typeBody],
      .seq [
        .maybe "indirect", "enum", name, .maybe typeParameters,
        .maybe (.seq [":", inheritedTypes]), .maybe typeConstraints, enumBody]]),
  typeBody.is (inCurly (.maybe memberDeclarations)),
  inheritedTypes.is (.left 0 (.separated inheritanceEntry (.oneOf [",", "&"]))),
  inheritedType.is (.left 0 (.oneOf [namedType, functionType, suppressedConstraint])),
  inheritanceEntry.is (.seq [.many attributeClause, inheritedType]),
  typeParameters.is (.seq ["<", .listed typeParameter ",", .maybe typeConstraints, ">"]),
  typeParameter.is <|
    .seq [.maybe typeParameterAttributes, typeParameterName, .maybe (.seq [":", anyType])],
  typeParameterName.is (.oneOf [name, typeParameterPack]),
  typeConstraints.is (.right 0 (.seq [Mark.whereWord, .right 0 (.listed typeConstraint ",")])),
  typeConstraint.is (.oneOf [inheritanceConstraint, equalityConstraint]),
  inheritanceConstraint.is (.seq [.many attributeClause, constrainedType, ":", unwrappedType]),
  equalityConstraint.is <|
    .seq [.many attributeClause, constrainedType, .oneOf [equalsSign, doubleEqualsSign], anyType],
  constrainedType.is <|
    .oneOf [dottedName, .seq [plainType, .maybe (.seq [".", .separated name "."])]],
  memberSeparator.is (.oneOf [separator, Mark.blockComment]),
  memberDeclarations.is <|
    .seq [.separated memberDeclaration memberSeparator, .maybe memberSeparator],
  parameterLists.is (.series (inRound (.maybe (.listed parameterEntry ",")))),
  parameterEntry.is <|
    .seq [.maybe attributeClause, parameter, .maybe (.seq [equalsSign, expression])],
  parameter.is <|
    .seq [.maybe name, name, ":", .maybe parameterModifiers, unwrappedType, .maybe threeDots],
  functionTitle.is (.seq ["func", .oneOf [name, operatorName]]),
  operatorName.is <|
    .oneOf [
      customOperator, comparisonOperator, additiveOperator, multiplicativeOperator,
      equalityOperator, comparisonOperator, assignmentOperator, "++", "--", exclamationMark, "~",
      "|", "^", "<<", ">>", "&"]]

end SwiftDependencies.Program.Rules
