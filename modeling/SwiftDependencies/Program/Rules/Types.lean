import SwiftDependencies.Program.Rule

/-!
# Types

Types and their annotations. A type that stands before a dot or before arguments is read here too.
-/

namespace SwiftDependencies.Program.Rules

open Phrase

/-- The rules of types. -/
def types : List Rule := [
  typeClause.is (.seq [":", unwrappedType]),
  unwrappedType.is (.seq [anyType, .maybe (attached "!")]),
  anyType.is (.right Rank.type (.seq [.maybe typeAttributes, plainType])),
  plainType.is <|
    .right Rank.type (.oneOf [
      namedType, tupleType, functionType, arrayType, dictionaryType, optionalType, metatype,
      opaqueType, existentialType, compositionType, typeParameterPack, typePackExpansion,
      suppressedConstraint]),
  namedType.is (.separated namedTypePart dot),
  namedTypePart.is (.right Rank.type (.seq [name, .maybe typeArguments])),
  tupleType.is (.oneOf [inRound (.maybe (.listed tupleTypeItem ",")), parenthesizedType]),
  tupleTypeItem.is <|
    .level Rank.expression (.seq [.maybe tupleTypeLabel, .maybe parameterModifiers, anyType]),
  tupleTypeLabel.is (.level Rank.expression (.seq [.maybe wildcard, name, ":"])),
  functionType.is <|
    .seq [
      .oneOf [tupleType, plainType], .maybe asyncWord, .maybe (.oneOf [throwsClause, throwsWord]),
      arrow, anyType],
  arrayType.is (inSquare anyType),
  dictionaryType.is (.seq ["[", anyType, ":", anyType, "]"]),
  optionalType.is <|
    .left 0 (.seq [
      .oneOf [namedType, tupleType, arrayType, dictionaryType], .series attachedQuestionMark]),
  metatype.is (.seq [plainType, ".", .oneOf ["Type", "Protocol"]]),
  questionMark.is "?",
  attachedQuestionMark.is (attached "?"),
  opaqueType.is (.right 0 (.seq ["some", plainType])),
  existentialType.is (.right 0 (.seq ["any", plainType])),
  typeParameterPack.is (.left 0 (.seq ["each", plainType])),
  typePackExpansion.is (.left 0 (.seq ["repeat", plainType])),
  compositionType.is (.left 0 (.seq [plainType, .series (.seq ["&", .right 0 plainType])])),
  suppressedConstraint.is (.right 0 (.seq ["~", name]))]

end SwiftDependencies.Program.Rules
