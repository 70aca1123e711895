/-!
# Phrases of a program

The phrases that a program consists of. Some of them only gather what may stand at one place, or
share a form between others. They are transparent: their parts count as parts of the phrase around
them.
-/

namespace SwiftDependencies.Program

/-- The kinds of phrases. -/
inductive Phrase where
  | file
  | separator
  | interpreterLine
  | name
  | contextualName
  | dottedName
  | basicLiteral
  | realLiteral
  | integerLiteral
  | hexadecimalLiteral
  | octalLiteral
  | binaryLiteral
  | booleanLiteral
  | stringLiteral
  | lineString
  | linePiece
  | escape
  | numberedEscape
  | blockString
  | rawString
  | rawInterpolation
  | blockPiece
  | interpolation
  | interpolatedValues
  | regexLiteral
  | extendedRegex
  | multilineRegex
  | typeClause
  | unwrappedType
  | anyType
  | plainType
  | namedType
  | namedTypePart
  | tupleType
  | tupleTypeItem
  | tupleTypeLabel
  | functionType
  | arrayType
  | dictionaryType
  | optionalType
  | metatype
  | questionMark
  | attachedQuestionMark
  | opaqueType
  | existentialType
  | typeParameterPack
  | typePackExpansion
  | compositionType
  | suppressedConstraint
  | expression
  | unaryExpression
  | postfixExpression
  | constructorCall
  | parenthesizedType
  | memberAccess
  | typeWithMembers
  | rangeUpTo
  | rangeOperator
  | rangeFrom
  | prefixExpression
  | castExpression
  | selectorExpression
  | binaryExpression
  | multiplicativeExpression
  | additiveExpression
  | rangeExpression
  | infixExpression
  | coalescingExpression
  | typeCheck
  | comparisonExpression
  | equalityExpression
  | conjunctionExpression
  | disjunctionExpression
  | bitwiseExpression
  | customOperator
  | memberSuffix
  | callSuffix
  | constructorSuffix
  | roundArguments
  | trailingClosures
  | typeArguments
  | valueArguments
  | argumentLabel
  | argument
  | tryExpression
  | awaitExpression
  | awaitOperator
  | conditionalExpression
  | rightOperand
  | operandCall
  | operandCallSuffix
  | functionCall
  | macroCall
  | primaryExpression
  | tupleExpression
  | arrayLiteral
  | dictionaryLiteral
  | dictionaryEntry
  | specialLiteral
  | playgroundLiteral
  | closure
  | closureHead
  | captureList
  | capture
  | closureType
  | closureParameters
  | closureParameter
  | selfExpression
  | superExpression
  | elseBranch
  | ifStatement
  | condition
  | bindingCondition
  | guardStatement
  | switchStatement
  | switchEntry
  | switchPattern
  | doStatement
  | catchBlock
  | whereClause
  | keyPath
  | keyPathString
  | keyPathComponent
  | keyPathSuffix
  | tryOperator
  | trySuffix
  | assignmentOperator
  | equalityOperator
  | comparisonOperator
  | threeDots
  | halfOpenOperator
  | isOperator
  | additiveOperator
  | multiplicativeOperator
  | castOperator
  | prefixOperator
  | bitwiseOperator
  | postfixOperator
  | assignable
  | statements
  | localStatement
  | topLevelStatement
  | block
  | labeledStatement
  | statementLabel
  | forStatement
  | forCollection
  | awaitedCollection
  | whileStatement
  | repeatStatement
  | controlTransfer
  | throwStatement
  | throwWord
  | controlWord
  | assignment
  | valuePack
  | valuePackExpansion
  | availabilityCondition
  | availabilityArgument
  | globalDeclaration
  | memberDeclaration
  | localDeclaration
  | localProperty
  | localTypeAlias
  | localFunction
  | localType
  | importDeclaration
  | importKind
  | requiredProperty
  | propertyRequirements
  | propertyDeclaration
  | plainProperty
  | propertyBinding
  | observedValue
  | initialValue
  | observers
  | willSetClause
  | didSetClause
  | typeAliasDeclaration
  | plainTypeAlias
  | functionDeclaration
  | plainFunction
  | functionHead
  | plainFunctionHead
  | functionBody
  | macroDeclaration
  | macroHead
  | macroSignature
  | macroDefinition
  | externalDefinition
  | typeDeclaration
  | plainTypeDeclaration
  | typeBody
  | inheritedTypes
  | inheritedType
  | inheritanceEntry
  | typeParameters
  | typeParameter
  | typeParameterName
  | typeConstraints
  | typeConstraint
  | inheritanceConstraint
  | equalityConstraint
  | constrainedType
  | memberSeparator
  | memberDeclarations
  | parameterLists
  | parameterEntry
  | parameter
  | functionTitle
  | operatorName
  | equalsSign
  | doubleEqualsSign
  | dot
  | arrow
  | conjunctionOperator
  | disjunctionOperator
  | coalescingOperator
  | asWord
  | asQuestionMark
  | asExclamationMark
  | numberSign
  | asyncWord
  | exclamationMark
  | asyncModifier
  | throwsWord
  | throwsClause
  | enumBody
  | enumEntry
  | enumEntrySuffix
  | associatedValues
  | protocolDeclaration
  | protocolBody
  | requirements
  | requirement
  | initDeclaration
  | deinitDeclaration
  | subscriptDeclaration
  | computedProperty
  | computedGetter
  | computedModify
  | computedSetter
  | getterHead
  | setterHead
  | modifyHead
  | getterEffects
  | operatorDeclaration
  | operatorBody
  | precedenceGroup
  | precedenceAttributes
  | precedenceAttribute
  | associatedTypeDeclaration
  | attributeClause
  | attributeArgument
  | commonPattern
  | boundName
  | plainPattern
  | boundPattern
  | valuePattern
  | conditionBinding
  | bindingWord
  | bindingKind
  | bindingAndPattern
  | wildcard
  | tuplePatternItem
  | tuplePattern
  | casePattern
  | castPattern
  | bindingPattern
  | modifiers
  | parameterModifiers
  | memberScopeModifier
  | localModifier
  | behaviorModifier
  | typeAttributes
  | memberModifier
  | visibilityModifier
  | typeParameterAttributes
  | functionModifier
  | mutationModifier
  | propertyModifier
  | inheritanceModifier
  | parameterModifier
  | ownershipModifier
  | parameterOwnership
  | directive
  | compilationCondition
  | diagnostic
  | comment
  deriving DecidableEq, Repr, Hashable, Inhabited

/-- Whether the parts of a phrase count as parts of the phrase around it. -/
def Phrase.isTransparent : Phrase → Bool
  | .separator | .contextualName | .basicLiteral | .stringLiteral | .linePiece | .numberedEscape |
    .blockPiece | .interpolation | .interpolatedValues | .extendedRegex | .multilineRegex |
    .unwrappedType | .anyType | .plainType | .namedTypePart | .tupleTypeLabel | .questionMark |
    .attachedQuestionMark | .expression | .unaryExpression | .parenthesizedType |
    .typeWithMembers | .rangeOperator | .binaryExpression | .trailingClosures | .awaitOperator |
    .rightOperand | .primaryExpression | .dictionaryEntry | .closureHead | .elseBranch |
    .condition | .bindingCondition | .keyPathComponent | .keyPathSuffix | .trySuffix |
    .assignmentOperator | .equalityOperator | .comparisonOperator | .threeDots |
    .halfOpenOperator | .isOperator | .additiveOperator | .multiplicativeOperator |
    .prefixOperator | .bitwiseOperator | .postfixOperator | .localStatement |
    .topLevelStatement | .block | .labeledStatement | .forCollection | .throwStatement |
    .controlWord | .availabilityArgument | .globalDeclaration | .memberDeclaration |
    .localDeclaration | .localProperty | .localTypeAlias | .localFunction | .localType |
    .importKind | .plainProperty | .propertyBinding | .observedValue | .initialValue |
    .plainTypeAlias | .plainFunction | .functionHead | .plainFunctionHead | .macroHead |
    .macroSignature | .plainTypeDeclaration | .inheritedTypes | .inheritanceEntry |
    .typeParameterName | .constrainedType | .memberSeparator | .memberDeclarations |
    .parameterLists | .parameterEntry | .functionTitle | .operatorName | .equalsSign |
    .doubleEqualsSign | .dot | .arrow | .conjunctionOperator | .disjunctionOperator |
    .coalescingOperator | .asWord | .asQuestionMark | .asExclamationMark | .numberSign |
    .asyncWord | .asyncModifier | .enumEntrySuffix | .requirements | .getterEffects |
    .attributeArgument | .commonPattern | .boundName | .plainPattern | .valuePattern |
    .conditionBinding | .bindingKind | .bindingAndPattern | .tuplePatternItem | .tuplePattern |
    .casePattern | .castPattern | .bindingPattern | .memberScopeModifier | .localModifier |
    .parameterOwnership | .compilationCondition => true
  | _ => false

end SwiftDependencies.Program
