import SwiftDependencies.Program.Rule

/-!
# Literals and names

Names, numbers, strings and the other values that are written out. A string is read as a row of
pieces, so that the expressions in it are read like all others.
-/

namespace SwiftDependencies.Program.Rules

open Phrase

/-- The rules of literals and names. -/
def literals : List Rule := [
  file.is (.seq [.maybe interpreterLine, .maybe (.listed topLevelStatement separator)]),
  separator.is (.oneOf [Mark.lineEnd, Mark.semicolon]),
  interpreterLine.is (.seq [numberSign, "!", Pattern.restOfLine]),
  name.is <|
    .oneOf [
      Pattern.name, Pattern.quotedName, Pattern.numberedName, Pattern.dollarName, contextualName],
  contextualName.is <|
    .oneOf ["actor", "async", "each", "lazy", "repeat", "package", parameterOwnership],
  dottedName.is (.separated name dot),
  basicLiteral.is <|
    .oneOf [
      integerLiteral, hexadecimalLiteral, octalLiteral, binaryLiteral, realLiteral,
      booleanLiteral, stringLiteral, regexLiteral, "nil"],
  realLiteral.is Pattern.real,
  integerLiteral.is Pattern.decimal,
  hexadecimalLiteral.is Pattern.hexadecimal,
  octalLiteral.is Pattern.octal,
  binaryLiteral.is Pattern.binary,
  booleanLiteral.is (.oneOf ["true", "false"]),
  stringLiteral.is (.oneOf [lineString, blockString, rawString]),
  lineString.is (.seq ["\"", .many (.oneOf [linePiece, interpolation]), "\""]),
  linePiece.is (.oneOf [Pattern.lineText, escape]),
  escape.is (.oneOf [Pattern.escape, numberedEscape]),
  numberedEscape.is (.seq ["\\", "u", Pattern.characterNumber]),
  blockString.is (.seq ["\"\"\"", .many (.oneOf [blockPiece, interpolation]), "\"\"\""]),
  rawString.is <|
    .seq [
      .many (.seq [Mark.rawPart, rawInterpolation, .maybe Mark.rawContinuation]), Mark.rawEnd],
  rawInterpolation.is (.seq [Pattern.rawInterpolation, interpolatedValues, ")"]),
  blockPiece.is (.oneOf [Pattern.blockText, escape, "\""]),
  interpolation.is (.seq ["\\(", interpolatedValues, ")"]),
  interpolatedValues.is (.listed argument ","),
  regexLiteral.is (.oneOf [extendedRegex, multilineRegex, Pattern.regex]),
  extendedRegex.is (.seq [numberSign, Pattern.extendedRegex]),
  multilineRegex.is (.seq [numberSign, Pattern.multilineRegexStart, Pattern.multilineRegexRest])]

end SwiftDependencies.Program.Rules
