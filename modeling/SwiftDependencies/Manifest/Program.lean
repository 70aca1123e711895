import SwiftDependencies.Manifest.Interpretation
import SwiftDependencies.Program.Node

/-!
# Reading a manifest as a program

This reading takes the whole text for a program and refuses a text that is none. The constants are
those declared outside all brackets. The constructed package is the first call of `Package` that a
reader meets, wherever it stands. Any parser will do that gives the nodes of a program.
-/

namespace SwiftDependencies

namespace Program.Node

/-- The parts of a declaration that cannot stand for its value. -/
def isDeclarationPart (n : Node) : Bool :=
  n.isA .modifiers || n.isA .bindingWord || n.isA .boundPattern || n.isA .typeClause ||
    n.isA .name

/-- Whether a node is the sign between a name and its value. -/
def isEqualsSign : Node → Bool
  | .word (.mark .equalsSign) _ => true
  | _ => false

/-- The value of a declaration: what follows the first equals sign, or else the last thing that is
declared of the name, such as how it is computed. -/
def declaredValue? (declaration : Node) : Option Node :=
  match declaration.essentialParts.dropWhile fun n => !n.isEqualsSign with
  | _ :: value :: _ => some value
  | _ => (declaration.essentialPhrases.filter fun n => !n.isDeclarationPart).getLast?

/-- The constant that a node declares. A declaration without a value declares none. -/
def constant? (source : List Char) (n : Node) : Option Constant := do
  guard (n.isA .propertyDeclaration)
  let name ← n.phrases.find? (isA .boundPattern)
  let value ← n.declaredValue?
  let annotation := n.phrases.find? (isA .typeClause)
  return ⟨Text.trim (name.region.text source), value.term source,
    annotation.bind fun a => elementType? (a.region.text source)⟩

/-- Whether a node is a call of a name. -/
def isCallOf (name : String) (source : List Char) (n : Node) : Bool :=
  n.isCall && n.phrases.head?.any fun callee => Text.trim (callee.region.text source) == name

/-- The first call of a name in some nodes, as a term. -/
def firstCallOf? (name : String) (source : List Char) (nodes : List Node) : Option Call :=
  match ((nodes.flatMap within).find? (isCallOf name source)).map (term source) with
  | some (.call _ arguments span) => some ⟨arguments, span⟩
  | _ => none

end Program.Node

/-- What gives the nodes of a text that is a program. -/
abbrev Program.Parser := List Char → Option (List Program.Node)

/-- The parser of programs. -/
def Program.nodes? : Program.Parser :=
  fun cs => (Program.parse? cs).map (Program.nodesOf [])

/-- Read a manifest as a program with a parser. -/
def Manifest.ofProgramBy (parser : Program.Parser) (cs : List Char) :
    Except ManifestFault Manifest :=
  match parser cs with
  | none => .error .notSwift
  | some file =>
    match Program.Node.firstCallOf? "Package" cs file with
    | none => .error .noInitializer
    | some call =>
      let statements := file.flatMap Program.Node.parts
      .ok ⟨statements.filterMap (Program.Node.constant? cs), some call, Source.clean cs⟩

end SwiftDependencies
