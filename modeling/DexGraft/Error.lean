import DexGraft.Text.Numeral

/-!
# Errors

Every way in which locating, assembling, editing or patching can fail, each named for its cause,
and the wording of the messages.
-/

namespace DexGraft

open Text.Numeral (decimal)

/-- Why a line of assembly text, or a template for some, cannot be used. -/
inductive AssemblyFault where
  | invalidLabel (content : String)
  | unknownOpcode (mnemonic : String)
  | unbalancedBrace
  | unterminatedOperand
  | labelTwice (name : String)
  | operandCount (mnemonic : String) (expected found : Nat)
  | missingLiteral
  | missingReference
  | missingLabel
  /-- The operands of the opcode include a reference, but of no kind. -/
  | noReferenceKind (mnemonic : String)
  | invalidRegister (text : String)
  | noParameterRegister (text method : String)
  | registerListExpected (text : String)
  | invalidRegisterRange (text : String)
  | invalidLiteral (text : String)
  | invalidReference (message : String)
  | invalidPrototype (text : String)
  | labelExpected (text : String)
  | undefinedLabel (name : String)
  | oneInstructionExpected (found : Nat)
  | unterminatedPlaceholder
  | unboundPlaceholder (name : String)
deriving DecidableEq, Repr

/-- Why a method cannot be built, or does not have the shape that a patch needs. -/
inductive MethodFault where
  | emptyName
  | tooFewRegisters (method : String) (needed given : Nat)
  | hookMismatch (call : String) (registers : Nat) (hook : String)
  | noReceiver (method : String)
  | noSuperConstructorCall (method : String)
  | noSeekSource (method : String)
  | noTimeParameter (method : String)
  | noStringId (method : String)
  | noBody (method : String)
deriving DecidableEq, Repr

/-- Why an opcode pattern, or the fingerprint that holds it, cannot be used. -/
inductive PatternFault where
  | empty
  | unknownOpcode (token : String)
  | maskWithoutFlags (fingerprint : String)
deriving DecidableEq, Repr

/-- Why a table of public resources cannot be read. -/
inductive TableFault where
  | markup
  | badAttribute
  | badAttributeValue
  | incompleteEntry
  | badId (id name : String)
deriving DecidableEq, Repr

/-- What an instruction was expected to be. -/
inductive Expected where
  | registerOperand
  | methodReference
  | fieldReference
  | opcode (mnemonic : String)
deriving DecidableEq, Repr

/-- Why an operation of the library failed. -/
inductive Error where
  | resolutionFailed (fingerprint : String)
  | parentNotResolved (fingerprint parent : String)
  | noPatternScan (fingerprint : String)
  | referenceNotFound (method : String) (step nth : Nat)
  | unresolvableReference (reference : String)
  | invalidPattern (fault : PatternFault)
  /-- Occurrences are counted from one, so there is none with number zero. -/
  | zerothOccurrence
  | resourceNotFound (type name : String)
  | invalidResourceTable (fault : TableFault)
  | indexOutOfBounds (method : String) (index length : Nat)
  | unexpectedInstruction (method : String) (index : Nat) (expected : Expected) (found : String)
  | classNotFound (descriptor : String)
  | methodNotFound (method : String)
  | duplicateClass (descriptor : String)
  | duplicateMethod (method : String)
  | invalidMethod (fault : MethodFault)
  | invalidDescriptor (text : String)
  | foreignMark (slot : Nat)
  | hookNotFound (name : String)
  | hookPointLost (method anchor : String)
  | assembly (line : Nat) (fault : AssemblyFault)
  | patchNotFound (name : String)
  | unknownDependency (patch dependency : String)
  | dependencyCycle (patch : String)
  | patchFailed (patch : String) (cause : Error)
  /-- A file cannot be read or written. -/
  | file
  /-- A JSON text is malformed or has not the form that was asked for. -/
  | json
  /-- A register number would not fit its sixteen bits. -/
  | registerOverflow
deriving DecidableEq, Repr

def AssemblyFault.message : AssemblyFault → String
  | invalidLabel content => s!"invalid label '{content}'"
  | unknownOpcode mnemonic => s!"unknown opcode '{mnemonic}'"
  | unbalancedBrace => "unbalanced '\x7d'"
  | unterminatedOperand => "unterminated operand"
  | labelTwice name => s!"label ':{name}' defined twice"
  | operandCount mnemonic expected found =>
    s!"{mnemonic} takes {decimal expected} operand(s), found {decimal found}"
  | missingLiteral => "missing literal"
  | missingReference => "missing reference"
  | missingLabel => "missing label"
  | noReferenceKind mnemonic => s!"{mnemonic} takes no reference"
  | invalidRegister text => s!"invalid register '{text}'"
  | noParameterRegister text method =>
    s!"parameter register '{text}' does not exist in {method}"
  | registerListExpected text => s!"expected register list, found '{text}'"
  | invalidRegisterRange text => s!"invalid register range '{text}'"
  | invalidLiteral text => s!"invalid literal '{text}'"
  | invalidReference message => message
  | invalidPrototype text => s!"invalid prototype '{text}'"
  | labelExpected text => s!"expected label, found '{text}'"
  | undefinedLabel name => s!"undefined label ':{name}'"
  | oneInstructionExpected found => s!"expected one instruction, found {decimal found}"
  | unterminatedPlaceholder => "unterminated placeholder"
  | unboundPlaceholder name => "unbound placeholder '$\x7b" ++ name ++ "\x7d'"

def MethodFault.message : MethodFault → String
  | emptyName => "method name is empty"
  | tooFewRegisters method needed given =>
    s!"{method} needs at least {decimal needed} registers, got {decimal given}"
  | hookMismatch call registers hook =>
    s!"{call} cannot take the {decimal registers} register(s) of hook point {hook}"
  | noReceiver method => s!"{method} has no receiver register"
  | noSuperConstructorCall method => s!"{method} never calls a super constructor"
  | noSeekSource method => s!"{method} takes no seek source"
  | noTimeParameter method => s!"{method} does not take the time as its first parameter"
  | noStringId method => s!"{method} never reads a string id"
  | noBody method => s!"{method} has no body"

def PatternFault.message : PatternFault → String
  | empty => "Opcode pattern is empty"
  | unknownOpcode token => s!"Invalid opcode '{token}': Matching variant not found"
  | maskWithoutFlags fingerprint =>
    s!"fingerprint '{fingerprint}' has an access mask but no access flags"

def TableFault.message : TableFault → String
  | markup => "XML error"
  | badAttribute => "Bad attribute"
  | badAttributeValue => "Bad attribute value"
  | incompleteEntry => "<public> entry needs type, name and id"
  | badId id name => s!"Bad id '{id}' for {name}"

def Expected.message : Expected → String
  | registerOperand => "an instruction with a register operand"
  | methodReference => "a method reference"
  | fieldReference => "a field reference"
  | opcode mnemonic => mnemonic

namespace Error

/-- The message shown to the user. -/
def message : Error → String
  | resolutionFailed fingerprint => s!"Fingerprint '{fingerprint}' did not match any method"
  | parentNotResolved fingerprint parent =>
    s!"Fingerprint '{fingerprint}' is scoped to '{parent}', which is not resolved"
  | noPatternScan fingerprint => s!"Fingerprint '{fingerprint}' declares no opcode pattern"
  | referenceNotFound method step nth =>
    s!"Reference #{decimal nth} not found in {method} (walk step {decimal step})"
  | unresolvableReference reference =>
    s!"Referenced method is not part of the class pool: {reference}"
  | invalidPattern fault => s!"Invalid opcode pattern: {fault.message}"
  | zerothOccurrence => "Invalid walk step: occurrences are counted from 1"
  | resourceNotFound type name => s!"Resource not found: {type}/{name}"
  | invalidResourceTable fault => s!"Invalid resource table: {fault.message}"
  | indexOutOfBounds method index length =>
    s!"Index {decimal index} is out of bounds for {method} ({decimal length} instructions)"
  | unexpectedInstruction method index expected found =>
    s!"Unexpected instruction at {method}[{decimal index}]: " ++
      s!"expected {expected.message}, found {found}"
  | classNotFound descriptor => s!"Class not found: {descriptor}"
  | methodNotFound method => s!"Method not found: {method}"
  | duplicateClass descriptor => s!"Class already exists: {descriptor}"
  | duplicateMethod method => s!"Method already exists: {method}"
  | invalidMethod fault => s!"Invalid method definition: {fault.message}"
  | invalidDescriptor text => s!"Invalid descriptor: {text}"
  | foreignMark slot => s!"Mark #{decimal slot} belongs to another editor"
  | hookNotFound name => s!"Hook point not registered: {name}"
  | hookPointLost method anchor => s!"Hook point in {method} lost its anchor `{anchor}`"
  | assembly line fault => s!"Smali error on line {decimal line}: {fault.message}"
  | patchNotFound name => s!"No patch named '{name}'"
  | unknownDependency patch dependency =>
    s!"Patch '{patch}' depends on unknown patch '{dependency}'"
  | dependencyCycle patch => s!"Dependency cycle involving patch '{patch}'"
  | patchFailed patch cause => s!"Patch '{patch}' failed: {cause.message}"
  | file => "file cannot be read or written"
  | json => "JSON text has not the expected form"
  | registerOverflow => "register number does not fit sixteen bits"

/-- Whether the error says that a fingerprint or the goal of a walk was not found. -/
def isNotFound : Error → Bool
  | resolutionFailed .. | parentNotResolved .. | referenceNotFound ..
  | unresolvableReference .. => true
  | patchFailed _ cause => cause.isNotFound
  | _ => false

/-- Whether the error comes from a register number beyond sixteen bits. -/
def isOverflow : Error → Bool
  | registerOverflow => true
  | patchFailed _ cause => cause.isOverflow
  | _ => false

end Error

end DexGraft
