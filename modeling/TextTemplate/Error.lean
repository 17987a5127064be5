/-
# Errors

Every error has a **cause**; its kind and its wording follow from the cause.  On the way out a
compilation attaches the token that failed, and a debugging engine the place in the source.

* `SyntaxFault` lists what can be wrong with a template, `ConfigurationFault` with an engine,
  `TypeFault` with the type of a value;
* `Cause` is any cause, `Cause.kind` its kind and `Cause.message?` its wording;
* `Error` is a cause with what was attached to it.
-/
import TextTemplate.Scopes.Basic
import TextTemplate.Token

namespace TextTemplate

open TextTemplate.Decimal TextTemplate.Text

/-! ## 1. Templates -/

/-- What can be wrong with a template. -/
inductive SyntaxFault where
  | emptyExpression (line : Nat)
  | emptyStatement (line : Nat)
  /-- A statement names no tag; `expected` is the close name of the innermost open block. -/
  | unknownTag (line position : Nat) (command : String) (expected : Option String)
  | unclosedTag (line : Nat) (command closeName : String)
  | unexpectedResult (command written : String)
  | noVariableAtStart (text : String)
  | noVariable (text : String)
  | badLoop (remainder : String)
  | misplacedEmpty
  | cycleWithoutValues
  | emptyCondition
  | negationWithoutOperand
  | noRightOperand (operator text : String)
  /-- An instruction stands outside the block that it belongs to. -/
  | misplaced (instruction block found : String)
  | secondElse
  | unclosedBlock (block opener : String)
  deriving DecidableEq, Repr

/-- The wording of a fault in a template. -/
def SyntaxFault.message : SyntaxFault → String
  | emptyExpression line => "Empty variable tag on line " ++ decimalNat line
  | emptyStatement line => "Empty block tag on line " ++ decimalNat line
  | unknownTag line position command expected =>
    "Invalid block tag on line " ++ decimalNat line ++ " (position " ++ decimalNat position ++
      "): '" ++ command ++ "'" ++
      (match expected with
        | some name => ", expected '" ++ name ++ "'"
        | none => "") ++ ". Did you forget to register this tag?"
  | unclosedTag line command closeName =>
    "Unclosed tag on line " ++ decimalNat line ++ ": '" ++ command ++ "'. Looking for: " ++
      closeName ++ "."
  | unexpectedResult command written =>
    "Tag '" ++ command ++ "' returned " ++ written ++ "; expected an Inline or a Block."
  | noVariableAtStart text => "Could not find variable at start of " ++ text ++ "."
  | noVariable text => "Could not find variable in '" ++ text ++ "'"
  | badLoop remainder =>
    "'for' statements should use the format 'for x in y' or 'for x, y in z': for " ++ remainder
  | misplacedEmpty => "'empty' must appear directly inside a 'for' block."
  | cycleWithoutValues => "'cycle' tag requires at least one value."
  | emptyCondition => "The condition is empty."
  | negationWithoutOperand => "'not' needs an operand."
  | noRightOperand operator text =>
    "Missing right operand for " ++ quoted operator ++ " in " ++ quoted text ++ "."
  | misplaced instruction block found =>
    instruction ++ " must appear inside a " ++ block ++ " block, found " ++ found ++ "."
  | secondElse => "'else' cannot follow another 'else' in the same block."
  | unclosedBlock block opener => "Unclosed " ++ block ++ " block opened by " ++ opener ++ "."

/-! ## 2. Engines -/

/-- What can be wrong with the settings of an engine. -/
inductive ConfigurationFault where
  /-- The delimiters are not given for exactly the three kinds of marker. -/
  | delimiterKinds (given : List String)
  | delimiterPair (kind written : String)
  | delimiterOverlap (kind opener other otherOpener : String)
  | noSuchModule (path parent : String)
  | noPackage (path missing parent : String)
  | noLibrary (path : String)
  | notALibrary (written : String)
  deriving DecidableEq, Repr

/-- The wording of a library that could not be loaded. -/
def loadMessage (path detail : String) : String :=
  "Invalid template library specified. ImportError raised when trying to load '" ++ path ++ "': " ++
    detail

/-- The wording of a fault in the settings. -/
def ConfigurationFault.message : ConfigurationFault → String
  | delimiterKinds given =>
    "Delimiters must be given for exactly statement, expression, comment, got " ++
      commaSeparated given ++ "."
  | delimiterPair kind written =>
    "The " ++ kind ++ " delimiters must be a pair of non-empty strings, got " ++ written ++ "."
  | delimiterOverlap kind opener other otherOpener =>
    "The " ++ kind ++ " opening delimiter " ++ quoted opener ++ " overlaps the " ++ other ++
      " opening delimiter " ++ quoted otherOpener ++ "."
  | noSuchModule path missing => loadMessage path ("No module named " ++ quoted missing)
  | noPackage path missing parent =>
    loadMessage path ("No module named " ++ quoted missing ++ "; " ++ quoted parent ++
      " is not a package")
  | noLibrary path =>
    loadMessage path ("Module \"" ++ path ++ "\" does not define a \"register\" attribute/class")
  | notALibrary written => "Template library " ++ written ++ " is not a Library instance."

/-! ## 3. Types -/

/-- What can be wrong with the type of a value. -/
inductive TypeFault where
  | operands (operator left right : String)
  | concatenation (left right : String)
  | notIterable (type : String)
  | noMembers (type : String)
  | notSubscriptable (type : String)
  | notCallable (type : String)
  | notAssignable (type : String)
  | listIndex (container index : String)
  | textIndex (index : String)
  | unhashable (type : String)
  | notUnpackable (type : String)
  | notTextMember (type : String)
  | notComparable (operator left right : String)
  | noIntegerForm (type : String)
  | noFloatForm (type : String)
  | noLength (type : String)
  | missingArguments (callee : String) (names : List String)
  | extraArguments (callee : String) (least most given : Nat)
  | argumentTwice (callee name : String)
  | labelsNotText
  | notText (position : Nat) (type : String)
  | rootNotMapping (type : String)
  | variableNotText (type : String)
  | relativeModule (path : String)
  deriving DecidableEq, Repr

/-- Names in quotes, the last joined by a conjunction. -/
def enumerated : List String → String
  | [] => ""
  | [a] => "'" ++ a ++ "'"
  | [a, b] => "'" ++ a ++ "' and '" ++ b ++ "'"
  | a :: rest => "'" ++ a ++ "', " ++ enumerated rest

/-- One thing or several. -/
def counted (n : Nat) (noun : String) : String :=
  decimalNat n ++ " " ++ noun ++ (if n = 1 then "" else "s")

/-- The wording of a fault in a type. -/
def TypeFault.message : TypeFault → String
  | operands operator left right =>
    "unsupported operand type(s) for " ++ operator ++ ": '" ++ left ++ "' and '" ++ right ++ "'"
  | concatenation left right =>
    "can only concatenate " ++ left ++ " (not \"" ++ right ++ "\") to " ++ left
  | notIterable type => "'" ++ type ++ "' object is not iterable"
  | noMembers type => "argument of type '" ++ type ++ "' is not iterable"
  | notSubscriptable type => "'" ++ type ++ "' object is not subscriptable"
  | notCallable type => "'" ++ type ++ "' object is not callable"
  | notAssignable type => "'" ++ type ++ "' object does not support item assignment"
  | listIndex container index =>
    container ++ " indices must be integers or slices, not " ++ index
  | textIndex index => "string indices must be integers, not '" ++ index ++ "'"
  | unhashable type => "unhashable type: '" ++ type ++ "'"
  | notUnpackable type => "cannot unpack non-iterable " ++ type ++ " object"
  | notTextMember type => "'in <string>' requires string as left operand, not " ++ type
  | notComparable operator left right =>
    "'" ++ operator ++ "' not supported between instances of '" ++ left ++ "' and '" ++ right ++ "'"
  | noIntegerForm type =>
    "int() argument must be a string, a bytes-like object or a real number, not '" ++ type ++ "'"
  | noFloatForm type => "float() argument must be a string or a real number, not '" ++ type ++ "'"
  | noLength type => "object of type '" ++ type ++ "' has no len()"
  | missingArguments callee names =>
    callee ++ "() missing " ++ counted names.length "required positional argument" ++ ": " ++
      enumerated names
  | extraArguments callee least most given =>
    callee ++ "() takes " ++
      (if least = most then counted most "positional argument"
        else "from " ++ decimalNat least ++ " to " ++ counted most "positional argument") ++
      " but " ++ decimalNat given ++ (if given = 1 then " was given" else " were given")
  | argumentTwice callee name => callee ++ "() got multiple values for argument '" ++ name ++ "'"
  | labelsNotText => "keywords must be strings"
  | notText position type =>
    "sequence item " ++ decimalNat position ++ ": expected str instance, " ++ type ++ " found"
  | rootNotMapping type => "context must be a dict rather than " ++ type ++ "."
  | variableNotText type => "Variable must be a string, got <class '" ++ type ++ "'>"
  | relativeModule path =>
    "the 'package' argument is required to perform a relative import for " ++ quoted path

/-! ## 4. Causes -/

/-- Where a lookup step failed: among the scopes themselves, or in a value. -/
inductive Subject where
  | scopes (c : Scopes)
  | value (v : Value)
  deriving DecidableEq, Repr

/-- What an index was out of range of. -/
inductive IndexFault where
  | list
  | assignment
  | tuple
  | text
  | range
  | emptyList
  /-- The index does not fit the machine. -/
  | tooLarge
  deriving DecidableEq, Repr

/-- The wording of an index out of range. -/
def IndexFault.message : IndexFault → String
  | list => "list index out of range"
  | assignment => "list assignment index out of range"
  | tuple => "tuple index out of range"
  | text => "string index out of range"
  | range => "range object index out of range"
  | emptyList => "pop from empty list"
  | tooLarge => "cannot fit 'int' into an index-sized integer"

/-- What can be wrong with a value of the right type. -/
inductive ValueFault where
  | noInteger (written : String)
  | noFloat (written : String)
  | notANumber
  | integerTooLong (digits : Nat)
  | integerTextTooLong
  | tooFewToUnpack (given : Nat)
  | tooManyToUnpack
  | noModuleName
  deriving DecidableEq, Repr

/-- The wording of a fault in a value. -/
def ValueFault.message : ValueFault → String
  | noInteger written => "invalid literal for int() with base 10: " ++ written
  | noFloat written => "could not convert string to float: " ++ written
  | notANumber => "cannot convert float NaN to integer"
  | integerTooLong digits =>
    "Exceeds the limit (" ++ decimalNat digitLimit ++
      " digits) for integer string conversion: value has " ++ decimalNat digits ++
      " digits; use sys.set_int_max_str_digits() to increase the limit"
  | integerTextTooLong =>
    "Exceeds the limit (" ++ decimalNat digitLimit ++
      " digits) for integer string conversion; " ++
      "use sys.set_int_max_str_digits() to increase the limit"
  | tooFewToUnpack given =>
    "not enough values to unpack (expected 2, got " ++ decimalNat given ++ ")"
  | tooManyToUnpack => "too many values to unpack (expected 2)"
  | noModuleName => "Empty module name"

/-- Why something failed. -/
inductive Cause where
  | template (fault : SyntaxFault)
  | configuration (fault : ConfigurationFault)
  | type (fault : TypeFault)
  | index (fault : IndexFault)
  | value (fault : ValueFault)
  | unknownFilter (name : String)
  /-- A lookup step found nothing. -/
  | lookup (segment : String) (within : Subject)
  /-- What was looked up cannot be called without an argument. -/
  | needsArgument (callee : String)
  /-- A method of plain data that needs an argument was looked up, or failed on its data. -/
  | dataMethod
  | missingKey (key : Value)
  | emptyMapping
  | noAttribute (owner name : String)
  | infinityToInteger
  | integerToFloat
  | lengthTooLarge
  | moduloByZero
  | floatModuloByZero
  | popBeyondRoot
  | alreadyBound
  /-- A function was registered in a form that is not supported. -/
  | registration
  | tooDeep
  /-- The caller's code raised an error of its own. -/
  | raised (kind : ErrorKind) (argument : Option Value)
  deriving DecidableEq, Repr

/-- The kind of a cause. -/
def Cause.kind : Cause → ErrorKind
  | template _ => .templateSyntax
  | configuration _ => .misconfigured
  | type _ => .mistyped
  | index _ => .badIndex
  | value _ | registration => .badValue
  | unknownFilter _ => .unknownFilter
  | lookup .. | needsArgument _ | dataMethod => .missingVariable
  | missingKey _ | emptyMapping => .missingKey
  | noAttribute .. => .missingAttribute
  | infinityToInteger | integerToFloat | lengthTooLarge => .overflow
  | moduloByZero | floatModuloByZero => .divisionByZero
  | popBeyondRoot => .popBeyondRoot
  | alreadyBound => .badState
  | tooDeep => .tooDeep
  | raised kind _ => kind

/-- The error of a kind that the caller's code raises about an argument, if it gives one.  An error
about a variable has to have one: without it, making the error is what fails. -/
def Cause.raising (kind : ErrorKind) (argument : Option Value) : Cause :=
  match kind, argument with
  | .missingVariable, none => .type (.missingArguments "VariableDoesNotExist.__init__" ["msg"])
  | kind, argument => .raised kind argument

/-- The text of a pattern that nothing is filled into: a percent sign stands there twice. -/
def filledPattern : List Char → List Char
  | '%' :: '%' :: cs => '%' :: filledPattern cs
  | c :: cs => c :: filledPattern cs
  | [] => []

/-- A value as it is shown in a message. -/
def Store.shown (s : Store) (v : Value) : String := (s.shown? v).getD "..."

/-- What is shown of the place where a lookup failed. -/
def Subject.written (s : Store) : Subject → String
  | .scopes c => (c.written? s).getD "..."
  | .value v => s.written v

/-- A wording in which a value is written or shown, unless that would show an address. -/
def Store.wording? (s : Store) (v : Value) (text : String) : Option String :=
  if s.holdsFunction v then none else some text

/-- The wording of an error of a kind that was raised about a value. -/
def Store.raisedText (s : Store) (kind : ErrorKind) (v : Value) : String :=
  match kind with
  | .missingKey => s.written v
  | .missingVariable => String.ofList (filledPattern (s.shown v).toList)
  | _ => s.shown v

/-- The wording of a cause.  There is none where the wording would show an address. -/
def Cause.message? (s : Store) : Cause → Option String
  | template fault => some fault.message
  | configuration fault => some fault.message
  | type fault => some fault.message
  | index fault => some fault.message
  | value fault => some fault.message
  | unknownFilter name => some ("Invalid filter: '" ++ name ++ "'")
  | lookup segment within =>
    let text := "Failed lookup for key [" ++ segment ++ "] in " ++ within.written s
    match within with
    | .scopes _ => some text
    | .value v => s.wording? v text
  | needsArgument callee => some ("Cannot call " ++ callee ++ " without arguments")
  | dataMethod => none
  | missingKey key => s.wording? key (s.written key)
  | emptyMapping => some "'popitem(): dictionary is empty'"
  | noAttribute owner name => some ("'" ++ owner ++ "' object has no attribute '" ++ name ++ "'")
  | infinityToInteger => some "cannot convert float infinity to integer"
  | integerToFloat => some "int too large to convert to float"
  | lengthTooLarge => some "Python int too large to convert to C ssize_t"
  | moduloByZero => some "integer modulo by zero"
  | floatModuloByZero => some "float modulo"
  | popBeyondRoot => some ""
  | alreadyBound => some "Context is already bound to a template"
  | registration => none
  | tooDeep => some "maximum recursion depth exceeded"
  | raised kind argument =>
    match argument with
    | none => some ""
    | some v => s.wording? v (s.raisedText kind v)

/-- What debugging information shows of a cause: its first argument as a text.  A missing key is
shown without quotes.  An error may have no argument, or one that cannot be shown. -/
inductive CauseText where
  | absent
  | unprintable
  | text (s : String)
  deriving DecidableEq, Repr

/-- The first argument of a cause as a text. -/
def Cause.argumentText (s : Store) : Cause → CauseText
  | emptyMapping => .text "popitem(): dictionary is empty"
  | popBeyondRoot | raised _ none => .absent
  | missingKey v | raised _ (some v) =>
    match s.shown? v with
    | some t => .text t
    | none => .unprintable
  | cause => .text ((cause.message? s).getD "")

/-! ## 5. Errors -/

/-- The place of an error in a template's source, as a debugging engine reports it. -/
structure DebugInfo where
  message : String
  /-- The lines around the failing one, numbered. -/
  sourceLines : List (Nat × String)
  before : String
  during : String
  after : String
  top : Nat
  bottom : Nat
  total : Nat
  line : Nat
  name : String
  start : Nat
  stop : Nat
  deriving DecidableEq, Repr

/-- An error: its cause, the token that failed, and the place in the source. -/
structure Error where
  cause : Cause
  token : Option Token
  debug : Option DebugInfo
  deriving DecidableEq, Repr

namespace Error

/-- An error with nothing attached. -/
def of (cause : Cause) : Error := ⟨cause, none, none⟩

/-- An error in a template, with nothing attached. -/
def syntaxFault (fault : SyntaxFault) : Error := of (.template fault)

/-- The kind of an error. -/
def kind (e : Error) : ErrorKind := e.cause.kind

/-- Attach a token, unless one is attached: that one is closer to the failure. -/
def at? (e : Error) (token : Option Token) : Error :=
  match e.token with
  | some _ => e
  | none => { e with token := token }

end Error

/-! ## 6. Computations on values -/

/-- A computation on values: it may change the store and may fail; what it has changed before
it fails stays changed. -/
abbrev Eval (α : Type) := EStateM Error Store α

/-- Fail for a cause. -/
def Eval.fail {α : Type} (cause : Cause) : Eval α := throw (Error.of cause)

end TextTemplate
