import Metrology.Powers
import Metrology.Dimension
import Metrology.Text.Quoted

/-!
The wording of faults. Faults of arithmetic and operands that do not fit at all have no words.
-/

namespace Metrology

def ParseFault.message : ParseFault → String
  | exponentWithoutUnit => "Unit exponent is missing its unit"
  | negativeExponent name => s!"Negative unit exponent not allowed in denominator: {name}"
  | exponentOutOfRange name =>
    let greatest := Powers.greatest
    s!"Unit exponent out of range (-{greatest}..{greatest}): {name}"
  | unknownUnit text => s!"Unit not recognized: {text}"
  | notAQuantity text => s!"{text}: Quantity not recognized"

def ArgumentFault.message : ArgumentFault → String
  | scalarExpected found => s!"Scalar must be a number, got {found}"
  | finiteExpected found => s!"Finite number expected, got {found}"
  | unitTextExpected found => s!"Units must be a string, got {found}"
  | scalarMissing => "Record must provide a scalar"
  | quantityExpected found => s!"Quantity expected, got {found}"
  | textExpected => "Argument should be a string"
  | sourceExpected found => s!"Quantity or string expected, got {found}"
  | targetTextExpected found => s!"Target units must be a string, got {found}"
  | notUnitless units =>
    s!"Can't convert to float unless unitless (units: {units}), use .scalar"
  | unitWithDenominator => "Units should have no denominator for a single unit conversion"
  | unitNotSingle => "Numerator units should be a single unit with an (optional) prefix"
  | unsupportedTarget found => s!"Unsupported target: {found}"
  | quantityTextExpected found => s!"Quantity string expected, got {found}"
  | numberWithUnitsExpected =>
    "Only number accepted as initialization value when units are explicitly provided"
  | initialValueExpected =>
    "Only string, number or quantity accepted as single initialization value"

def TemperatureFault.message : TemperatureFault → String
  | inDenominator => "Cannot divide with temperatures"
  | besideOtherUnits => "Cannot multiply by temperatures"
  | belowZero => "Temperatures must not be less than absolute zero"
  | sum => "Cannot add two temperatures"
  | subtractedFromDegrees => "Cannot subtract a temperature from a differential degree unit"
  | notConvertibleFrom units => s!"Unknown type for temp conversion from: {units}"
  | notConvertibleTo units => s!"Unknown type for temp conversion to: {units}"
  | notDegrees units => s!"Unknown type for degree conversion to: {units}"

/-- The name of a role at the beginning of a sentence. -/
def Role.title : Role → String
  | ofUnit => "Unit"
  | ofPrefix => "Prefix"

/-- The name of a role within a sentence. -/
def Role.noun : Role → String
  | ofUnit => "unit"
  | ofPrefix => "prefix"

def EntryFault.message : EntryFault → String
  | atomForm role atom => role.title ++ " atom must look like '<name>', got " ++ Text.quote atom
  | noAlias role atom => role.title ++ " " ++ atom ++ " needs at least one alias"
  | factorNotPositive role atom =>
    role.title ++ " " ++ atom ++ ": scalar must be a positive, finite number"
  | partForm atom part => "Unit " ++ atom ++ ": invalid base atom " ++ Text.quote part

def ConflictFault.message : ConflictFault → String
  | atomTaken role atom =>
    "Cannot register " ++ role.noun ++ " '" ++ atom ++ "': a " ++ role.noun ++
      " with this atom already exists."
  | aliasTaken role atom name holder =>
    "Cannot register " ++ role.noun ++ " '" ++ atom ++ "': alias '" ++ name ++
      "' already names '" ++ holder ++ "'."

/-- How much of a text is quoted where it is no whole number. -/
def LiteralFault.quoteLimit : Nat := 200

def LiteralFault.message : LiteralFault → String
  | notWhole text =>
    "invalid literal for int() with base 10: " ++
      String.ofList ((Text.quoted text.toList).take quoteLimit)
  | notReal text => "could not convert string to float: " ++ Text.quote text

/-- What a fault says, if it says anything. -/
def Fault.message : Fault → Option String
  | parse cause => cause.message
  | argument cause => cause.message
  | incompatible left right => s!"Incompatible units: {left} and {right}"
  | temperature cause => cause.message
  | divideByZero => "Divide by zero"
  | unknownKind kind => s!"Kind not recognized: {kind}"
  | unknownUnit name => s!"Unit not recognized: {name}"
  | entry cause => cause.message
  | conflict cause => cause.message
  | literal cause => cause.message
  | dimensionLength =>
    "Dimension must have length " ++ toString Dimension.slots.length ++ " (" ++
      String.intercalate ", " Dimension.slots ++ ")."
  | undefinedInteger => "cannot convert float NaN to integer"
  | unsupportedOperand | missingMember | overflow | zeroDivisor | endlessReduction => none

end Metrology
