/-!
Everything that can go wrong with quantities, as causes. `Fault.message` puts a cause into words;
the causes that arithmetic itself raises have no words of their own.
-/

namespace Metrology

/-- Why a text is not a quantity. -/
inductive ParseFault where
  | exponentWithoutUnit
  | negativeExponent (name : String)
  | exponentOutOfRange (name : String)
  | unknownUnit (text : String)
  | notAQuantity (text : String)
deriving DecidableEq, Repr

/-- Why an argument does not fit; `found` names what was given in its place. -/
inductive ArgumentFault where
  | scalarExpected (found : String)
  | finiteExpected (found : String)
  | unitTextExpected (found : String)
  | scalarMissing
  | quantityExpected (found : String)
  | textExpected
  | sourceExpected (found : String)
  | targetTextExpected (found : String)
  | notUnitless (units : String)
  | unitWithDenominator
  | unitNotSingle
  | unsupportedTarget (found : String)
  | quantityTextExpected (found : String)
  | numberWithUnitsExpected
  | initialValueExpected
deriving DecidableEq, Repr

/-- What absolute temperatures do not allow. -/
inductive TemperatureFault where
  | inDenominator
  | besideOtherUnits
  | belowZero
  | sum
  | subtractedFromDegrees
  | notConvertibleFrom (units : String)
  | notConvertibleTo (units : String)
  | notDegrees (units : String)
deriving DecidableEq, Repr

/-- The two sorts of entries of a registry. -/
inductive Role where
  | ofUnit
  | ofPrefix
deriving DecidableEq, Repr

/-- Why an entry cannot be part of any registry. -/
inductive EntryFault where
  | atomForm (role : Role) (atom : String)
  | noAlias (role : Role) (atom : String)
  | factorNotPositive (role : Role) (atom : String)
  | partForm (atom part : String)
deriving DecidableEq, Repr

/-- Why an entry cannot join a registry. -/
inductive ConflictFault where
  | atomTaken (role : Role) (atom : String)
  | aliasTaken (role : Role) (atom name holder : String)
deriving DecidableEq, Repr

/-- Why a text is not a number. -/
inductive LiteralFault where
  | notWhole (text : String)
  | notReal (text : String)
deriving DecidableEq, Repr

/-- Everything that can go wrong. -/
inductive Fault where
  | parse (cause : ParseFault)
  | argument (cause : ArgumentFault)
  | incompatible (left right : String)
  | temperature (cause : TemperatureFault)
  | divideByZero
  | unknownKind (kind : String)
  | unknownUnit (name : String)
  | entry (cause : EntryFault)
  | conflict (cause : ConflictFault)
  | literal (cause : LiteralFault)
  | dimensionLength
  | undefinedInteger
  | unsupportedOperand
  | missingMember
  | overflow
  | zeroDivisor
  | endlessReduction
deriving DecidableEq, Repr

namespace Fault

/-- Whether the fault is one of quantities, and not one of arithmetic or of a registry's entries. -/
def isDomain : Fault → Bool
  | parse _ | argument _ | incompatible .. | temperature _ | divideByZero | unknownKind _
  | unknownUnit _ => true
  | _ => false

end Fault

end Metrology
