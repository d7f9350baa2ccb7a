import LootFilter.Language.Operator
import LootFilter.Language.Type

/-!
# Why a rule does not compile

A rule is rejected for one cause, at one place of its text.
-/

namespace LootFilter

namespace CompileError

inductive Cause where
  -- Characters that make no token.
  | unterminatedText
  | invalidInt (digits : String)
  | strayCharacter (c : Char)
  -- Tokens that make no expression.
  | tokenExpected (token : String)
  | identifierExpected
  | expressionExpected
  | unexpectedToken
  | nestedTooDeeply
  -- Expressions that make no sense.
  | notBoolean (found : Ty)
  | conditionNotBoolean (found : Ty)
  | lambdaNotBoolean (found : Ty)
  | strayLambda
  | unknownField (name owner : String)
  | notAMember (member enumeration : String)
  | unknownHelper (name : String)
  | noOverload (name : String) (args : List (Option Ty))
  | wrongChoiceCount
  | noMethod (name : String) (target : Ty) (args : Nat)
  | badOperand (symbol : String) (operand : Ty)
  | badOperands (symbol : String) (left right : Ty)
  | branchesDiffer (yes no : Ty)
  | elementsDiffer (found expected : Ty)
  | emptyArray
  | unsupportedArray (element : Ty)
  | notIndexable (target index : Ty)
  | keyNotText
  | argumentNotText (method : String) (found : Ty)
  | argumentNotComparison (method : String) (found : Ty)
  | notSelectable (found : Ty)
  | notSummable (found : Ty)
  | notSearchable (element wanted : Ty)

def Cause.message : Cause → String
  | unterminatedText => "Unterminated string literal"
  | invalidInt digits => "Invalid integer literal '" ++ digits ++ "'"
  | strayCharacter c => "Syntax error '" ++ String.singleton c ++ "'"
  | tokenExpected token => "'" ++ token ++ "' expected"
  | identifierExpected => "Identifier expected"
  | expressionExpected => "Expression expected"
  | unexpectedToken => "Syntax error: unexpected token"
  | nestedTooDeeply => "Expression nested too deeply"
  | notBoolean found => "Expression of type 'Boolean' expected, found '" ++ found.name ++ "'"
  | conditionNotBoolean found => "Condition must be 'Boolean', found '" ++ found.name ++ "'"
  | lambdaNotBoolean found => "Lambda body must be 'Boolean', found '" ++ found.name ++ "'"
  | strayLambda => "Lambda expressions are only allowed as method arguments"
  | unknownField name owner =>
    "No property or field '" ++ name ++ "' exists in type '" ++ owner ++ "'"
  | notAMember member enumeration =>
    "'" ++ member ++ "' is not a member of '" ++ enumeration ++ "'"
  | unknownHelper name =>
    "No applicable method '" ++ name ++ "' exists in type '" ++ RecordKind.item.name ++ "'"
  | noOverload name args =>
    "No overload of '" ++ name ++ "' accepts arguments (" ++
      ", ".intercalate (args.map fun arg => (arg.map Ty.name).getD "lambda") ++ ")"
  | wrongChoiceCount => "iif expects 3 arguments"
  | noMethod name target args =>
    "No applicable method '" ++ name ++ "' exists in type '" ++ target.name ++ "' for " ++
      toString args ++ " argument(s)"
  | badOperand symbol operand =>
    "Operator '" ++ symbol ++ "' incompatible with operand type '" ++ operand.name ++ "'"
  | badOperands symbol left right =>
    "Operator '" ++ symbol ++ "' incompatible with operand types '" ++ left.name ++ "' and '" ++
      right.name ++ "'"
  | branchesDiffer yes no =>
    "Both branches of a conditional must have the same type, found '" ++ yes.name ++ "' and '" ++
      no.name ++ "'"
  | elementsDiffer found expected =>
    "Array element of type '" ++ found.name ++ "' does not match '" ++ expected.name ++ "'"
  | emptyArray => "Cannot infer the element type of an empty array"
  | unsupportedArray element => "Arrays of '" ++ element.name ++ "' are not supported"
  | notIndexable target index => "Cannot index '" ++ target.name ++ "' with '" ++ index.name ++ "'"
  | keyNotText => "ContainsKey expects a 'String' key"
  | argumentNotText method found =>
    "'" ++ method ++ "' expects a 'String' argument, found '" ++ found.name ++ "'"
  | argumentNotComparison method found =>
    "'" ++ method ++ "' expects a 'StringComparison', found '" ++ found.name ++ "'"
  | notSelectable found => "Cannot select values of type '" ++ found.name ++ "'"
  | notSummable found => "Cannot sum values of type '" ++ found.name ++ "'"
  | notSearchable element wanted =>
    "Cannot search a sequence of '" ++ element.name ++ "' for '" ++ wanted.name ++ "'"

end CompileError

structure CompileError where
  cause : CompileError.Cause
  /-- How many characters stand before the place of the error. -/
  position : Nat

namespace CompileError

def message (e : CompileError) : String := e.cause.message

def text (e : CompileError) : String :=
  e.message ++ " (at index " ++ toString e.position ++ ")"

end CompileError

end LootFilter
