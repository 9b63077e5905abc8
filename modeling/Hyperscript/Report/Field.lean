import Hyperscript.Text.Pattern.Reader

/-! Fields of notes as directives name them, `name` or `name=value`. A value is a
number or a pattern. -/
namespace Hyperscript.Report

structure Field where
  name : String
  hasValue : Bool

namespace Field

def withoutSign : List Char → List Char
  | '+' :: rest | '-' :: rest => rest
  | text => text

/-- Decimal digits with at most one point among them, and not the point alone. -/
def isCoefficient (text : List Char) : Bool :=
  let (whole, fraction) := text.span (· != '.')
  let digits := whole ++ fraction.drop 1
  !digits.isEmpty && digits.all Char.isDigit

def isExponent (text : List Char) : Bool :=
  let digits := withoutSign text
  !digits.isEmpty && digits.all Char.isDigit

def isDecimal (text : List Char) : Bool :=
  match text.span fun c => c != 'e' && c != 'E' with
  | (coefficient, []) => isCoefficient coefficient
  | (coefficient, _ :: exponent) => isCoefficient coefficient && isExponent exponent

def isNumber (text : List Char) : Bool :=
  let size := withoutSign text
  isDecimal size || ["inf", "infinity", "nan"].contains (Text.lower (String.ofList size))

/-- A value goes up to a second equals sign; what follows that is passed over. -/
def parse? (text : List Char) : Option Field :=
  match text.span (· != '=') with
  | (name, []) => some { name := String.ofList name, hasValue := false }
  | (name, _ :: rest) =>
    let value := rest.takeWhile (· != '=')
    if isNumber value || Text.Pattern.isValid value then
      some { name := String.ofList name, hasValue := true }
    else none

end Field
end Hyperscript.Report
