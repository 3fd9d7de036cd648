import Allowance.Fault.Document
import Allowance.Fault.Options
import Allowance.Fault.Partner
import Allowance.Fault.Request

/-! # Faults

Every operation that can fail fails with a fault. A fault either is one of the causes that the
library names and explains in words, or says that a value was put to a use that its kind or its
size does not admit.
-/

namespace Allowance

/-- A use that a value does not admit. -/
inductive Misuse
  /-- An operation on a value of a kind that does not have it. -/
  | wrongKind
  /-- A question for a member that values of this kind do not have. -/
  | noMember
  /-- A required field that is absent. -/
  | missingField
  /-- A value of the right kind that has no meaning here. -/
  | badValue
  /-- An integer beyond all doubles, or an infinity where an integer is needed. -/
  | tooLarge
  /-- A decimal operation without a defined result. -/
  | undefinedDecimal
  /-- A decimal whose exponent is too large. -/
  | decimalTooLarge
  /-- Brackets nested too deep. -/
  | tooDeep
  deriving DecidableEq

inductive AmountError
  | priceNotPositive
  | notAmount (v : Json)
  | negative

def AmountError.message : AmountError → String
  | priceNotPositive => "price must be positive"
  | notAmount v => "not an ETH amount: " ++ v.shown
  | negative => "ETH amount must not be negative"

inductive FileError
  | absent (name : String)
  | isDirectory (name : String)
  | notDirectory (name : String)
  | nameTooLong (name : String)

def FileError.message : FileError → String
  | absent name => "[Errno 2] No such file or directory: " ++ Text.quoted name
  | isDirectory name => "[Errno 21] Is a directory: " ++ Text.quoted name
  | notDirectory name => "[Errno 20] Not a directory: " ++ Text.quoted name
  | nameTooLong name => "[Errno 36] File name too long: " ++ Text.quoted name

inductive Fault
  | misuse (m : Misuse)
  | notJson (e : Json.SyntaxError)
  | document (e : DocumentError)
  | options (e : OptionsError)
  | request (e : RequestError)
  | noPolicy (child : String)
  | noRecord (id : Json)
  | fixedFields (names : List String)
  | wallet (e : WalletError)
  | payment (e : PaymentError)
  | price (e : PriceError)
  | amount (e : AmountError)
  | missingVariable (name : String)
  | file (e : FileError)
  | badUrl

namespace Fault

def message : Fault → String
  | misuse _ => ""
  | notJson e => e.message
  | document e => e.message
  | options e => e.message
  | request e => e.message
  | noPolicy child => "no policy on file for wallet " ++ child
  | noRecord id => "no permission policy with id " ++ id.shown
  | fixedFields names => "cannot update field(s): " ++ ", ".intercalate names
  | wallet e => e.message
  | payment e => e.message
  | price e => e.message
  | amount e => e.message
  | missingVariable name => "Required environment variable " ++ name ++ " is not set"
  | file e => e.message
  | badUrl => ""

def ofReadError : Json.ReadError → Fault
  | .malformed e => notJson e
  | .longNumber => misuse .badValue
  | .tooDeep => misuse .tooDeep

end Fault

abbrev Checked (α : Type) := Except Fault α

def misuse {α : Type} (m : Misuse) : Checked α := .error (.misuse m)

end Allowance
