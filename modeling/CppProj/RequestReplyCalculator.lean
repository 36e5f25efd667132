import Mathlib.Tactic.Common

/-!
# The calculator service: its data types and its arithmetic

The types of `Calculator.idl` and `ServerApp::calculate`.  An operation
arrives as a 32-bit number, so a request can carry one that the enumeration
does not list; `calculate` answers it, and a division by zero, with a failure.
-/

namespace CppProj.RequestReply

inductive CalculatorOperationType where
  | addition
  | subtraction
  | multiplication
  | division
  | unknown (value : UInt32) (unlisted : 4 ≤ value)
  deriving DecidableEq

structure CalculatorRequestType where
  clientId : String
  operation : CalculatorOperationType
  x : Int16
  y : Int16
  deriving DecidableEq

/-- The value that `std::make_shared<CalculatorRequestType>()` starts with. -/
def CalculatorRequestType.default : CalculatorRequestType where
  clientId := ""
  operation := .addition
  x := 0
  y := 0

structure CalculatorReplyType where
  clientId : String
  result : Int32
  deriving DecidableEq

/-- `ServerApp::calculate`; `none` is its `false`.  The operands are promoted
to `int` before the operation, as in the source. -/
def calculate (request : CalculatorRequestType) : Option Int32 :=
  match request.operation with
  | .addition => some (request.x.toInt32 + request.y.toInt32)
  | .subtraction => some (request.x.toInt32 - request.y.toInt32)
  | .multiplication => some (request.x.toInt32 * request.y.toInt32)
  | .division =>
      if 0 = request.y then none
      else some (request.x.toInt32 / request.y.toInt32)
  | .unknown _ _ => none

theorem calculate_eq_none_iff (request : CalculatorRequestType) :
    calculate request = none ↔
      (request.operation = .division ∧ request.y = 0) ∨
        ∃ value unlisted, request.operation = .unknown value unlisted := by
  unfold calculate
  cases request.operation with
  | division => simp [eq_comm]
  | addition => simp
  | subtraction => simp
  | multiplication => simp
  | unknown value unlisted => simp [unlisted]

end CppProj.RequestReply
