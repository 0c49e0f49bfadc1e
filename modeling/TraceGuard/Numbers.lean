import TraceGuard.Json

/-! Python numbers: integers of any size and doubles. Comparisons are exact; an integer too
large for a double raises when it has to become one. -/

inductive PyNumber where
  | int (n : Int)
  | float (x : Double)

namespace PyNumber
open Json

/-- The number behind a value of type `int`, `float` or `bool`. -/
def ofJson : Json → Option PyNumber
  | .bool b => some (.int (if b then 1 else 0))
  | .int n => some (.int n)
  | .float x => some (.float x)
  | _ => none

def exact : PyNumber → Exact
  | .int n => exactInt n
  | .float x => exactFloat x

/-- `a <= b`. -/
def le (a b : PyNumber) : Bool := a.exact.le b.exact

def zero : PyNumber := .int 0

/-- `math.isfinite(a)`; `none` is an `OverflowError`. -/
def isFinite : PyNumber → Option Bool
  | .int n => (Double.ofInt n).map fun _ => true
  | .float x => some x.isFinite

def toDouble : PyNumber → Option Double
  | .int n => Double.ofInt n
  | .float x => some x

/-- `a + b`; `none` is an `OverflowError`. -/
def add : PyNumber → PyNumber → Option PyNumber
  | .int m, .int n => some (.int (m+n))
  | a, b => do
    let x ← a.toDouble
    let y ← b.toDouble
    some (.float (x.add y))

end PyNumber
