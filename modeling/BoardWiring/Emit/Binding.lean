import BoardWiring.Diagnostic
import BoardWiring.Emit.Expression
import BoardWiring.Pin.Name

/-!
# Bindings of pins

The statement that binds a name to an initialised pin.  A pin that cannot do what is asked of it
gets a statement that fails the build; all other faults stop the generation at once.  A pin is
spelled out for its own name, so that name is missing where the spelling has too long a number.

* `Emit.bind` is the statement for a name, `Emit.outputPin` and `Emit.inputPin` those under the
  pin's own name.
-/

namespace BoardWiring

namespace Emit

/-- How the expression for a pin stands in its statement. -/
inductive Wrap where
  | plain
  | some
  deriving DecidableEq

/-- An expression in its place. -/
def Wrap.apply : Wrap → String → String
  | .plain, e => e
  | .some, e => "Some(" ++ e ++ ")"

/-- The statement that binds a name to an expression. -/
def statement (name expression : String) : Fragment :=
  Fragment.ofLines ["let " ++ name ++ " = " ++ expression ++ ";"] [name]

/-- The statement that binds a name to an initialised pin. -/
def bind (family : Family) (name : String) (pin : Pin) (role : Role) (activeLow : Bool)
    (wrap : Wrap) : Except Failure Fragment :=
  match initialiser family pin role activeLow with
  | .ok e => .ok (statement name (wrap.apply e))
  | .error (.config (.unsupportedCapability raw reason)) =>
    .ok (Diagnostic.fragment (.unsupportedCapability raw reason) name)
  | .error f => .error f

/-- The name of a pin; a pin whose spelling cannot be written has none. -/
def ownName (pin : Pin) : Except Failure String := do
  pin.checkText
  pure pin.name

/-- The name given, or the pin's own if it is missing or empty. -/
def nameOr (pin : Pin) (name : Option String) : Except Failure String :=
  match name with
  | some s => if s = "" then ownName pin else .ok s
  | none => ownName pin

/-- The statement for an output. -/
def outputPin (family : Family) (pin : Pin) (activeLow : Bool) (name : Option String) :
    Except Failure Fragment := do
  let name ← nameOr pin name
  bind family name pin .output activeLow .plain

/-- The statement for an input. -/
def inputPin (family : Family) (pin : Pin) (role : Role) (activeLow : Bool)
    (name : Option String) : Except Failure Fragment :=
  if role = .output then .error .outputAsInput
  else do
    let name ← nameOr pin name
    bind family name pin role activeLow .plain

end Emit

end BoardWiring
