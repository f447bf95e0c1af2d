import BoardWiring.Fragment
import BoardWiring.Text.JsonString

/-!
# Diagnostics

A statement that fails the build of the generated code with the message of an error.

* `Diagnostic.expression` is the failing expression for a message;
* `Diagnostic.statement` and `Diagnostic.binding` are the statements for an error, without a name
  and in the place of a name's initialiser.
-/

namespace BoardWiring

namespace Diagnostic

/-- The expression that fails the build with a message. -/
def expression (message : String) : String :=
  "::core::compile_error!(" ++ JsonString.literal message ++ ")"

/-- The statement that stands for an error. -/
def statement (e : ConfigError) : Fragment :=
  ⟨[expression e.message ++ ";"], [], [e], false⟩

/-- The statement that stands for an error and still introduces a name. -/
def binding (name : String) (e : ConfigError) : Fragment :=
  ⟨["let " ++ name ++ " = " ++ expression e.message ++ ";"], [name], [e], false⟩

/-- The fragment for an error, which introduces a name unless it is empty. -/
def fragment (e : ConfigError) (name : String) : Fragment :=
  if name = "" then statement e else binding name e

end Diagnostic

end BoardWiring
