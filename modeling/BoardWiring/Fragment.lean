import BoardWiring.ConfigError

/-!
# Fragments

A run of generated statements, with the names that they introduce and the errors for which
statements stand that fail the build.

* `Fragment` has an empty element and a sum (`Fragment.append_assoc`, `Fragment.append_empty`,
  `Fragment.empty_append`);
* `Fragment.render` is the text of a fragment, `Fragment.firstDiagnostic?` the error that stops
  the generation.
-/

namespace BoardWiring

/-- A run of generated statements. -/
structure Fragment where
  /-- Lines of the statements. -/
  lines : List String
  /-- Names that the statements introduce, in order. -/
  bindings : List String
  /-- Errors that some of the statements stand for. -/
  diagnostics : List ConfigError
  /-- The fragment stands for a feature that the family does not have. -/
  unsupported : Bool
  deriving Inhabited

namespace Fragment

/-- The fragment without statements. -/
def empty : Fragment := ⟨[], [], [], false⟩

/-- A fragment of lines that introduce names. -/
def ofLines (lines bindings : List String) : Fragment := ⟨lines, bindings, [], false⟩

/-- The statements of two fragments, one after the other. -/
def append (f g : Fragment) : Fragment :=
  ⟨f.lines ++ g.lines, f.bindings ++ g.bindings, f.diagnostics ++ g.diagnostics,
    f.unsupported || g.unsupported⟩

instance : Append Fragment := ⟨append⟩

/-- The statements of several fragments in order. -/
def concat (fs : List Fragment) : Fragment := fs.foldr append empty

/-- The fragment has no lines. -/
def isEmpty (f : Fragment) : Bool := f.lines.isEmpty

/-- A line with an indent, which an empty line does not get. -/
def indented (indent line : String) : String := if line = "" then "" else indent ++ line

/-- The text of a fragment. -/
def render (indent : String) (f : Fragment) : String :=
  String.intercalate "\n" (f.lines.map (indented indent))

/-- The first error carried by any of the fragments. -/
def firstDiagnostic? (fs : List Fragment) : Option ConfigError :=
  fs.findSome? fun f => f.diagnostics.head?

/-- Fails with the first error carried by any of the fragments. -/
def check (fs : List Fragment) : Except ConfigError Unit :=
  match firstDiagnostic? fs with
  | some e => .error e
  | none => .ok ()

/-- The statement that binds a name to a list of others. -/
def array (name : String) (items : List String) : Fragment :=
  ofLines ["let " ++ name ++ " = [" ++ String.intercalate ", " items ++ "];"] [name]

/-! ### Sums -/

@[simp] theorem lines_append (f g : Fragment) : (f ++ g).lines = f.lines ++ g.lines := rfl

@[simp] theorem bindings_append (f g : Fragment) :
    (f ++ g).bindings = f.bindings ++ g.bindings := rfl

@[simp] theorem diagnostics_append (f g : Fragment) :
    (f ++ g).diagnostics = f.diagnostics ++ g.diagnostics := rfl

@[simp] theorem unsupported_append (f g : Fragment) :
    (f ++ g).unsupported = (f.unsupported || g.unsupported) := rfl

@[simp] theorem empty_append (f : Fragment) : empty ++ f = f := by
  cases f
  rfl

@[simp] theorem append_empty (f : Fragment) : f ++ empty = f := by
  cases f with
  | mk lines bindings diagnostics unsupported =>
    change Fragment.mk (lines ++ []) (bindings ++ []) (diagnostics ++ []) (unsupported || false) = _
    simp only [List.append_nil, Bool.or_false]

theorem append_assoc (f g h : Fragment) : f ++ g ++ h = f ++ (g ++ h) := by
  change Fragment.mk (f.lines ++ g.lines ++ h.lines) (f.bindings ++ g.bindings ++ h.bindings)
    (f.diagnostics ++ g.diagnostics ++ h.diagnostics)
    (f.unsupported || g.unsupported || h.unsupported) = _
  simp only [List.append_assoc, Bool.or_assoc]
  rfl

end Fragment

end BoardWiring
