import BoardWiring.Document.Build

/-!
# Documents

The text of a document is read as a value.

* `Document.read` does so.
-/

namespace BoardWiring

namespace Document

/-- The value that the text of a document stands for; a text without a document stands for null.
Halves of surrogate pairs may not stand in a document, they can only be escaped there. -/
def read : Loader := fun text =>
  match text.chars? with
  | none => .error notDocument
  | some cs => do
    let ts ← Tokens.ofText cs
    match ← Graph.ofTokens? ts with
    | some g => g.value
    | none => pure .null

end Document

end BoardWiring
