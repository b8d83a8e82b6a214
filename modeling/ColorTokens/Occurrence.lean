import ColorTokens.Text.Position
import ColorTokens.Text.Span

/-! Occurrences of colour literals. A hit is a literal with its canonical colour and the context
it belongs to; an occurrence is a hit placed in a file. -/

set_option autoImplicit false

namespace ColorTokens

open ColorTokens.Text

/-- Where a literal was found, by the name of the property, attribute or binding. -/
inductive Context where
  | styleDeclaration (property : String)
  | markupAttribute (name : String)
  | inlineStyle (property : String)
  | dictionary (binding : String)
  deriving DecidableEq, Repr

def Context.label : Context → String
  | .styleDeclaration property => "css:" ++ property
  | .markupAttribute name => "tsx-jsx-attr:" ++ name
  | .inlineStyle property => "tsx-style-prop:" ++ property
  | .dictionary binding => "tsx-color-dict:" ++ binding

structure Hit where
  span : Span
  /-- The literal as written. -/
  raw : String
  /-- The canonical colour. -/
  color : String
  context : Context
  deriving DecidableEq, Repr

structure Occurrence extends Hit where
  file : String
  position : Position
  deriving DecidableEq, Repr

end ColorTokens
