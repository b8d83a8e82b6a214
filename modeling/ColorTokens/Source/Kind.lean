import ColorTokens.Path
import ColorTokens.Text.Lowercase

/-! Kinds of source files, told by the extension of the path. -/

set_option autoImplicit false

namespace ColorTokens.Source

open ColorTokens.Text

inductive Kind where
  | styleModule
  | component
  | unknown
  deriving DecidableEq, Repr, Inhabited

namespace Kind

def name : Kind → String
  | .styleModule => "style-module"
  | .component => "component"
  | .unknown => "unknown"

def ofExtension (extension : String) : Kind :=
  let lowered := lowercase extension.toList
  if lowered == "css".toList then .styleModule
  else if lowered == "tsx".toList || lowered == "jsx".toList then .component
  else .unknown

def ofPath (path : String) : Kind :=
  ((Path.extension? path).map ofExtension).getD .unknown

end Kind

end ColorTokens.Source
