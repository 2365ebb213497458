import Tabletop.Program.Lowering
import Tabletop.Script.Reading

/-!
# Programs of source texts

A source text is compiled as a script, or all of it as the body of a template.
-/

namespace Tabletop.Program

/-- The program of a source text. -/
def ofSource (source : String) : Except SyntaxError Program :=
  (Script.ofSource source).map Script.compile

/-- The program of a source text that is the body of a template. -/
def ofTemplate (source : String) : Except SyntaxError Program :=
  (Script.ofTemplate source).map Script.compile

end Tabletop.Program
