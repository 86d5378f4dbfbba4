/-! # Colours

A `Palette` holds the escape sequences that wrap three kinds of text in a dump or a trace: the
names of kinds and states, the source text, and details such as markers and positions. -/

namespace Nesting

/-- What is written around coloured text. -/
structure Palette where
  blue : String
  green : String
  dim : String
  reset : String
  deriving DecidableEq, Repr

namespace Palette

def on : Palette :=
  { blue := "\x1b[34m", green := "\x1b[32m", dim := "\x1b[2m", reset := "\x1b[0m" }

def off : Palette := { blue := "", green := "", dim := "", reset := "" }

instance : Inhabited Palette := ⟨off⟩

def ofBool (enabled : Bool) : Palette := if enabled then on else off

/-- Wraps a text, unless the code is empty. -/
def paint (p : Palette) (code text : String) : String :=
  if code.isEmpty then text else code ++ text ++ p.reset

/-- The name of a kind of tree or of a state. -/
def kind (p : Palette) (text : String) : String := p.paint p.blue text

/-- Source text. -/
def text (p : Palette) (s : String) : String := p.paint p.green s

/-- Markers and positions. -/
def detail (p : Palette) (s : String) : String := p.paint p.dim s

end Palette

end Nesting
