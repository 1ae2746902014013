set_option autoImplicit false

/-! # Name, address and colours

What the program calls itself, where its service listens unless told otherwise, and the colours
of its window.
-/

namespace DeskCalc

namespace Product

/-- The name on the window and in the service's answers. -/
def name : String := "PocketCalc"

/-- The version in the service's answers. -/
def version : String := "1.0.0"

/-- The address on which the service listens; this one stands for all addresses. -/
def anyHost : String := "0.0.0.0"

/-- The TCP port on which the service listens. -/
def tcpPort : Int := 8888

end Product

/-! ## Themes

The colours of the window: a light palette, soft sage green, and a dark one, deep slate.
-/

/-- The colours of a theme. -/
structure Palette where
  background : String
  backgroundDark : String
  shadowDark : String
  shadowLight : String
  displayBackground : String
  displayText : String
  buttonBackground : String
  buttonText : String
  operatorText : String
  equalsBackground : String
  equalsText : String
  modeText : String
  modeBackground : String
  accent : String
  subtext : String
  danger : String
  deriving DecidableEq, Repr

namespace Palette

/-- The light palette. -/
def light : Palette where
  background := "#DDE6ED"
  backgroundDark := "#C8D4DF"
  shadowDark := "#B2BFC8"
  shadowLight := "#FFFFFF"
  displayBackground := "#C8D4DF"
  displayText := "#1A2332"
  buttonBackground := "#DDE6ED"
  buttonText := "#2B3A4A"
  operatorText := "#1E7A56"
  equalsBackground := "#2E8B57"
  equalsText := "#FFFFFF"
  modeText := "#2C5F8A"
  modeBackground := "#C8D4DF"
  accent := "#2E8B57"
  subtext := "#6E8090"
  danger := "#B03A2E"

/-- The dark palette. -/
def dark : Palette where
  background := "#1E2530"
  backgroundDark := "#161C26"
  shadowDark := "#10161E"
  shadowLight := "#283040"
  displayBackground := "#161C26"
  displayText := "#9ADDB0"
  buttonBackground := "#1E2530"
  buttonText := "#BDD0E0"
  operatorText := "#4DB888"
  equalsBackground := "#2D8A58"
  equalsText := "#FFFFFF"
  modeText := "#5E8FC8"
  modeBackground := "#283040"
  accent := "#4DB888"
  subtext := "#4E6070"
  danger := "#E55A4E"

/-- The palette in dark mode, or else the light one. -/
def ofDark (isDark : Bool) : Palette := if isDark then dark else light

/-- The colours with their names, in the order of the names. -/
def entries (p : Palette) : List (String × String) :=
  [("accent", p.accent), ("bg", p.background), ("bg_dark", p.backgroundDark),
   ("btn_bg", p.buttonBackground), ("btn_fg", p.buttonText), ("danger", p.danger),
   ("display_bg", p.displayBackground), ("display_fg", p.displayText),
   ("equals_bg", p.equalsBackground), ("equals_fg", p.equalsText), ("mode_bg", p.modeBackground),
   ("mode_fg", p.modeText), ("operator_fg", p.operatorText), ("shadow_dark", p.shadowDark),
   ("shadow_lite", p.shadowLight), ("subtext", p.subtext)]

end Palette

end DeskCalc
