import DeskCalc.Json.Basic
import DeskCalc.Product
import DeskCalc.Window.Basic

set_option autoImplicit false

/-! # The widgets of the window

The tree of widgets of a window: a bar with the name and the button for the theme, the display
as a card set into the surface, and the keypad on a grid of four columns. Colours come from the
palette on show and nothing else depends on the theme, except the text of its button.
-/

namespace DeskCalc

/-! ## Widgets

A window is described by a tree of widgets. Options are named values; a widget is placed in its
parent by one of two managers, and may lay out a grid for its own children.
-/

/-- Named values. -/
abbrev Options := List (String × Json)

/-- The kinds of widget. -/
inductive WidgetKind where
  | root
  | frame
  | label
  | button
  deriving DecidableEq, Repr

/-- How a widget is placed in its parent. -/
inductive Placement where
  | pack (options : Options)
  | grid (options : Options)

/-- A widget with everything in it. -/
structure Widget where
  kind : WidgetKind
  options : Options
  placement : Option Placement
  /-- The columns of the widget's grid, by number. -/
  columns : List (Nat × Options)
  /-- The rows of the widget's grid, by number. -/
  rows : List (Nat × Options)
  /-- The size follows the children. -/
  propagate : Bool
  /-- The events that the widget handles. -/
  bindings : List String
  children : List Widget

namespace Widget

/-- A widget without a grid of its own or bindings. -/
def simple (kind : WidgetKind) (options : Options) (placement : Placement)
    (children : List Widget) : Widget :=
  ⟨kind, options, some placement, [], [], true, [], children⟩

/-- A frame. -/
def frame (options : Options) (placement : Placement) (children : List Widget) : Widget :=
  simple .frame options placement children

/-- A label. -/
def label (options : Options) (placement : Placement) : Widget :=
  simple .label options placement []

/-- A button. -/
def button (options : Options) (placement : Placement) : Widget :=
  simple .button options placement []

end Widget

/-! ## The window -/

namespace Window

/-! ### Values of options -/

/-- A text. -/
private def str (s : String) : Json := .string s

/-- A number. -/
private def num (n : Nat) : Json := .int n

/-- Two amounts of space, one for each side. -/
private def sides (before after : Nat) : Json := .array [num before, num after]

/-- A typeface at a size. -/
private def font (family : String) (size : Nat) : Json := .array [str family, num size]

/-- A typeface at a size, in bold. -/
private def boldFont (family : String) (size : Nat) : Json :=
  .array [str family, num size, str "bold"]

/-- The typeface of the display. -/
private def displayFamily : String := "Consolas"

/-- The typeface of everything else. -/
private def plainFamily : String := "Segoe UI"

/-! ### Buttons -/

/-- The background, the text and the background while pressed, for each look of a button. -/
def buttonColours (p : Palette) : Keys.Style → String × String × String
  | .equals => (p.equalsBackground, p.equalsText, p.accent)
  | .operator => (p.buttonBackground, p.operatorText, p.backgroundDark)
  | .mode => (p.modeBackground, p.modeText, p.shadowDark)
  | .danger => (p.danger, "#FFFFFF", p.backgroundDark)
  | .normal => (p.buttonBackground, p.buttonText, p.backgroundDark)

/-- A flat button. -/
private def flatButton (p : Palette) (text : String) (style : Keys.Style) (face : Json)
    (more : Options) (placement : Placement) : Widget :=
  let (background, foreground, pressed) := buttonColours p style
  .button
    ([("text", str text), ("command", .bool true), ("font", face),
      ("bg", str background), ("fg", str foreground),
      ("activebackground", str pressed), ("activeforeground", str foreground),
      ("relief", str "flat"), ("bd", num 0), ("cursor", str "hand2"),
      ("highlightthickness", num 1), ("highlightbackground", str p.shadowDark),
      ("highlightcolor", str p.shadowLight)] ++ more)
    placement

/-! ### The three parts -/

/-- The bar at the top. -/
private def bar (p : Palette) (dark : Bool) : Widget :=
  .frame [("bg", str p.backgroundDark), ("height", num 40)]
    (.pack [("fill", str "x"), ("padx", num 2), ("pady", num 2)])
    [.label
      [("text", str Product.name), ("font", boldFont plainFamily 14),
       ("bg", str p.backgroundDark), ("fg", str p.accent)]
      (.pack [("side", str "left"), ("padx", num 8)]),
     flatButton p (themeGlyph dark) .mode (font plainFamily 11) [("width", num 3)]
      (.pack [("side", str "right"), ("padx", num 4), ("pady", num 2)])]

/-- One line of the display. -/
private def line (p : Palette) (text : String) (size : Nat) (colour : String) (space : Nat)
    (side : String) : Widget :=
  .label
    [("text", str text), ("font", boldFont displayFamily size),
     ("bg", str p.displayBackground), ("fg", str colour),
     ("anchor", str "e"), ("padx", num 12), ("pady", num space)]
    (.pack [("side", str side), ("fill", str "x")])

/-- The display: a shadow, a rim of light and the card with the two lines. -/
private def screen (w : Window) : Widget :=
  let p := w.palette
  let card : Widget :=
    { kind := .frame
      options := [("bg", str p.displayBackground), ("height", num 130)]
      placement := some (.pack
        [("fill", str "both"), ("expand", .bool true), ("padx", sides 0 1), ("pady", sides 0 1)])
      columns := []
      rows := []
      propagate := false
      bindings := []
      children :=
        [line p w.lines.expression 24 p.subtext 2 "top",
         line p w.lines.result 32 w.resultColour 0 "bottom"] }
  .frame [("bg", str p.shadowDark), ("bd", num 0)]
    (.pack [("fill", str "x"), ("padx", num 6), ("pady", sides 4 6)])
    [.frame [("bg", str p.shadowLight), ("bd", num 0)]
      (.pack
        [("fill", str "both"), ("expand", .bool true), ("padx", sides 1 0), ("pady", sides 1 0)])
      [card]]

/-- The key with the given label in a cell of the grid. -/
private def gridKey (p : Palette) (row column : Nat) (label : String) : Widget :=
  let place := Keys.place label
  flatButton p label place.style (font plainFamily 16) []
    (.grid
      [("row", num row), ("column", num column), ("rowspan", num place.rowSpan),
       ("columnspan", num place.columnSpan), ("sticky", str "nsew"), ("padx", num 3),
       ("pady", num 3)])

/-- The keys of a row, each after the columns that the keys before it span. -/
private def gridRow (p : Palette) (row column : Nat) : List String → List Widget
  | [] => []
  | label :: labels =>
      gridKey p row column label ::
        gridRow p row (column + (Keys.place label).columnSpan) labels

/-- The keypad. -/
private def keyGrid (p : Palette) : Widget where
  kind := .frame
  options := [("bg", str p.background)]
  placement := some (.pack
    [("fill", str "both"), ("expand", .bool true), ("padx", num 5), ("pady", num 3)])
  columns := (List.range 4).map fun column =>
    (column, [("weight", num 1), ("uniform", str "keys")])
  rows := (List.range Keys.rows.length).map fun row => (row, [("weight", num 1)])
  propagate := true
  bindings := []
  children := (Keys.rows.zipIdx.map fun (labels, row) => gridRow p row 0 labels).flatten

/-- The tree of widgets of a window. -/
def view (w : Window) : Widget where
  kind := .root
  options :=
    [("title", str Product.name), ("geometry", str "360x520"), ("bg", str w.palette.background)]
  placement := none
  columns := []
  rows := []
  propagate := true
  bindings := ["<Key>"]
  children := [bar w.palette w.dark, screen w, keyGrid w.palette]

end Window

end DeskCalc
