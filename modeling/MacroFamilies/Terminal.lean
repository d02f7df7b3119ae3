/-!
# Text for a terminal

Output is a list of texts and of changes of their look. A terminal without colours shows the texts
only.
-/

namespace MacroFamilies.Terminal

inductive Color where
  | red
  | green
  | yellow
  deriving DecidableEq, Repr

def Color.digit : Color → String
  | .red => "1"
  | .green => "2"
  | .yellow => "3"

inductive Item where
  | text (words : String)
  | look (color : Color) (bold : Bool)
  | reset
  deriving DecidableEq, Repr

def control (code : String) : String := "\x1b[" ++ code ++ "m"

/-- What is written for an item. A new look starts from none. -/
def Item.render (colored : Bool) : Item → String
  | .text words => words
  | .look color bold =>
    if colored then
      control "0" ++ (if bold then control "1" else "") ++ control ("3" ++ color.digit)
    else ""
  | .reset => if colored then control "0" else ""

def render (colored : Bool) (items : List Item) : String :=
  String.join (items.map (·.render colored))

def line (text : String) : Item := .text (text ++ "\n")

end MacroFamilies.Terminal
