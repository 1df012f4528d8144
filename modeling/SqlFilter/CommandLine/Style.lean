/-! Colours of a terminal. -/
namespace SqlFilter.CommandLine

inductive Style
  | yellow
  | white
  | cyan
  | dimmed
  | boldGreen
  | boldRed
  deriving DecidableEq, Repr

def Style.code : Style → String
  | .yellow => "33"
  | .white => "37"
  | .cyan => "36"
  | .dimmed => "2"
  | .boldGreen => "1;32"
  | .boldRed => "1;31"

/--
Whether output is coloured, from the variables `CLICOLOR_FORCE`, `NO_COLOR` and `CLICOLOR`. The
first one forces colours, else the second one forbids them; otherwise a terminal has them unless
the third one is `0`.
-/
def wantsColors (terminal : Bool) (force forbid wish : Option String) : Bool :=
  let isOn (setting : Option String) : Option Bool := setting.map (· != "0")
  isOn force = some true || (forbid.isNone && terminal && (isOn wish).getD true)

def resetText : String := "\x1b[0m"

/-- A text in a style, which begins again behind each end of a style inside the text. -/
def Style.paint (style : Style) (colors : Bool) (text : String) : String :=
  let opening := "\x1b[" ++ style.code ++ "m"
  if colors then opening ++ text.replace resetText (resetText ++ opening) ++ resetText else text

end SqlFilter.CommandLine
