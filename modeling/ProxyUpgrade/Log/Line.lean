import ProxyUpgrade.Text.Basic
/-!
# Log lines

A line of the log has a level, the name of the part of the program that wrote it, and a message. In
its text, characters that a terminal would act on are replaced by escapes.
-/

namespace ProxyUpgrade.Log

/-- How important a line is. -/
inductive Level where
  | trace
  | debug
  | info
  | warn
  | error
  deriving DecidableEq

namespace Level

/-- The name of a level. -/
def name : Level → String
  | trace => "trace"
  | debug => "debug"
  | info => "info"
  | warn => "warn"
  | error => "error"

/-- All levels. -/
def all : List Level := [trace, debug, info, warn, error]

/-- The level of a name. -/
def ofName? (text : String) : Option Level := all.find? (·.name == text)

/-- The level in front of a line, five characters wide. -/
def mark : Level → String
  | trace => "TRACE"
  | debug => "DEBUG"
  | info => " INFO"
  | warn => " WARN"
  | error => "ERROR"

end Level

/-- A line of the log. -/
structure Line where
  level : Level
  /-- The part of the program that wrote the line. -/
  source : String
  message : String

/-- A character as it is shown in a line. -/
def escapeChar (c : Char) : String :=
  let n := c.toNat
  if n = 0x1b then "\\x1b"
  else if n = 0x07 then "\\x07"
  else if n = 0x08 then "\\x08"
  else if n = 0x0c then "\\x0c"
  else if n = 0x7f then "\\x7f"
  else if 0x80 ≤ n ∧ n ≤ 0x9f then
    "\\u\x7b" ++ String.ofList (Nat.toDigits 16 n) ++ "\x7d"
  else c.toString

/-- The text of a line, with the end of the line. -/
def Line.text (line : Line) : String :=
  line.level.mark ++ " " ++ line.source ++ ": " ++
    String.join (line.message.toList.map escapeChar) ++ "\n"

/-- The text of lines, without the blanks at its end. -/
def text (lines : List Line) : String :=
  String.ofList (Text.trimEnd (String.join (lines.map Line.text)).toList)

end ProxyUpgrade.Log
