/-!
# Spans of time

A span is a number of milliseconds. It is shown in seconds with as many of three decimals as are
needed, in milliseconds below one second, and as `0ns` when there is none.
-/

namespace ProxyUpgrade

/-- A span of time in milliseconds. -/
abbrev Span := Nat

namespace Span

/-- The decimals of a number of thousandths below one, without zeros at the end. -/
def decimals (thousandths : Nat) : String :=
  if thousandths % 1000 = 0 then ""
  else if thousandths % 100 = 0 then "." ++ toString (thousandths / 100)
  else if thousandths % 10 = 0 then
    "." ++ toString (thousandths / 100) ++ toString (thousandths / 10 % 10)
  else "." ++ toString (thousandths / 100) ++ toString (thousandths / 10 % 10) ++
    toString (thousandths % 10)

/-- The text of a span. -/
def text (span : Span) : String :=
  if span = 0 then "0ns"
  else if span < 1000 then toString span ++ "ms"
  else toString (span / 1000) ++ decimals (span % 1000) ++ "s"

end Span

end ProxyUpgrade
