import SqlCanvas.Text.Interval
import SqlCanvas.Text.Table.Unprintable

/-!
# Printable characters

A character is printable when it has a form of its own on paper; the plain space counts, every other
separator does not.
-/

namespace SqlCanvas.Text

def isPrintable (c : Char) : Bool :=
  let n := c.toNat
  if n < 127 then 32 ≤ n else !Interval.contains Table.unprintable n

end SqlCanvas.Text
