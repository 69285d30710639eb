/-!
# Faults of calculations

Why an expression has no value, by cause.
-/

namespace TaskShell.Calc

inductive CalcFault where
  | zeroDivision (message : String)
  | overflow (message : String)
  | kind (message : String)
  | value (message : String)
  | malformed (message : String)
  | member (message : String)
  | index (message : String)
  deriving DecidableEq, Repr

def CalcFault.message : CalcFault → String
  | zeroDivision m | overflow m | kind m | value m | malformed m |
      member m | index m => m

end TaskShell.Calc
