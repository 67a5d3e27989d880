/-!
# Values of a TOML document

Strings, integers, truth values, arrays and tables, each table with its keys in the order of the
document. Floats and moments of time are kept as they were written.
-/

namespace AndroidBoot.Toml

inductive Value where
  | string (s : String)
  | integer (n : Int)
  | float (written : String)
  | boolean (b : Bool)
  | moment (written : String)
  | array (items : List Value)
  | table (entries : List (String × Value))

/-- Integers have 64 bits, one of them for the sign. -/
def integerMin : Int := -0x8000000000000000

def integerMax : Int := 0x7FFFFFFFFFFFFFFF

abbrev Table := List (String × Value)

end AndroidBoot.Toml
