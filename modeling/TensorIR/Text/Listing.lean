/-!
# TensorIR.Text.Listing

Sequences in messages and in the textual form of a program: the items, joined by a separator and
enclosed in brackets.
-/

namespace TensorIR
namespace Text

/-- The items joined by `separator`; nothing for no items. -/
def joined (separator : String) (items : List String) : String :=
  separator.intercalate items

/-- Sizes joined by `separator` in square brackets. -/
def bracketed (separator : String) (sizes : List Nat) : String :=
  "[" ++ joined separator (sizes.map toString) ++ "]"

/-- A list of sizes as messages show it: `[1, 2, 3]`. -/
def sizes : List Nat → String := bracketed ", "

end Text
end TensorIR
