/-!
# Text.Blank -- which texts count as empty

A name made of white space alone is as good as none.  White space is the
Unicode property of that name, so a no-break space or an ideographic space is
blank and a zero-width space is not.
-/

namespace RunExchange.Text

set_option autoImplicit false

/-- The code points of the Unicode property White_Space, as closed ranges. -/
def whiteRanges : List (Nat × Nat) :=
  [(0x09, 0x0D), (0x20, 0x20), (0x85, 0x85), (0xA0, 0xA0), (0x1680, 0x1680),
   (0x2000, 0x200A), (0x2028, 0x2029), (0x202F, 0x202F), (0x205F, 0x205F),
   (0x3000, 0x3000)]

def isWhite (c : Char) : Bool :=
  whiteRanges.any fun range => range.1 ≤ c.toNat && c.toNat ≤ range.2

/-- A text is blank when every one of its characters is white space. -/
def isBlank (text : String) : Bool :=
  text.toList.all isWhite

theorem isBlank_eq_false_iff {text : String} :
    isBlank text = false ↔ ∃ c ∈ text.toList, isWhite c = false := by
  simp [isBlank]

example : isBlank "" = true := rfl

end RunExchange.Text
