import KeywordSieve.Unicode.Table

/-!
White space: the characters that trimming removes and that may stand between a keyword and its
parenthesis. The class holds the Unicode space separators, the line and paragraph separators and
the control characters that separate fields, lines and records.
-/
namespace KeywordSieve.Unicode

/-- The white space of Unicode, together with the four information separators. -/
def blankRanges : List (Nat × Nat) := [
    (9, 0xd), (0x1c, 0x20), (0x85, 0x85), (0xa0, 0xa0), (0x1680, 0x1680), (0x2000, 0x200a),
    (0x2028, 0x2029), (0x202f, 0x202f), (0x205f, 0x205f), (0x3000, 0x3000)]

def isBlank (c : Char) : Bool := inRanges blankRanges c

end KeywordSieve.Unicode
