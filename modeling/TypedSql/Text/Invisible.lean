import TypedSql.Text.Combining
import TypedSql.Text.Unassigned

/-!
# Characters without a shape of their own

The characters that a message cannot show as they are: the ones that leave no mark on the page, the
marks that combine with the character before them, and code points that are no character. All are
taken as of version 17 of Unicode.
-/

namespace TypedSql.Text

/--
Control characters, format characters, characters of private use, and all separators but the blank.
-/
def blankRanges : List CodePointRange :=
  [(0x0, 0x1f), (0x7f, 0xa0), (0xad, 0xad), (0x600, 0x605), (0x61c, 0x61c), (0x6dd, 0x6dd),
   (0x70f, 0x70f), (0x890, 0x891), (0x8e2, 0x8e2), (0x1680, 0x1680), (0x180e, 0x180e),
   (0x2000, 0x200f), (0x2028, 0x202f), (0x205f, 0x2064), (0x2066, 0x206f), (0x3000, 0x3000),
   (0xe000, 0xf8ff), (0xfeff, 0xfeff), (0xfff9, 0xfffb), (0x110bd, 0x110bd), (0x110cd, 0x110cd),
   (0x13430, 0x1343f), (0x1bca0, 0x1bca3), (0x1d173, 0x1d17a), (0xe0001, 0xe0001),
   (0xe0020, 0xe007f), (0xf0000, 0xffffd), (0x100000, 0x10fffd)]

/-- Code points that a display passes over, among them fillers that count as letters. -/
def ignorableRanges : List CodePointRange :=
  [(0xad, 0xad), (0x34f, 0x34f), (0x61c, 0x61c), (0x115f, 0x1160), (0x17b4, 0x17b5),
   (0x180b, 0x180f), (0x200b, 0x200f), (0x202a, 0x202e), (0x2060, 0x206f), (0x3164, 0x3164),
   (0xfe00, 0xfe0f), (0xfeff, 0xfeff), (0xffa0, 0xffa0), (0xfff0, 0xfff8), (0x1bca0, 0x1bca3),
   (0x1d173, 0x1d17a), (0xe0000, 0xe0fff)]

/-- The character would not be seen, or not by itself. -/
def isInvisible (c : Char) : Bool :=
  inRanges blankRanges c || inRanges ignorableRanges c || inRanges combiningRanges c ||
    inRanges unassignedRanges c

end TypedSql.Text
