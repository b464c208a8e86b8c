import Rehost.Text.Basic

/-! Blank characters: the separators and controls that count as white space in a script. The zero-width space, the
Mongolian vowel separator and the byte order mark do not. -/
namespace Rehost.Text

def isBlank (c : CodePoint) : Bool :=
  let n := c.number
  (9 ≤ n && n ≤ 13) || (0x1c ≤ n && n ≤ 0x20) || n = 0x85 || n = 0xa0 || n = 0x1680 ||
    (0x2000 ≤ n && n ≤ 0x200a) || n = 0x2028 || n = 0x2029 || n = 0x202f || n = 0x205f || n = 0x3000

end Rehost.Text
