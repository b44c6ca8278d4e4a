import Scaffold.Text.Basic

/-! White space: the ASCII controls from tab to carriage return and from file to unit
separator, the space, and the spaces and separators of the wider repertoire. -/

namespace Scaffold.Text

def blankRanges : List (Nat × Nat) :=
  [ (0x09, 0x0D), (0x1C, 0x20), (0x85, 0x85), (0xA0, 0xA0), (0x1680, 0x1680),
    (0x2000, 0x200A), (0x2028, 0x2029), (0x202F, 0x202F), (0x205F, 0x205F), (0x3000, 0x3000) ]

def isBlank (c : Char) : Bool :=
  within blankRanges c

def skipBlank (t : Text) : Text :=
  trimStart isBlank t

def stripEnd (t : Text) : Text :=
  trimEnd isBlank t

def strip (t : Text) : Text :=
  trim isBlank t

end Scaffold.Text
