import Parley.Text.Hex

/-! Opaque colors, written as a number sign and six hexadecimal digits. -/
namespace Parley

structure Color where
  red : UInt8
  green : UInt8
  blue : UInt8
deriving DecidableEq, Inhabited

/-- A text that is no color. -/
structure ColorFault where
  text : String
deriving DecidableEq

def ColorFault.message (fault : ColorFault) : String :=
  s!"invalid color '{fault.text}': expected #RRGGBB"

namespace Color

def channel (high low : Nat) : UInt8 := UInt8.ofNat (16 * high + low)

/-- Six hexadecimal digits, with at most one number sign in front. -/
def parse (text : String) : Except ColorFault Color :=
  let digits := match text.toList with
    | '#' :: rest => rest
    | all => all
  match digits.mapM Text.hexValue? with
  | some [a, b, c, d, e, f] => .ok ⟨channel a b, channel c d, channel e f⟩
  | _ => .error ⟨text⟩

def channelText (channel : UInt8) : List Char :=
  [Text.upperHex (channel.toNat / 16), Text.upperHex (channel.toNat % 16)]

/-- The six digits, in upper case. -/
def hex (c : Color) : String :=
  String.ofList (channelText c.red ++ channelText c.green ++ channelText c.blue)

def toText (c : Color) : String := "#" ++ c.hex

end Color
end Parley
