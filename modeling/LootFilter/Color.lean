import LootFilter.Binary64
import LootFilter.Source

/-! Colours and alert sounds that rules set. -/

set_option autoImplicit false

namespace LootFilter

structure Color where
  red : Binary64
  green : Binary64
  blue : Binary64
  alpha : Binary64
  deriving DecidableEq, Repr

namespace Color

def channelScale : Nat := 255

def channel (number : Int) : Binary64 := Binary64.ofRatio number channelScale

def channelNumber? (channel : Binary64) : Option Int := (channel.times channelScale).truncated?

inductive Unbounded where
  | infinite
  | notANumber
  deriving DecidableEq, Repr

def channelNumber (channel : Binary64) : Except Unbounded Int :=
  match channel.times channelScale, channelNumber? channel with
  | _, some number => .ok number
  | .nan, none => .error .notANumber
  | _, none => .error .infinite

/-- The channels as a filter writes them. A full alpha is left out unless it is asked for. -/
def presentation (color : Color) (alwaysShowAlpha : Bool) : Except Unbounded String := do
  let red ← channelNumber color.red
  let green ← channelNumber color.green
  let blue ← channelNumber color.blue
  let alpha ← channelNumber color.alpha
  let text := s!"{red} {green} {blue}"
  return if alwaysShowAlpha || alpha != channelScale then text ++ s!" {alpha}" else text

end Color

structure ColorMark where
  color : Color
  range : Range
  deriving DecidableEq, Repr

/-- An alert sound. It is known if the reference data has its identifier. -/
structure SoundMark where
  known : Bool
  identifier : String
  volume : Int
  range : Range
  deriving DecidableEq, Repr

end LootFilter
