import LootFilter.Limits
import LootFilter.Source

/-! What can be wrong with a line, where, how bad it is, and the words for it. -/

set_option autoImplicit false

namespace LootFilter

inductive Severity where
  | error
  | warning
  | information
  | hint
  deriving DecidableEq, Repr

def Severity.label : Severity → String
  | .error => "error"
  | .warning => "warning"
  | .information => "information"
  | .hint => "hint"

def greatestVolume : Int := 300

def defaultVolume : Int := 100

inductive Expectation where
  | number (limits : Limits)
  | rarity (names : List String)
  | socketGroup
  | channels (limits : Limits)
  | sound (least greatest : Int)
  | volume
  | itemClass
  | itemBase
  | baseOf (classes : List String)
  deriving DecidableEq, Repr

def Expectation.describe : Expectation → String
  | .number limits => limits.describe
  | .rarity names => "Valid values are " ++ Text.enumerateAnd names ++ "."
  | .socketGroup => "Expected a word consisting of the R, B, G, and W characters."
  | .channels limits => s!"Expected 3-4 numbers within the {limits.least}-{limits.greatest} range."
  | .sound least greatest => s!"Expected a number from {least}-{greatest} or a valid sound identifier."
  | .volume => s!"A volume is expected to be a value between 0 and {greatestVolume}."
  | .itemClass => "Only item classes are valid values for this rule."
  | .itemBase => "Only item bases are valid values for this rule."
  | .baseOf classes => "No value found for the following classes: " ++ Text.enumerateAnd classes ++ "."

inductive Problem where
  | unreadableKeyword
  | unknownKeyword
  | trailingText
  | ignoredText
  | wrongOperator (keyword : String)
  | missingValue (keyword : String) (expected : Expectation)
  | invalidValue (keyword : String) (expected : Expectation)
  | missingBoolean (names : List String)
  | missingStrings (keyword : String)
  | duplicateValue (keyword : String)
  | outsideBlock (keyword : String)
  | tooMany (keyword : String) (occurrence limit : Int)
  deriving DecidableEq, Repr

namespace Problem

def message : Problem → String
  | .unreadableKeyword => "Unreadable keyword, likely due to a stray character."
  | .unknownKeyword => "Unknown filter keyword."
  | .trailingText => "This trailing text will be considered an error by Path of Exile."
  | .ignoredText => "This trailing text will be ignored by Path of Exile."
  | .wrongOperator keyword =>
    s!"Invalid operator for the {keyword} rule. Only the equality operator is supported by this rule."
  | .missingValue keyword expected => s!"Missing value for a {keyword} rule. {expected.describe}"
  | .invalidValue keyword expected => s!"Invalid value for a {keyword} rule. {expected.describe}"
  | .missingBoolean names =>
    "A boolean value, either " ++ " or ".intercalate names ++ ", was expected, yet not found."
  | .missingStrings keyword => s!"Missing value for {keyword} rule. A string value was expected."
  | .duplicateValue keyword => s!"Duplicate value detected within a {keyword} rule."
  | .outsideBlock keyword => s!"Block rule {keyword} found outside of a Hide or Show block."
  | .tooMany keyword occurrence limit =>
    Text.ordinal occurrence ++ s!" occurrence of the {keyword} rule within a block with a limit of {limit}."

def severity : Problem → Severity
  | .ignoredText => .warning
  | .duplicateValue _ => .warning
  | .tooMany _ _ _ => .warning
  | _ => .error

end Problem

structure Finding where
  problem : Problem
  range : Range
  deriving DecidableEq, Repr

namespace Finding

def message (finding : Finding) : String := finding.problem.message

def severity (finding : Finding) : Severity := finding.problem.severity

def isError (finding : Finding) : Bool := finding.severity == .error

end Finding

end LootFilter
