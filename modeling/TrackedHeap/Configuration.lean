import TrackedHeap.Text.Blank
import TrackedHeap.Text.Quoted

/-!
# Configuration

* `Configuration` : whether memory is tracked;
* `Switch.read?` : the words for on and off;
* `ConfigError` : a value of the environment variable that is neither;
* `Configuration.ofVariable` : the configuration that the environment variable asks for.
-/

namespace TrackedHeap

/-- How memory is managed. -/
structure Configuration where
  debugMemory : Bool
  deriving DecidableEq, Repr

/-- The environment variable that turns tracking on and off. -/
def debugMemoryVariable : String := "SL_DEBUG_MEMORY"

/-- Why the environment gives no configuration. -/
inductive ConfigError where
  /-- The variable holds no word for on or off; its value as it was. -/
  | invalidValue (value : String)
  deriving DecidableEq, Repr

def ConfigError.message : ConfigError → String
  | .invalidValue value =>
    "invalid value " ++ String.ofList (Text.quoteText value.toList) ++ " for " ++
      debugMemoryVariable ++ " (expected 1/0, true/false, yes/no or on/off)"

namespace Switch

def onWords : List String := ["1", "true", "yes", "on"]

def offWords : List String := ["0", "false", "no", "off"]

/-- The setting that a value names: one of the words, in either case, between blanks. -/
def read? (value : String) : Option Bool :=
  let word := String.ofList ((Text.trim value.toList).map Char.toLower)
  if word ∈ onWords then some true
  else if word ∈ offWords then some false
  else none

end Switch

namespace Configuration

/-- The configuration that a value of the variable asks for. An absent value, and one that is not
UTF-8, leaves the default. -/
def ofVariable (default : Configuration) (value? : Option Bytes) :
    Except ConfigError Configuration :=
  match value?.bind Utf8.decode? with
  | none => .ok default
  | some text =>
    match Switch.read? (String.ofList text) with
    | some debugMemory => .ok ⟨debugMemory⟩
    | none => .error (.invalidValue (String.ofList text))

end Configuration

end TrackedHeap
