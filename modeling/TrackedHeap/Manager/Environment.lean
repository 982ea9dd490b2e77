import TrackedHeap.Manager.Basic

/-!
# Managers that the environment asks for

* `Configuration.ofVariableLossy` : the configuration of the environment variable, where a value
  that says nothing is ignored with a warning;
* `Manager.ofVariable` : the manager of that configuration, and the record of its creation.
-/

namespace TrackedHeap

/-- The configuration that a value of the variable asks for. A value that is no word for on or off
leaves the default, with a warning. -/
def Configuration.ofVariableLossy (default : Configuration) (value? : Option Bytes) :
    Configuration × Trail :=
  match ofVariable default value? with
  | .ok configuration => (configuration, .empty)
  | .error error => (default, .ofEvents [.environmentIgnored error])

def Manager.ofVariable (base : Base) (default : Configuration) (value? : Option Bytes) :
    Manager × Trail :=
  let (configuration, trail) := Configuration.ofVariableLossy default value?
  (ofConfiguration base configuration, trail ++ creationTrail configuration)

end TrackedHeap
