import ParticleSim.Family

/-!
# Components — Errors

`ComponentError` says why a component, a species or the field was not added; `LookupError` why a
member was not found.  Neither leaves anything half done by itself.
-/

namespace ParticleSim

/-- Why a collaborator is missing or comes twice. -/
inductive ConfigurationFault where
  | fieldDefined
  | noSpecies (name : String)
  | noParallelSpeed (species name : String)
  | noPerpendicularSpeed (species name : String)
deriving DecidableEq

def ConfigurationFault.message : ConfigurationFault → String
  | .fieldDefined => "field array is already defined"
  | .noSpecies name => s!"species list is empty, cannot create '{name}'"
  | .noParallelSpeed species name =>
    s!"no parallel thermal speed for species '{species}' in '{name}'"
  | .noPerpendicularSpeed species name =>
    s!"no perpendicular thermal speed for species '{species}' in '{name}'"

/-- Why something could not be added to a simulation. -/
inductive ComponentError where
  | alreadyLinked (name : String)
  | duplicateName (name : String)
  | configuration (fault : ConfigurationFault)
  | unknownBehavior (family : Family) (symbol : String)
  | alreadySized (name : String)
deriving DecidableEq

def ComponentError.message : ComponentError → String
  | .alreadyLinked name => s!"component '{name}' is already in a list"
  | .duplicateName name => s!"name '{name}' is already in use"
  | .configuration fault => "configuration error: " ++ fault.message
  | .unknownBehavior family symbol => s!"unknown {family.label} behavior '{symbol}'"
  | .alreadySized name => s!"component '{name}' buffer has already been sized"

/-- The word for the kind of error. -/
def ComponentError.kind : ComponentError → String
  | .alreadyLinked _ => "AlreadyLinked"
  | .duplicateName _ => "DuplicateName"
  | .configuration _ => "Configuration"
  | .unknownBehavior .. => "UnknownBehavior"
  | .alreadySized _ => "AlreadySized"

/-- Why a member was not found. -/
inductive LookupError where
  | index (i length : Nat)
  | key (name : String)
  | id (component : ComponentId)
  /-- The handle was taken before its list was torn down, or from another list. -/
  | stale (object : ObjectId)
deriving DecidableEq

def LookupError.message : LookupError → String
  | .index i length => s!"index {i} out of range for list of length {length}"
  | .key name => s!"item \"{name}\" not found"
  | .id component => s!"no component with id {component.text}"
  | .stale object => s!"handle to {object.text} was invalidated by a list replacement"

/-- The word for the kind of error. -/
def LookupError.kind : LookupError → String
  | .index .. => "Index"
  | .key _ => "Key"
  | .id _ => "Id"
  | .stale _ => "Stale"

end ParticleSim
