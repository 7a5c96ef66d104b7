import ParticleSim.Component.Error

/-!
# Simulation — Species

The particle species of a simulation, in the order of their definition.  A behavior finds a species
by its index; a species never goes away, so an index stays valid.
-/

namespace ParticleSim

/-- A 32-bit floating-point number as its bit pattern.  The library stores such numbers and never
computes with them, so every pattern, those of the NaNs included, is kept as it is. -/
structure Real32 where
  bits : UInt32
deriving DecidableEq, Inhabited

/-- A particle species. -/
structure Species where
  name : String
  /-- Charge of a physical particle. -/
  charge : Real32
  /-- Mass of a physical particle. -/
  mass : Real32
  /-- How many macro-particles there are. -/
  population : UInt64
deriving DecidableEq

/-- Species in definition order. -/
structure SpeciesList where
  toList : List Species
deriving DecidableEq

namespace SpeciesList

def empty : SpeciesList := ⟨[]⟩

instance : Inhabited SpeciesList := ⟨empty⟩

def size (s : SpeciesList) : Nat := s.toList.length

def isEmpty (s : SpeciesList) : Bool := s.toList.isEmpty

def names (s : SpeciesList) : List String := s.toList.map Species.name

/-- The species at an index. -/
def get? (s : SpeciesList) (i : Nat) : Option Species := s.toList[i]?

/-- The first species of a name. -/
def find? (s : SpeciesList) (name : String) : Option Species := s.toList.find? (·.name = name)

/-- The index of the first species of a name. -/
def indexOf? (s : SpeciesList) (name : String) : Option Nat := s.toList.findIdx? (·.name = name)

/-- Add a species at the end, whatever its name. -/
def push (s : SpeciesList) (sp : Species) : SpeciesList := ⟨s.toList ++ [sp]⟩

/-- Add a species without particles; a name defines at most one species.  Its index is the number of
species before. -/
def define (s : SpeciesList) (name : String) (charge mass : Real32) :
    Except ComponentError SpeciesList :=
  if (s.find? name).isSome then .error (.duplicateName name)
  else .ok (s.push ⟨name, charge, mass, 0⟩)

/-- Change the population of the species at an index, if there is one. -/
def updatePopulation (s : SpeciesList) (i : Nat) (f : UInt64 → UInt64) : SpeciesList :=
  ⟨s.toList.modify i fun sp => { sp with population := f sp.population }⟩

end SpeciesList

end ParticleSim
