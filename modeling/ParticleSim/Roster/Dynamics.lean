import ParticleSim.Roster.Basic

/-!
# Rosters — Behaviors at work

* `Roster.interact` decides a hit on a boundary.  The two reserved ids are decided without looking
  at the list.
* `Roster.collide` and `Roster.emit` run every behavior of a list once, from the head on, each on
  the species as the previous one left them.
-/

namespace ParticleSim

namespace Component

/-- Decide a hit; a boundary condition without a behavior absorbs. -/
def interact (c : Component .boundary) (hit : Hit) (species : SpeciesList) :
    Disposition × BoundaryParams × SpeciesList :=
  let plain (r : Disposition × SpeciesList) : Disposition × BoundaryParams × SpeciesList :=
    (r.1, c.params, r.2)
  match c.kind, c.behavior with
  | .reflect, _ => plain (hit.reflect species)
  | .absorb, _ => plain (hit.absorb species)
  | _, some behavior => behavior.run c.params hit species
  | _, none => plain (hit.absorb species)

/-- Run a collision operator. -/
def collide (c : Component .collision) (species : SpeciesList) :
    Component .collision × SpeciesList :=
  match c.behavior with
  | none => (c, species)
  | some behavior =>
    let (params, species) := behavior.run c.params species
    ({ c with params }, species)

/-- Run an emitter; one that is not sized has no voxels and stays that way. -/
def emit (c : Component .emitter) (species : SpeciesList) : Component .emitter × SpeciesList :=
  let params : EmitterParams := c.params
  match c.behavior, params.voxels with
  | none, _ => (c, species)
  | some behavior, some voxels =>
    let (state, voxels, species) := behavior.run params.state voxels.size voxels.toVector species
    ({ c with params := (⟨state, some voxels.toArray⟩ : EmitterParams) }, species)
  | some behavior, none =>
    let (state, _, species) := behavior.run params.state 0 #v[] species
    ({ c with params := (⟨state, none⟩ : EmitterParams) }, species)

/-- Run every component of a list, the last one first. -/
def runEach {F : Family} (run : Component F → SpeciesList → Component F × SpeciesList) :
    List (Component F) → SpeciesList → List (Component F) × SpeciesList
  | [], species => ([], species)
  | c :: cs, species =>
    let (cs, species) := runEach run cs species
    let (c, species) := run c species
    (c :: cs, species)

end Component

namespace Roster

/-- Decide a hit on the boundary condition with an id. -/
def interact (l : Roster .boundary) (id : ComponentId) (hit : Hit) (species : SpeciesList) :
    Except LookupError (Disposition × Roster .boundary × SpeciesList) :=
  if id = reflectId then
    let (d, species) := hit.reflect species
    .ok (d, l, species)
  else if id = absorbId then
    let (d, species) := hit.absorb species
    .ok (d, l, species)
  else
    match l.memberById? id with
    | none => .error (.id id)
    | some c =>
      let (d, params, species) := c.interact hit species
      .ok (d, l.updateParams c.object fun _ => params, species)

/-- Run every collision operator. -/
def collide (l : Roster .collision) (species : SpeciesList) : Roster .collision × SpeciesList :=
  let (members, species) := Component.runEach Component.collide l.members species
  ({ l with members }, species)

/-- Run every emitter. -/
def emit (l : Roster .emitter) (species : SpeciesList) : Roster .emitter × SpeciesList :=
  let (members, species) := Component.runEach Component.emit l.members species
  ({ l with members }, species)

end Roster

end ParticleSim
