import ParticleSim.Host.Session
import ParticleSim.Proofs.Checkpoint.Cuts
import ParticleSim.Proofs.Checkpoint.Grammar
import ParticleSim.Proofs.Checkpoint.Passes
import ParticleSim.Proofs.Checkpoint.Schedules
import ParticleSim.Proofs.Host.AllOrNothing
import ParticleSim.Proofs.Host.CommandLines
import ParticleSim.Proofs.Host.Commits
import ParticleSim.Proofs.Host.ControlState
import ParticleSim.Proofs.Host.FileNames
import ParticleSim.Proofs.Host.Programs
import ParticleSim.Proofs.Registry.Histories
import ParticleSim.Proofs.Restore.Failures
import ParticleSim.Proofs.Restore.Formation
import ParticleSim.Proofs.Restore.Rearranged
import ParticleSim.Proofs.Restore.RoundTrip
import ParticleSim.Proofs.Restore.StagedChains
import ParticleSim.Proofs.Restore.Walks
import ParticleSim.Proofs.Roster.Dispatch
import ParticleSim.Proofs.Roster.Ownership
import ParticleSim.Proofs.Simulation.Hits
import ParticleSim.Proofs.Simulation.Rounds
import ParticleSim.Proofs.View.Lookups
import ParticleSim.Proofs.View.Replacement
import ParticleSim.Rank.Network
import ParticleSim.RosterView
import ParticleSim.Sample
import ParticleSim.Text.Hex
