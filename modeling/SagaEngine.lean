import SagaEngine.Checkout
import SagaEngine.CommandLine.Run
import SagaEngine.CommandLine.Usage
import SagaEngine.Main
import SagaEngine.Script
import SagaEngine.Settings.Load
import SagaEngine.Settings.Strict
import SagaEngine.Wire.Decode
import SagaEngine.Proofs.Conservation
import SagaEngine.Proofs.Scheduling
import SagaEngine.Proofs.Signals
import SagaEngine.Proofs.Rest
import SagaEngine.Proofs.Propagation
import SagaEngine.Proofs.Linearity
import SagaEngine.Proofs.Scripts
import SagaEngine.Proofs.Kills
import SagaEngine.Proofs.Children
import SagaEngine.Proofs.Mailboxes
import SagaEngine.Proofs.Registries
import SagaEngine.Proofs.Phases
import SagaEngine.Proofs.Arrivals
import SagaEngine.Proofs.Checkouts
import SagaEngine.Proofs.Workload
import SagaEngine.Proofs.Failures
import SagaEngine.Proofs.Slices
import SagaEngine.Proofs.Isolation
import SagaEngine.Proofs.Raising
import SagaEngine.Proofs.Delegation
import SagaEngine.Proofs.RoundTrip
import SagaEngine.Proofs.Layers
import SagaEngine.Proofs.Escalations
import SagaEngine.Proofs.Merging
import SagaEngine.Proofs.Levels
import SagaEngine.Proofs.Markers
import SagaEngine.Proofs.Budgets
import SagaEngine.Proofs.Integers
import SagaEngine.Proofs.Occupancy
import SagaEngine.Proofs.Casting
import SagaEngine.Proofs.Respelling
import SagaEngine.Proofs.Attempts
import SagaEngine.Proofs.Suffixes
