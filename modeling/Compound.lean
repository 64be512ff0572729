import Compound.Session.Script
import Compound.Proofs.References
import Compound.Proofs.Mirror
import Compound.Proofs.Drift
import Compound.Proofs.Attendance
import Compound.Proofs.Client
import Compound.Proofs.Soundness
import Compound.Proofs.Moves
import Compound.Proofs.Calls
import Compound.Proofs.Edits
import Compound.Proofs.Operations
import Compound.Proofs.Lookups
import Compound.Proofs.Steps
import Compound.Proofs.Runs
import Compound.Proofs.Boxes
import Compound.Proofs.Reclaim
import Compound.Proofs.Tags
import Compound.Proofs.Ownership
import Compound.Proofs.Changes
import Compound.Proofs.Members
import Compound.Proofs.Classes
import Compound.Proofs.Growth
import Compound.Proofs.Embedding
import Compound.Proofs.Freezing
import Compound.Proofs.Lags
import Compound.Proofs.Lockstep
import Compound.Proofs.Twins
import Compound.Proofs.Parallel
import Compound.Proofs.Registrations
import Compound.Proofs.Companions
import Compound.Proofs.Timing
import Compound.Proofs.Course
import Compound.Proofs.Partings
import Compound.Proofs.Isolation
import Compound.Proofs.Refusals
import Compound.Proofs.Orders
import Compound.Proofs.Finality
import Compound.Proofs.Enrollments
import Compound.Proofs.Traces
import Compound.Proofs.Newcomers
import Compound.Proofs.Ledger
import Compound.Proofs.Backlog
import Compound.Proofs.Draining
import Compound.Proofs.Loans
import Compound.Proofs.Rulings
import Compound.Proofs.Indices
import Compound.Proofs.Listings
import Compound.Proofs.Installs
import Compound.Proofs.Assignments
import Compound.Proofs.Grammar
import Compound.Proofs.Spellings
import Compound.Proofs.Readings
import Compound.Proofs.Configurations
import Compound.Proofs.FieldNames
import Compound.Proofs.Quiescence
import Compound.Proofs.Harmless
import Compound.Proofs.Canonical
import Compound.Proofs.Undoing
import Compound.Proofs.Equality
import Compound.Proofs.Literals
