import Referent.Main
import Referent.Workspace
import Referent.Proofs.Overlay
import Referent.Proofs.Rebuild
import Referent.Proofs.Registration
import Referent.Proofs.Ensembles
import Referent.Proofs.LibraryOrder
import Referent.Proofs.Reporting
import Referent.Proofs.Seeding
import Referent.Proofs.Tasks
import Referent.Proofs.Grammar
import Referent.Proofs.Freshness
import Referent.Proofs.Shadowing
import Referent.Proofs.SnapshotText
import Referent.Proofs.CoreTypes
import Referent.Proofs.Retry
import Referent.Proofs.Duplicates
import Referent.Proofs.Initializers
import Referent.Proofs.BoundNames
import Referent.Proofs.ArrayMembers
import Referent.Proofs.Wildcards
import Referent.Proofs.Balance
import Referent.Proofs.Elements
import Referent.Proofs.Streaming
import Referent.Proofs.Acceptance
import Referent.Proofs.Sources
import Referent.Proofs.Descent
import Referent.Proofs.Joining
import Referent.Proofs.Listing
