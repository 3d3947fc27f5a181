import SkipList.Draws.Source
import SkipList.KeyOrder.Catalogue
import SkipList.Proofs.Layout
import SkipList.Session
import SkipList.Proofs.Relink
import SkipList.Proofs.Storage
import SkipList.Proofs.Descent
import SkipList.Proofs.Linking
import SkipList.Proofs.Heights
import SkipList.Proofs.Turn
import SkipList.Proofs.Run
import SkipList.Proofs.Structure
import SkipList.Proofs.Reading
import SkipList.Proofs.Listing
import SkipList.Proofs.Refinement
import SkipList.Proofs.Identity
import SkipList.Proofs.Cursors
import SkipList.Proofs.Atomicity
import SkipList.Proofs.Room
import SkipList.Proofs.Remnant
import SkipList.Proofs.Queries
import SkipList.Proofs.Onward
import SkipList.Proofs.Safety
import SkipList.Proofs.Frame
import SkipList.Proofs.Ordered
import SkipList.Proofs.Journey
import SkipList.Proofs.Bare
import SkipList.Proofs.Twins
import SkipList.Proofs.TwoRuns
import SkipList.Proofs.Comparisons
import SkipList.Proofs.Conservation
import SkipList.Proofs.Recycling
import SkipList.Proofs.Numbering
import SkipList.Proofs.Renaming
import SkipList.Proofs.Lookalikes
import SkipList.Proofs.Clearing
import SkipList.Proofs.Effort
import SkipList.Proofs.Consultation
import SkipList.Proofs.Ranges
import SkipList.Proofs.Foreign
import SkipList.Proofs.Geometric
import SkipList.Proofs.Traversals
import SkipList.Proofs.Undoing
import SkipList.Proofs.Preallocation
import SkipList.Proofs.Bounds
import SkipList.Proofs.Mirror
import SkipList.Proofs.Towers
import SkipList.Proofs.Births
import SkipList.Proofs.Ledger
import SkipList.Proofs.Occupants
