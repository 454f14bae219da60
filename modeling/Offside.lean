import Offside.Command.Folder
import Offside.Dump.Reading
import Offside.Layout.Margin
import Offside.Layout.Measured
import Offside.Main
import Offside.Proofs.Closing
import Offside.Proofs.Grammar
import Offside.Proofs.Tiling
import Offside.Token.Blocks
import Offside.Token.Tiling
import Offside.Proofs.Sessions
import Offside.Layout.Visits
import Offside.Proofs.Targets
import Offside.Edit
import Offside.Proofs.Pieces
import Offside.Proofs.Edits
import Offside.Proofs.Size
import Offside.Proofs.Replaying
import Offside.Proofs.Probing
import Offside.Layout.CarriageReturns
import Offside.Proofs.CarriageReturns
import Offside.Layout.Comments
import Offside.Proofs.Blanking
import Offside.Proofs.Comments
import Offside.Proofs.Quoting
import Offside.Proofs.Dumps
import Offside.Proofs.Counters
import Offside.Command.Log.Reading
import Offside.Proofs.LogLines
import Offside.Proofs.Logging
import Offside.Proofs.Flaws
import Offside.Proofs.Listing
import Offside.Proofs.Answers
import Offside.Proofs.Convergence
import Offside.Source.Trail
import Offside.Proofs.Characters
import Offside.Proofs.Pointers
import Offside.Proofs.Trails
import Offside.Proofs.Slices
import Offside.Proofs.Snapshots
import Offside.Layout.History
import Offside.Proofs.Histories
import Offside.Command.Faults
import Offside.Proofs.Arguments
import Offside.Source.Search
import Offside.Proofs.LineEnds
import Offside.Source.Storage
import Offside.Proofs.Storage
