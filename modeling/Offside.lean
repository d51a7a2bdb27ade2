import Offside.Main
import Offside.Tool.FileTree
import Offside.Proofs.Source.RoundTrip
import Offside.Proofs.Typing.Exactness
import Offside.Proofs.Layout.Alignment
import Offside.Proofs.Syntax.Blame
import Offside.Proofs.Syntax.Hoisting
import Offside.Proofs.Typing.Walk
import Offside.Proofs.Source.Compilation
import Offside.Proofs.Token.Segmentation
import Offside.Proofs.Go.Determination
import Offside.Proofs.Source.Relayout
import Offside.Proofs.Source.Diagnostics
import Offside.Proofs.Source.LineEnds
import Offside.Proofs.Source.Rendering
import Offside.Proofs.Source.StatementLines
import Offside.Proofs.Typing.Frames
import Offside.Proofs.Go.Names
import Offside.Proofs.Layout.Balance
import Offside.Proofs.Go.Capture
import Offside.Proofs.Tool.Delivery
import Offside.Proofs.Tool.DryRun
import Offside.Proofs.Layout.Rejection
import Offside.Proofs.Syntax.Prediction
import Offside.Proofs.Typing.Renaming
import Offside.Proofs.Source.Prefixes
import Offside.Proofs.Typing.Weakening
import Offside.Proofs.Typing.Stack
import Offside.Proofs.Typing.Tour
import Offside.Proofs.Go.Unspelled
import Offside.Proofs.Go.Indentation
import Offside.Proofs.Layout.Passes
import Offside.Proofs.Typing.Flattening
import Offside.Proofs.Syntax.Progress
