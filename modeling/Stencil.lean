import Stencil.Document.Walk
import Stencil.Evaluation.Service
import Stencil.Evaluation.Standard
import Stencil.Library.Context
import Stencil.Library.Order
import Stencil.Log.Line
import Stencil.Proofs.Evaluation.Contents
import Stencil.Proofs.Evaluation.Permutation
import Stencil.Proofs.Evaluation.Repeating
import Stencil.Proofs.Schema.Defaults
import Stencil.Schema.Basic
import Stencil.Settings.Sources
import Stencil.Yaml.Documents
import Stencil.Proofs.Document.Children
import Stencil.Proofs.Schema.Visiting
import Stencil.Proofs.Schema.Accepting
import Stencil.Proofs.Evaluation.Lasting
import Stencil.Proofs.Library.Grouping
import Stencil.Proofs.Evaluation.Entering
import Stencil.Proofs.Evaluation.FirstFault
import Stencil.Proofs.Evaluation.Nested
import Stencil.Proofs.Values.Using
import Stencil.Proofs.Schema.Merging
import Stencil.Proofs.Schema.Annotated
import Stencil.Proofs.Schema.Deciding
import Stencil.Proofs.Schema.Nullable
import Stencil.Proofs.Document.Lookup
import Stencil.Proofs.Schema.Filling
import Stencil.Proofs.Schema.Conforming
import Stencil.Proofs.Schema.Locating
import Stencil.Proofs.Evaluation.Searching
import Stencil.Proofs.Evaluation.Assembling
import Stencil.Proofs.Yaml.Streams
import Stencil.Proofs.Library.Blocks
import Stencil.Proofs.Library.Finding
import Stencil.Proofs.Document.Wrapping
import Stencil.Proofs.Evaluation.Guarding
import Stencil.Proofs.Schema.Selecting
import Stencil.Proofs.Settings.Finding
import Stencil.Proofs.Settings.Priority
