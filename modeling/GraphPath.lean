import GraphPath.Main
import GraphPath.Shared
import GraphPath.Proofs.Resolve.Words
import GraphPath.Proofs.Token.Words
import GraphPath.Proofs.Graph.Keys
import GraphPath.Proofs.Resolve.FlatPath
import GraphPath.Proofs.Locate.Occurrences
import GraphPath.Proofs.Resolve.PathText
import GraphPath.Proofs.Locate.FoundPaths
import GraphPath.Proofs.Cache
import GraphPath.Proofs.Token.Roles
import GraphPath.Proofs.Grammar.Merge
import GraphPath.Proofs.Engine.Recall
import GraphPath.Proofs.Grammar.Coherent
import GraphPath.Proofs.Engine.Requests
import GraphPath.Proofs.Resolve.Writes
import GraphPath.Proofs.Engine.Shared
import GraphPath.Proofs.Graph.Slots
import GraphPath.Proofs.Resolve.LastStep
import GraphPath.Proofs.Graph.Reach
import GraphPath.Proofs.Resolve.Region
import GraphPath.Proofs.Resolve.Landing
import GraphPath.Proofs.Resolve.Vivify
import GraphPath.Proofs.Graph.Loops
import GraphPath.Proofs.Method
import GraphPath.Proofs.Resolve.Apart
import GraphPath.Proofs.Resolve.Loopless
import GraphPath.Proofs.Command
import GraphPath.Proofs.Token.Joined
import GraphPath.Proofs.Token.Pieces
import GraphPath.Proofs.Json.Location
import GraphPath.Proofs.Json.Reading
import GraphPath.Proofs.Graph.Document
import GraphPath.Proofs.Resolve.InPlace
import GraphPath.Proofs.Command.GetSet
import GraphPath.Proofs.Locate.Documents
import GraphPath.Proofs.Command.Find
import GraphPath.Proofs.Resolve.Compose
import GraphPath.Proofs.Resolve.Collection
import GraphPath.Proofs.Engine.Malformed
import GraphPath.Proofs.Engine.Frozen
import GraphPath.Proofs.Resolve.Atomic
import GraphPath.Proofs.Engine.RootKey
import GraphPath.Proofs.Resolve.Receiver
import GraphPath.Proofs.Engine.Calls
import GraphPath.Proofs.Resolve.PatternStep
import GraphPath.Proofs.Resolve.Changes
import GraphPath.Proofs.Token.Shape
import GraphPath.Proofs.Resolve.DepthLimit
import GraphPath.Proofs.Engine.WithinLimit
import GraphPath.Proofs.Token.Stripped
import GraphPath.Proofs.Token.Nesting
import GraphPath.Proofs.Token.Spelling
import GraphPath.Proofs.Token.Brackets
import GraphPath.Proofs.Token.Positions
import GraphPath.Proofs.Token.BareModifier
import GraphPath.Proofs.Token.Enclosed
import GraphPath.Proofs.Token.Needless
import GraphPath.Proofs.Resolve.Substitution
import GraphPath.Proofs.Cache.Recency
import GraphPath.Proofs.Graph.Enumeration
import GraphPath.Proofs.Graph.Equality
import GraphPath.Proofs.Method.SortOrder
import GraphPath.Proofs.Resolve.PastRoot
