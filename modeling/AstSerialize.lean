import AstSerialize.Coding.Emits
import AstSerialize.Reachability.Soundness
import AstSerialize.Reachability.Chain
import AstSerialize.Wire.StmtDecoder
import AstSerialize.Serializer.TypeFlags
import AstSerialize.Serializer.Hidden
import AstSerialize.Serializer.MergesSound
import AstSerialize.Serializer.SkipBodies
import AstSerialize.Serializer.Locations
import AstSerialize.Serializer.Ignores
import AstSerialize.Serializer.Effects
import AstSerialize.Serializer.SurrogateFlags
import AstSerialize.Serializer.Methods
import AstSerialize.Serializer.Attachments
import AstSerialize.TypeComment.Join
import AstSerialize.TypeComment.Record
import AstSerialize.Serializer.Signature
import AstSerialize.Reachability.Grouping
import AstSerialize.Reachability.Versions
import AstSerialize.Serializer.BytesText
import AstSerialize.Serializer.SignedInts
import AstSerialize.Serializer.QuotedTypes
import AstSerialize.InlineConfig.Overrides
import AstSerialize.InlineConfig.Joining
import AstSerialize.InlineConfig.Rendering
import AstSerialize.TypeComment.Directives
import AstSerialize.TypeComment.Skipping
import AstSerialize.TypeComment.Parts
import AstSerialize.TypeComment.Scan
import AstSerialize.TypeComment.Exclusion
import AstSerialize.TypeComment.Codes
import AstSerialize.TypeComment.Rendering
import AstSerialize.Serializer.DecoratedLocation
import AstSerialize.Serializer.Unsupported
import AstSerialize.Serializer.TypeRecursion
import AstSerialize.Execution.Reported
import AstSerialize.Execution.Pruning
import AstSerialize.Reachability.Tightening
import AstSerialize.Reachability.Exactness
import AstSerialize.Reachability.Negation
import AstSerialize.Serializer.ImportTable
import AstSerialize.TypeComment.Report
import AstSerialize.Serializer.Source
import AstSerialize.Serializer.Newlines
import AstSerialize.Serializer.TypeString
import AstSerialize.Wire.Older
import AstSerialize.Serializer.OlderTree
import AstSerialize.Serializer.CacheVersion
import AstSerialize.Coding.Gains
import AstSerialize.Serializer.Reports
import AstSerialize.Wire.Search
import AstSerialize.Serializer.ReportsExpr
import AstSerialize.Serializer.ReportsStmt
import AstSerialize.Serializer.TreeReports
import AstSerialize.Serializer.Flags
import AstSerialize.Serializer.Alike
import AstSerialize.Wire.Unflagged
import AstSerialize.Serializer.UnflaggedTree
import AstSerialize.Serializer.OtherOptions
import AstSerialize.Serializer.OtherErrors
