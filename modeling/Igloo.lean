import Igloo.CacheRetention
import Igloo.CacheScanOrder
import Igloo.CacheCounters
import Igloo.LexicalMerging
import Igloo.HandlerAgreement
import Igloo.ParameterAgreement
import Igloo.AliasRegistration
import Igloo.SharedCacheRuns
import Igloo.SessionTransparency
import Igloo.FreshnessRuns
import Igloo.ScanStructure
import Igloo.ScanAgreement
import Igloo.TextShapedColumns
import Igloo.FloatColumns
import Igloo.SyncRuns
import Igloo.EventFiles
import Igloo.AliasResolution
import Igloo.Introspection
import Igloo.SourceIsolation
import Igloo.SecretNoninterference
import Igloo.ResponseChunking
import Igloo.PlaceholderTypes
import Igloo.ByteaText
import Igloo.CacheRefinement
import Igloo.BoundedStaleness
import Igloo.ScanResponses
import Igloo.DescribeAgreement
import Igloo.ParameterTexts
import Igloo.FederatedScans
import Igloo.RowParameters
import Igloo.DifferentialScans
