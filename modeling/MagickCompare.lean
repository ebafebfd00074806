import MagickCompare.Image
import MagickCompare.RowLoop
import MagickCompare.Metrics
import MagickCompare.Correlation
import MagickCompare.MeanError
import MagickCompare.Distortion
import MagickCompare.Highlight
import MagickCompare.MetricLaws
import MagickCompare.Symmetry
import MagickCompare.Scan
import MagickCompare.Similarity
import MagickCompare.Composite
import MagickCompare.ClosedForm
import MagickCompare.Bounds
import MagickCompare.MeanOrder
import MagickCompare.LegacyFields
import MagickCompare.AbsoluteCount
import MagickCompare.PeakSignal
import MagickCompare.CorrelationBounds
import MagickCompare.ScanCalls
import MagickCompare.SearchOffsets
import MagickCompare.ScanTrace
import MagickCompare.ConfidenceMap
import MagickCompare.EntryPoints
import MagickCompare.LegacyMetrics
import MagickCompare.CorrelationMatch
import MagickCompare.WorkerRuns
