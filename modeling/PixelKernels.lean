import PixelKernels.Catalog.Lookup
import PixelKernels.Rounding
import PixelKernels.Sample
import PixelKernels.Painting
import PixelKernels.Sad.Portable
import PixelKernels.Sad.Wide
import PixelKernels.Intra.Wide
import PixelKernels.Cpu.Level
import PixelKernels.Session
import PixelKernels.Conformance.Run
import PixelKernels.Proofs.LaneSums
import PixelKernels.Proofs.Rectangles
import PixelKernels.Proofs.RoundingLaws
import PixelKernels.Proofs.WideTerms
import PixelKernels.Proofs.BlockCost
import PixelKernels.Proofs.PortablePrediction
import PixelKernels.Proofs.WidePrediction
import PixelKernels.Proofs.ReferencePrediction
import PixelKernels.Proofs.DefaultSelection
import PixelKernels.Proofs.WrittenBlocks
import PixelKernels.Proofs.Bundles
import PixelKernels.Proofs.EntryPoints
import PixelKernels.Proofs.CompletedBorders
import PixelKernels.Proofs.DeclaredReads
import PixelKernels.Proofs.PredictorConformance
import PixelKernels.Proofs.LevelIndependence
import PixelKernels.Proofs.Reconstruction
import PixelKernels.Proofs.ExactCosts
import PixelKernels.Proofs.BoundedCosts
import PixelKernels.Proofs.AveragedCosts
import PixelKernels.Proofs.BatchedCosts
import PixelKernels.Proofs.Refusals
import PixelKernels.Proofs.RectangleChecks
import PixelKernels.Proofs.FilledBuffers
import PixelKernels.Proofs.PresentedDifferences
import PixelKernels.Proofs.PresentedBorders
import PixelKernels.Proofs.RecordedTrials
import PixelKernels.Proofs.HarnessVerdicts
import PixelKernels.Proofs.RightKernels
import PixelKernels.Proofs.OverlappingRows
import PixelKernels.Proofs.RankedCandidates
import PixelKernels.Proofs.BuiltTables
import PixelKernels.Proofs.TableViews
import PixelKernels.Proofs.RunnableBundles
import PixelKernels.Proofs.CleanRuns
import PixelKernels.Proofs.FullRuns
import PixelKernels.Proofs.SessionRuns
import PixelKernels.Proofs.ForcedScalar
import PixelKernels.Proofs.LayoutIndependence
import PixelKernels.Proofs.RoundedMeans
import PixelKernels.Proofs.PredictedNumbers
import PixelKernels.Proofs.DepthScaling
import PixelKernels.Proofs.WidenedSamples
import PixelKernels.Proofs.TransposedBorders
import PixelKernels.Proofs.BorderHulls
import PixelKernels.Proofs.TiledCosts
import PixelKernels.Proofs.BlockDistances
import PixelKernels.Proofs.PrefixCosts
import PixelKernels.Proofs.SignedPairs
import PixelKernels.Proofs.MoreCapabilities
import PixelKernels.Proofs.RegistrationOrder
import PixelKernels.Proofs.LevelGrammar
import PixelKernels.Proofs.ShortBorders
import PixelKernels.Proofs.BorderMeans
