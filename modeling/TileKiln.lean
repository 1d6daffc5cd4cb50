import TileKiln.Asset.Load
import TileKiln.Host.Memory
import TileKiln.Proofs.ReadBack
import TileKiln.Proofs.StreamLimits
import TileKiln.Proofs.MapRoundTrip
import TileKiln.Proofs.Inheritance
import TileKiln.Proofs.TemplateChain
import TileKiln.Proofs.Assembled
import TileKiln.Proofs.AssemblyStages
import TileKiln.Proofs.GidRanges
import TileKiln.Proofs.CompiledMap
import TileKiln.Proofs.TileOwnership
import TileKiln.Proofs.HostCalls
import TileKiln.Proofs.Parts
import TileKiln.Proofs.AssemblyCalls
import TileKiln.Proofs.CompileCalls
import TileKiln.Proofs.Dependencies
import TileKiln.Proofs.TemplateTiles
import TileKiln.Proofs.ResavedMap
import TileKiln.Proofs.ImageReferences
import TileKiln.Proofs.LoadedMap
import TileKiln.Proofs.Canonical
import TileKiln.Proofs.SelfDelimiting
import TileKiln.Proofs.CompiledStream
import TileKiln.Proofs.Reassembly
import TileKiln.Proofs.SharedHost
import TileKiln.Proofs.LoadedImages
import TileKiln.Proofs.ImageCollections
import TileKiln.Proofs.LoadedTileset
import TileKiln.Proofs.TemplateCycles
import TileKiln.Proofs.TilesetAlone
import TileKiln.Proofs.RecordedPaths
import TileKiln.Proofs.Registration
import TileKiln.Proofs.RangeCheck
import TileKiln.Proofs.MovedGids
import TileKiln.Proofs.InheritedShape
import TileKiln.Proofs.NestingLimit
import TileKiln.Proofs.PaintedGrid
import TileKiln.Proofs.InflateLimit
import TileKiln.Proofs.CsvCells
import TileKiln.Proofs.LimitedSink
import TileKiln.Proofs.FailureReport
import TileKiln.Proofs.InternalErrors
import TileKiln.Proofs.ReadErrors
import TileKiln.Proofs.HexChannels
import TileKiln.Proofs.HexColors
import TileKiln.Proofs.NormalPaths
import TileKiln.Proofs.RecordLimits
import TileKiln.Proofs.AuthoredRecords
import TileKiln.Proofs.RecordWalks
import TileKiln.Proofs.RecordCounts
import TileKiln.Proofs.BoundedReading
import TileKiln.Proofs.SheetGrid
import TileKiln.Proofs.CheckedQueries
import TileKiln.Proofs.TileLookups
import TileKiln.Proofs.SizeMismatches
import TileKiln.Proofs.NamedImages
