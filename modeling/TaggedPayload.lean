import TaggedPayload.AccountBuffer
import TaggedPayload.CommandLine.Directory
import TaggedPayload.Decoder.Description
import TaggedPayload.Decoder.Shape
import TaggedPayload.Demo.Dispatch
import TaggedPayload.Demo.NoisyBatch
import TaggedPayload.Demo.SwapEvent
import TaggedPayload.Event.Dispatch
import TaggedPayload.Event.Json
import TaggedPayload.InvocationPath
import TaggedPayload.Json.Reader
import TaggedPayload.Json.Writer
import TaggedPayload.LogConfig
import TaggedPayload.Main
import TaggedPayload.Matching.Exact
import TaggedPayload.Matching.Strategy
import TaggedPayload.Metrics
import TaggedPayload.Proofs.Account.CutAccounts
import TaggedPayload.Proofs.Account.ExactRanges
import TaggedPayload.Proofs.Batch.Accounting
import TaggedPayload.Proofs.Batch.BestEffort
import TaggedPayload.Proofs.Batch.Cancellation
import TaggedPayload.Proofs.Batch.FirstSuccess
import TaggedPayload.Proofs.Batch.Provenance
import TaggedPayload.Proofs.Binary.LittleEndian
import TaggedPayload.Proofs.CommandLine.PayloadLines
import TaggedPayload.Proofs.Decoder.FirstLeaf
import TaggedPayload.Proofs.Decoder.Leaves
import TaggedPayload.Proofs.Decoder.SplitBuffer
import TaggedPayload.Proofs.Demo.ThreeWays
import TaggedPayload.Proofs.Event.EveryOffer
import TaggedPayload.Proofs.Event.HexForms
import TaggedPayload.Proofs.Event.JsonReading
import TaggedPayload.Proofs.Layout.FailedReads
import TaggedPayload.Proofs.Layout.FieldEncoding
import TaggedPayload.Proofs.Layout.FieldReading
import TaggedPayload.Proofs.Layout.FieldTexts
import TaggedPayload.Proofs.Layout.FieldsByName
import TaggedPayload.Proofs.Layout.OffsetReads
import TaggedPayload.Proofs.Layout.SameRecord
import TaggedPayload.Proofs.Layout.Stream
import TaggedPayload.Proofs.Layout.Truncation
import TaggedPayload.Proofs.Layout.WrittenFields
import TaggedPayload.Proofs.Matching.FirstPlace
import TaggedPayload.Proofs.Matching.LastDecoder
import TaggedPayload.Proofs.Registry.AcceptedLog
import TaggedPayload.Proofs.Registry.AnyProgram
import TaggedPayload.Proofs.Registry.LaterCalls
import TaggedPayload.Proofs.Registry.LayoutDispatch
import TaggedPayload.Proofs.Registry.LoadedNames
import TaggedPayload.Proofs.Registry.OneByOne
import TaggedPayload.Proofs.Registry.SearchOrder
import TaggedPayload.Proofs.Registry.SoleDecoder
import TaggedPayload.Proofs.Registry.TaggedSet
import TaggedPayload.Proofs.Text.KeyReading
import TaggedPayload.Proofs.Text.Utf8Reading
import TaggedPayload.Proofs.Text.Utf8Shortest
import TaggedPayload.Proofs.Yaml.ComposerFuel
import TaggedPayload.Proofs.Yaml.DistinctKeys
import TaggedPayload.Registry.Command
import TaggedPayload.Registry.ProgramLog
import TaggedPayload.TaggedBuffer
import TaggedPayload.Proofs.Text.Numerals
import TaggedPayload.Proofs.Text.PathReading
import TaggedPayload.Proofs.Layout.TypeNames
import TaggedPayload.Proofs.Registry.ProgramKeys
import TaggedPayload.Proofs.Batch.ChannelCapacity
