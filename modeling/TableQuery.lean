import TableQuery.Lifecycle
import TableQuery.Main
import TableQuery.Remote
import TableQuery.Store.Recording
import TableQuery.Proofs.Bindings
import TableQuery.Proofs.FieldName
import TableQuery.Proofs.Tokens
import TableQuery.Proofs.Outcome
import TableQuery.Proofs.References
import TableQuery.Proofs.Closure
import TableQuery.Proofs.Selection
import TableQuery.Proofs.Edits
import TableQuery.Proofs.Assembly
import TableQuery.Proofs.Consistency
import TableQuery.Proofs.Reader
import TableQuery.Proofs.Reading
import TableQuery.Proofs.Resolution
import TableQuery.Proofs.UpdateExpression
import TableQuery.Proofs.Meaning
import TableQuery.Proofs.UpdateAcceptance
import TableQuery.Proofs.Unambiguity
import TableQuery.Proofs.SelectionAcceptance
import TableQuery.Proofs.SelectionExpression
import TableQuery.Proofs.Marshalling
import TableQuery.Proofs.MemberOrder
import TableQuery.Proofs.Paging
import TableQuery.Proofs.Submission
import TableQuery.Proofs.Calls
import TableQuery.Proofs.Decoding
import TableQuery.Proofs.WrittenForm
import TableQuery.Proofs.NormalForm
import TableQuery.Proofs.Building
import TableQuery.Proofs.Skipping
import TableQuery.Proofs.DirectReading
import TableQuery.Proofs.DirectRecords
import TableQuery.Proofs.DirectMaps
import TableQuery.Proofs.Printing
import TableQuery.Proofs.Unordered
import TableQuery.Proofs.TaggedForm
import TableQuery.Proofs.Messages
import TableQuery.Proofs.Refusals
import TableQuery.Proofs.ListPositions
import TableQuery.Proofs.InlinePositions
import TableQuery.Proofs.NameRefusals
import TableQuery.Proofs.Suppression
import TableQuery.Proofs.Clauses
import TableQuery.Proofs.EntryOrder
import TableQuery.Proofs.Projection
import TableQuery.Proofs.IdleParts
import TableQuery.Proofs.EditPaths
import TableQuery.Proofs.Unmarshalling
import TableQuery.Proofs.NumberLiterals
import TableQuery.Proofs.Rounding
import TableQuery.Proofs.ShortestDecimals
import TableQuery.Proofs.NumberTexts
import TableQuery.Proofs.KeptNumbers
import TableQuery.Proofs.RemotePages
import TableQuery.Proofs.InsertionOrder
import TableQuery.Proofs.ReferenceFaults
import TableQuery.Proofs.Trimming
import TableQuery.Proofs.Arguments
import TableQuery.Proofs.Scanning
import TableQuery.Proofs.NameLists
