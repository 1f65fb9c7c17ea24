import SequencedFeed.Client.Run
import SequencedFeed.Envelope.Decode
import SequencedFeed.Envelope.Text
import SequencedFeed.Fleet
import SequencedFeed.Main
import SequencedFeed.Proofs.Delivery
import SequencedFeed.Proofs.Endurance
import SequencedFeed.Proofs.Ownership
import SequencedFeed.Proofs.StopAll
import SequencedFeed.Publisher
import SequencedFeed.Rehearsal
import SequencedFeed.WebSocket.Session
import SequencedFeed.Proofs.Cancelling
import SequencedFeed.Proofs.CancelOrStop
import SequencedFeed.Proofs.FailureReports
import SequencedFeed.Proofs.Promptness
import SequencedFeed.Proofs.PromptTogether
import SequencedFeed.Proofs.DialCounts
import SequencedFeed.Proofs.Waits
import SequencedFeed.Proofs.Settling
import SequencedFeed.Proofs.Punctuality
import SequencedFeed.Proofs.Json.Numbers
import SequencedFeed.Proofs.Json.Strings
import SequencedFeed.Proofs.Json.Reading
import SequencedFeed.Proofs.Json.Collections
import SequencedFeed.Proofs.Json.Skipping
import SequencedFeed.Proofs.Json.Records
import SequencedFeed.Proofs.Decoding
import SequencedFeed.Proofs.Json.Rewriting
import SequencedFeed.Proofs.Presentation
import SequencedFeed.Proofs.Json.Written
import SequencedFeed.Proofs.Json.RoundTrip
import SequencedFeed.Proofs.RoundTrip
import SequencedFeed.Proofs.Publishing
import SequencedFeed.Proofs.Confirmations
import SequencedFeed.Proofs.Insertions
import SequencedFeed.Proofs.Companions
import SequencedFeed.Proofs.Independence
import SequencedFeed.Proofs.Accounting
import SequencedFeed.Proofs.Conservation
import SequencedFeed.Proofs.ReadNotes
import SequencedFeed.Proofs.ReadersInLine
import SequencedFeed.Proofs.Rehearsing
import SequencedFeed.Proofs.LosslessQueue
import SequencedFeed.WebSocket.Reading
import SequencedFeed.Proofs.Conveyance
import SequencedFeed.Proofs.LosslessReads
import SequencedFeed.Proofs.SessionReads
import SequencedFeed.Proofs.Delays
import SequencedFeed.Proofs.MessageOrder
import SequencedFeed.Proofs.SessionEndings
import SequencedFeed.Proofs.IdleDrops
import SequencedFeed.Proofs.SentFrames
import SequencedFeed.Proofs.Finiteness
import SequencedFeed.Proofs.Pasts
import SequencedFeed.Proofs.Repetitions
