import Herald.Main
import Herald.Proofs.Dispatch.Cancellation
import Herald.Proofs.Dispatch.Visits
import Herald.Proofs.Event.Codec
import Herald.Proofs.Identifier.Connection
import Herald.Proofs.Identifier.History
import Herald.Proofs.Preference.Consultation
import Herald.Proofs.Processor.Branch
import Herald.Proofs.Processor.Deduplication
import Herald.Proofs.Processor.Enrichment
import Herald.Proofs.Processor.Forge
import Herald.Proofs.Processor.Origin
import Herald.Proofs.Processor.Retelling
import Herald.Proofs.Server.Answer
import Herald.Proofs.Server.EventTypes
import Herald.Proofs.Server.Preferences
import Herald.Proofs.Server.Pushes
import Herald.Proofs.Server.Registration
import Herald.Proofs.Server.Replacement
import Herald.Proofs.Server.Users
import Herald.Proofs.Server.Validation
import Herald.Proofs.Settings.Chain
import Herald.Proofs.Settings.Seeding
import Herald.Proofs.Transport.Lines
import Herald.Proofs.Transport.Posting
import Herald.Proofs.Transport.Schedule
import Herald.Proofs.User.Decoding
import Herald.Proofs.User.Matching
import Herald.Proofs.User.Search
import Herald.Proofs.Webhook.Header
import Herald.Proofs.Webhook.Hook
