import RunExchange.Main
import RunExchange.Proofs.Exchange.Delivery
import RunExchange.Proofs.Exchange.Torn
import RunExchange.Proofs.Store.Refinement
import RunExchange.Proofs.Exchange.Channels
import RunExchange.Proofs.Store.Writing
import RunExchange.Proofs.Exchange.Repetition
import RunExchange.Proofs.Exchange.Threading
import RunExchange.Proofs.Exchange.Growth
import RunExchange.Proofs.Exchange.HandingOn
import RunExchange.Proofs.Exchange.Startup
import RunExchange.Proofs.Store.Separation
import RunExchange.Proofs.Exchange.Confinement
import RunExchange.Proofs.Config.Precedence
import RunExchange.Proofs.Files.Changes
import RunExchange.Proofs.Cli.Ownership
import RunExchange.Proofs.Cli.Inspection
import RunExchange.Proofs.Exchange.Collecting
import RunExchange.Proofs.Json.Grammar
import RunExchange.Proofs.Json.Tree
import RunExchange.Proofs.Json.Leading
import RunExchange.Proofs.Json.Accepting
import RunExchange.Proofs.Document.Spelled
import RunExchange.Proofs.Exchange.Declaration
import RunExchange.Proofs.Exchange.History
import RunExchange.Proofs.Json.Records
import RunExchange.Proofs.Document.Members
import RunExchange.Proofs.Config.Members
import RunExchange.Proofs.Exchange.Listings
import RunExchange.Proofs.Config.Documents
import RunExchange.Proofs.Config.Overriding
import RunExchange.Proofs.Config.WorkingDir
import RunExchange.Proofs.Exchange.Closing
