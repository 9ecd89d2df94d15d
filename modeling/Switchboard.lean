import Switchboard.Main
import Switchboard.Proofs.Acceptor.Histories
import Switchboard.Proofs.Admission
import Switchboard.Proofs.Arguments
import Switchboard.Proofs.BodyLength
import Switchboard.Proofs.Cascades
import Switchboard.Proofs.ContentType
import Switchboard.Proofs.Conversation
import Switchboard.Proofs.Crew.Progress
import Switchboard.Proofs.Crew.Timed
import Switchboard.Proofs.Draining
import Switchboard.Proofs.Envelope
import Switchboard.Proofs.Headers
import Switchboard.Proofs.Hosting
import Switchboard.Proofs.Internal
import Switchboard.Proofs.KeepAlive
import Switchboard.Proofs.Lifecycle
import Switchboard.Proofs.Limit
import Switchboard.Proofs.Markup
import Switchboard.Proofs.Merge
import Switchboard.Proofs.Presentation
import Switchboard.Proofs.Registration
import Switchboard.Proofs.Responses
import Switchboard.Proofs.Results
import Switchboard.Proofs.Routing
import Switchboard.Proofs.Tracking
import Switchboard.Proofs.Tunnel
import Switchboard.Proofs.Validation
import Switchboard.Proofs.WebRoot
import Switchboard.Sample.Gallery
