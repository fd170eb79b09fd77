import Supercli.Leases.Fencing
import Supercli.Runs.Worker
import Supercli.Runs.Annotations
import Supercli.Scheduled.Completed
import Supercli.Scheduled.WriteAhead
import Supercli.Scheduled.Takeover
import Supercli.Scheduled.Pause
import Supercli.Reactor.Isolation
import Supercli.Reactor.Backpressure
import Supercli.Reactor.Timers
import Supercli.PtyCore.Admission
import Supercli.PtyCore.Handoff
import Supercli.Journal.Generations
import Supercli.Journal.Window
import Supercli.Output.Viewport
import Supercli.Input.Framing
import Supercli.Events.Stream
import Supercli.Remote.Pages
import Supercli.Remote.Effects
import Supercli.Panes.Layouts
import Supercli.Hooks.FailClosed
import Supercli.Backup.OnlyVerified
import Supercli.Gateway.AnswersOnce
import Supercli.DirectPath.Punch
import Supercli.DirectPath.Stun
import Supercli.Audit.ReviewLanguage
import Supercli.Scheduled.Boundary
import Supercli.Gateway.CryptoSession
import Supercli.Output.Excision
import Supercli.Connectors.OAuth
