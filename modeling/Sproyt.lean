import Sproyt.Chat.Presence
import Sproyt.Db.AlertDelivery
import Sproyt.Db.Backfill
import Sproyt.Db.ChannelReferences
import Sproyt.Db.ChannelSequences
import Sproyt.Db.Containment
import Sproyt.Db.Idempotency
import Sproyt.Db.Invitations
import Sproyt.Db.MediaTokens
import Sproyt.Db.PersonalNotes
import Sproyt.Db.ReadMarkers
import Sproyt.Domain.TopicKeys
import Sproyt.Media.Budget
import Sproyt.Native.Login
import Sproyt.Process.Outbox
import Sproyt.Web.Alerts
import Sproyt.Work.Revisions
import Sproyt.Work.Regression
import Sproyt.Work.AtMostOnce
import Sproyt.Frontend.OutboxCapacity
import Sproyt.Frontend.SseResume
import Sproyt.Frontend.RequestAccounting
import Sproyt.Frontend.Handoff
import Sproyt.Chat.PublishedMessages
import Sproyt.Media.Slices
import Sproyt.Agents.RateLimit
import Sproyt.Agents.Dice
import Sproyt.Agents.ContextWindow
import Sproyt.Agents.EventParser
import Sproyt.Native.Sealing
import Sproyt.Frontend.VisibleRead
import Sproyt.Db.SavedStatuses
import Sproyt.Db.SqlDialect
