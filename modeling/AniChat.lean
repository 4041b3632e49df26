import AniChat.Client.LoginClient
import AniChat.Laws.Client.AllOrNothing
import AniChat.Laws.Client.Delivery
import AniChat.Laws.Controller.InboxOrder
import AniChat.Laws.Controller.RecentsOrder
import AniChat.Laws.Client.Registration
import AniChat.Controller.LoginVC
import AniChat.Laws.Controller.LoginButton
import AniChat.App.Device
import AniChat.App.System
import AniChat.Laws.App.Sessions
import AniChat.Laws.App.SignOut
import AniChat.Laws.App.Sources
import AniChat.Laws.Controller.LoginForm
import AniChat.Laws.App.Isolation
import AniChat.Laws.Client.Avatars
import AniChat.Laws.Controller.AvatarChoice
import AniChat.Laws.Controller.Refresh
import AniChat.Cell.RecentMessageCell
import AniChat.Laws.Cell.Reuse
import AniChat.Extensions.UIImageView
import AniChat.Laws.Extensions.ImageLoading
import AniChat.Laws.Extensions.Traps
import AniChat.Laws.Extensions.Cancel
import AniChat.Laws.Extensions.Cache
import AniChat.Laws.Extensions.LastRequest
import AniChat.Client.Backend
import AniChat.Client.Snapshots
import AniChat.Laws.Client.Snapshots
import AniChat.App.Directory
import AniChat.App.Conversations
import AniChat.Cell.ContactMessageCell
import AniChat.Laws.App.Conversations
import AniChat.Laws.App.Directory
import AniChat.App.Phone
import AniChat.Laws.App.Phone
import AniChat.Laws.App.RecentsList
import AniChat.Laws.App.RecentsRest
import AniChat.Laws.App.Provenance
import AniChat.Laws.Client.Rest
import AniChat.Laws.App.Rest
import AniChat.Automata.Board
import AniChat.Laws.Client.Refinement
import AniChat.Laws.App.History
import AniChat.App.Onboarding
import AniChat.Laws.App.Onboarding
