import SocialNetwork.Machine
import SocialNetwork.SortedSet
import SocialNetwork.Bson
import SocialNetwork.Strconv
import SocialNetwork.Json
import SocialNetwork.Model
import SocialNetwork.RedisHash
import SocialNetwork.ComposePost
import SocialNetwork.ComposePostTrace
import SocialNetwork.ComposePostInvariant
import SocialNetwork.ComposePostJoin
import SocialNetwork.ComposePostRetry
import SocialNetwork.Ids
import SocialNetwork.MachineIds
import SocialNetwork.UniqueId
import SocialNetwork.UniqueIdRuns
import SocialNetwork.PostStorage
import SocialNetwork.RabbitMQPool
import SocialNetwork.RabbitMQCapacity
import SocialNetwork.ChannelClients
import SocialNetwork.ChannelOwnership
import SocialNetwork.Notification
import SocialNetwork.NotificationCausality
import SocialNetwork.SocialGraph
import SocialNetwork.SocialGraphRecords
import SocialNetwork.SocialGraphReads
import SocialNetwork.SocialGraphConvergence
import SocialNetwork.UserTimeline
import SocialNetwork.UserTimelineRuns
import SocialNetwork.HomeTimeline
import SocialNetwork.Users
import SocialNetwork.UserMentions
import SocialNetwork.NotificationFanout
import SocialNetwork.PostStorageRuns
import SocialNetwork.UserService
import SocialNetwork.UserCache
import SocialNetwork.Registration
import SocialNetwork.UserHandlers
import SocialNetwork.UsableRegistrations
import SocialNetwork.Strings
import SocialNetwork.ComposeParams
import SocialNetwork.TextService
import SocialNetwork.RequestIds
import SocialNetwork.HomeTimelineWrites
import SocialNetwork.FailedRegistration
import SocialNetwork.UserTimelineFailures
import SocialNetwork.StoreFailures
import SocialNetwork.ComposePostHandler
import SocialNetwork.ComposeDelivery
import SocialNetwork.ComposePostRefinement
import SocialNetwork.ComposeProgress
import SocialNetwork.FollowRequests
import SocialNetwork.FollowRequestsSoundness
import SocialNetwork.Feeds
import SocialNetwork.FeedDelivery
import SocialNetwork.FeedTermination
import SocialNetwork.FollowHandlers
import SocialNetwork.FollowResponses
import SocialNetwork.InitSocialGraph
import SocialNetwork.UserTimelineRequests
import SocialNetwork.UserTimelineSoundness
import SocialNetwork.JsonText
import SocialNetwork.ReadHandlers
import SocialNetwork.PostedTimelines
import SocialNetwork.PostedTimelinesRuns
import SocialNetwork.Application
import SocialNetwork.ApplicationRefinement
import SocialNetwork.ApplicationTimelines
