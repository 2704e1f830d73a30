import CommServe.Transition
import CommServe.RecordStore
import CommServe.Sync
import CommServe.Method
import CommServe.Database
import CommServe.Models
import CommServe.Handlers
import CommServe.Home
import CommServe.Pinned
import CommServe.Lists
import CommServe.AddPost
import CommServe.Account
import CommServe.Location
import CommServe.AddPostScreen
import CommServe.UserInfoScreen
import CommServe.Cells
import CommServe.Feed
import CommServe.Taps
import CommServe.World
import CommServe.Reactions
import CommServe.Owners
import CommServe.Soundness
import CommServe.Karma
import CommServe.Earnings
import CommServe.Completion
import CommServe.Lifecycle
import CommServe.Stages
import CommServe.Reopening
import CommServe.Alone
import CommServe.Pins
import CommServe.Rejection
import CommServe.Paths
import CommServe.Copies
import CommServe.Display
import CommServe.References
import CommServe.Profiles
import CommServe.Shown
import CommServe.UserRecords
import CommServe.Screens
import CommServe.Session
import CommServe.Launch
import CommServe.Settling
import CommServe.Progress
import CommServe.PostLocation
import CommServe.Pictures
import CommServe.ImageCache
import CommServe.Logout
import CommServe.Text
import CommServe.Phone
import CommServe.PhoneRuns
import CommServe.SignUpScreen
import CommServe.FormRuns
