import Newsfeed.Failure
import Newsfeed.Preferences

namespace Newsfeed

/-- Who asks, when, and with which preferences. -/
structure Context where
  owner : Int
  prefs : Preferences
  now : Time.Instant
  token : CancelToken
  deriving DecidableEq, Repr

end Newsfeed
